import Scriptlet.Proofs.Sessions.Registration
/-!
# Type soundness of sessions

An embedding program starts a session, registers native functions, evaluates
sources and collects garbage, in any order and with any outcome.  In every state
that it can reach, bound symbols have values of their types, native functions
were called as their signatures demand, typed trees yield values of their types,
and an evaluation fails for none but the listed reasons.
-/

namespace Scriptlet.Session

variable {ν : Type}

/-- The states of a session that an embedding program can reach, with the values
that it holds itself: those it made, those it found in the session and the
results of evaluations. -/
inductive Reachable : (Value ν → Prop) → Session ν → Prop where
  | initial (settings : Settings) : Reachable (fun _ => False) (.initial settings)
  | make {own : Value ν → Prop} {s t : Session ν} {payload : Payload ν} {value : Value ν} :
      Reachable own s → (fresh payload).on s = (.ok value, t) → Reachable (entered own value) t
  | keep {own : Value ν → Prop} {s : Session ν} {value : Value ν} :
      Reachable own s → s.Knows value → Reachable (entered own value) s
  | register {own : Value ν → Prop} {s t : Session ν} {name : String} {arguments : List String}
      {result : Option String} {handle : ν} {outcome : Except Failure Symbol} :
      Reachable own s → ReadsAsName name →
      (register name arguments result handle).on s = (outcome, t) → Reachable own t
  | evaluate {own : Value ν → Prop} {s t : Session ν} {host : Host ν} {watch : Watch}
      {source : String} {outcome : Except Failure (Value ν)} :
      Reachable own s → host.Honest own →
      (evaluate host watch source).on s = (outcome, t) →
      Reachable (fun value => own value ∨ outcome = .ok value) t
  | collect {own : Value ν → Prop} {s t : Session ν} {outcome : Except Failure Nat} :
      Reachable own s → collect.on s = (outcome, t) → Reachable own t

/-- What holds of a session in a state that it can reach. -/
structure TypeSafe (own : Value ν → Prop) (s : Session ν) : Prop where
  /-- The state is sound, and so are the states in the midst of an evaluation. -/
  sound : ∃ book, s.Sound book ∧ ∀ v, own v → book v
  /-- A bound symbol is declared, and the value that it is bound to is stored and
  of the declared type. -/
  bindings : ∀ id key, s.boundTo? id = some key → ∃ symbol type value, s.Declares symbol ∧
    symbol.id = id ∧ symbol.variant.type? = some type ∧ s.values.get? key = some value ∧
    s.Agrees value.payload type
  /-- A native function was called with as many arguments as it has parameters,
  each of the parameter's type. -/
  calls : ∀ name handle arguments, Event.called name handle arguments ∈ s.journal →
    s.Admits name handle arguments
  /-- A tree that the analysis gave a type yields a value of that type whenever it
  is executed in its scope in a sound state, and a tree without a type yields
  nothing.  The state stays sound, also after a failure. -/
  execution : ∀ (scoping scoping' : Scoping) (tree : Tree) (analysed : Analysed),
    scoping.Sound → tree.IsStatement →
    (Analysis.analyse tree).on scoping = (.ok analysed, scoping') →
    ∀ (host : Host ν) (book : Value ν → Prop) (t : Session ν),
      host.Honest own → (∀ v, own v → book v) → t.Sound book →
      scoping'.forest.Extends t.scoping.forest → t.scoping.cursor = scoping'.cursor →
      (execute host analysed.node).Ensures t
        (fun value u => ∃ book', Follows book book' t u ∧ Yields book' u value analysed.type)
        (fun failure u => (∃ book', Follows book book' t u) ∧ host.Stops failure)
  /-- An evaluation fails because the parser or the analysis refuses the source, or
  because its execution stops for one of the reasons of `Host.Stops`. -/
  failures : ∀ (host : Host ν) (watch : Watch) (source : String) (failure : Failure)
    (t : Session ν), host.Honest own →
    (Session.evaluate host watch source).on s = (.error failure, t) →
    Rejects host source s.settings.sourceName failure

structure Inv (own : Value ν → Prop) (book : Value ν → Prop) (s : Session ν) : Prop where
  sound : s.Sound book
  own : ∀ v, own v → book v
  nothing : book .nothing
  cursor : s.scoping.cursor = Forest.globalId

theorem Inv.proceeds {own book book' : Value ν → Prop} {s t : Session ν} (h : s.Inv own book)
    (hproceeds : Proceeds book book' s t) : t.Inv own book' :=
  ⟨hproceeds.sound, fun v hv => hproceeds.book v (h.own v hv), hproceeds.book _ h.nothing,
    hproceeds.cursor.trans h.cursor⟩

private theorem inv_initial (settings : Settings) :
    (Session.initial settings : Session ν).Inv (fun _ => False) (fun v => v = .nothing) := by
  refine ⟨⟨Forest.sound_initial, ?_, ?_, ?_, ?_, ?_⟩, fun _ h => h.elim, rfl, rfl⟩
  · rintro _ _ rfl rfl _
    rfl
  · rintro _ rfl
    exact Nat.zero_lt_one
  · simp [Session.initial, drain, ValueTable.empty]
  · intro id key hkey
    simp [Session.initial, drain, boundTo?] at hkey
  · intro name handle arguments hmem
    simp [Session.initial, drain] at hmem

theorem Reachable.exists_inv {own : Value ν → Prop} {s : Session ν} (h : Reachable own s) :
    ∃ book, s.Inv own book := by
  induction h with
  | initial settings => exact ⟨_, inv_initial settings⟩
  | @make own s t payload value _ hfresh ih =>
      obtain ⟨book, hinv⟩ := ih
      rw [on_fresh, Prod.mk.injEq, Except.ok.injEq] at hfresh
      obtain ⟨rfl, rfl⟩ := hfresh
      have hminted := hinv.proceeds (hinv.sound.follows_minted payload).proceeds
      refine ⟨_, hminted.sound, ?_, hminted.nothing, hminted.cursor⟩
      rintro v (hv | rfl)
      · exact hminted.own v hv
      · exact .inr rfl
  | keep _ hknows ih =>
      obtain ⟨book, hinv⟩ := ih
      refine ⟨book, hinv.sound, ?_, hinv.nothing, hinv.cursor⟩
      rintro v (hv | rfl)
      · exact hinv.own v hv
      · rcases hknows with hstored | ⟨name, handle, arguments, hcalled, hmem⟩
        · exact hinv.sound.stored v hstored
        · exact (hinv.sound.called name handle arguments hcalled).1 v hmem
  | @register own s t name arguments result handle outcome _ hname hregister ih =>
      obtain ⟨book, hinv⟩ := ih
      have hensures := register_ensures hinv.sound hinv.cursor hname arguments result handle
      obtain ⟨book', hproceeds⟩ : ∃ book', Proceeds book book' s t := by
        unfold Act.Ensures at hensures
        rw [hregister] at hensures
        cases outcome with
        | ok symbol => exact hensures.1
        | error failure => exact hensures.1
      exact ⟨book', hinv.proceeds hproceeds⟩
  | @evaluate own s t host watch source outcome _ hhonest hevaluate ih =>
      obtain ⟨book, hinv⟩ := ih
      have hensures := evaluate_ensures hhonest hinv.sound hinv.own hinv.cursor watch source
      unfold Act.Ensures at hensures
      rw [hevaluate] at hensures
      cases outcome with
      | ok value =>
          obtain ⟨book', hproceeds, hvalue⟩ := hensures
          have hafter := hinv.proceeds hproceeds
          refine ⟨book', hafter.sound, ?_, hafter.nothing, hafter.cursor⟩
          rintro v (hv | hv)
          · exact hafter.own v hv
          · rw [Except.ok.injEq] at hv
            subst hv
            rcases hvalue with rfl | hvalue
            · exact hafter.nothing
            · exact hvalue
      | error failure =>
          obtain ⟨⟨book', hproceeds⟩, -⟩ := hensures
          have hafter := hinv.proceeds hproceeds
          refine ⟨book', hafter.sound, ?_, hafter.nothing, hafter.cursor⟩
          rintro v (hv | hv)
          · exact hafter.own v hv
          · simp at hv
  | collect _ hcollect ih =>
      obtain ⟨book, hinv⟩ := ih
      rw [on_collect, Prod.mk.injEq] at hcollect
      obtain ⟨-, rfl⟩ := hcollect
      exact ⟨book, hinv.sound.collected, hinv.own, hinv.nothing, hinv.cursor⟩

private theorem execute_analysed {own book : Value ν → Prop} {host : Host ν} {t : Session ν}
    {scoping scoping' : Scoping} {tree : Tree} {analysed : Analysed}
    (hscoping : scoping.Sound) (htree : tree.IsStatement)
    (hanalyse : (Analysis.analyse tree).on scoping = (.ok analysed, scoping'))
    (hhonest : host.Honest own) (hown : ∀ v, own v → book v) (ht : t.Sound book)
    (hext : scoping'.forest.Extends t.scoping.forest)
    (hcursor : t.scoping.cursor = scoping'.cursor) :
    (execute host analysed.node).Ensures t
      (fun value u => ∃ book', Follows book book' t u ∧ Yields book' u value analysed.type)
      (fun failure u => (∃ book', Follows book book' t u) ∧ host.Stops failure) := by
  have hsound := Analysis.statementSound htree scoping hscoping
  unfold Act.Ensures at hsound
  rw [hanalyse] at hsound
  obtain ⟨hgrows, -, htyped, -⟩ := hsound
  obtain ⟨scope, hscope⟩ := (hgrows.soundScoping hscoping).cursor
  obtain ⟨scope', hscope', -⟩ := hext _ scope hscope
  have htyped' := htyped.mono hext hgrows.sound.numbered ht.forest.numbered hscope
  exact executionSound hhonest htyped' t book ⟨ht, hown, ⟨scope', hscope'⟩, rfl, hcursor⟩

/-- Whole sessions are type sound. -/
theorem reachable_typeSafe {own : Value ν → Prop} {s : Session ν} (h : Reachable own s) :
    s.TypeSafe own := by
  obtain ⟨book, hinv⟩ := h.exists_inv
  refine ⟨⟨book, hinv.sound, hinv.own⟩, hinv.sound.bound, ?_, ?_, ?_⟩
  · intro name handle arguments hcalled
    exact (hinv.sound.called name handle arguments hcalled).2
  · intro scoping scoping' tree analysed hscoping htree hanalyse host book' t hhonest hown ht hext
      hcursor
    exact execute_analysed hscoping htree hanalyse hhonest hown ht hext hcursor
  · intro host watch source failure t hhonest hevaluate
    have hensures := evaluate_ensures hhonest hinv.sound hinv.own hinv.cursor watch source
    unfold Act.Ensures at hensures
    rw [hevaluate] at hensures
    exact hensures.2

def sevens : Host Unit where
  invoke := fun _ _ => return .datum (.integer 7)

theorem sevens_honest (own : Value Unit → Prop) : sevens.Honest own := by
  refine ⟨fun _ _ s => ⟨[], s.nextValue, Nat.le_refl _, rfl⟩, ?_⟩
  intro handle arguments s value t h
  simp [sevens] at h

theorem readsAsName_seven : ReadsAsName "seven" :=
  ⟨"", ⟨.name, "seven", 1, 1, "seven", ""⟩, by decide +kernel, rfl⟩

/-- A session in which a function was registered, called and its result bound. -/
def sevensBound : Session Unit :=
  let registered := ((register "seven" [] (some "int") ()).on (.initial .standard)).2
  ((evaluate sevens .nothing "var x = seven()").on registered).2

theorem reachable_typeSafe_sevens :
    ∃ own, Reachable own sevensBound ∧ sevensBound.bindings = [(⟨6⟩, ⟨1⟩), (⟨7⟩, ⟨2⟩)] ∧
      sevensBound.TypeSafe own := by
  have hregistered : Reachable (fun _ => False)
      ((register "seven" [] (some "int") ()).on (.initial .standard)).2 :=
    .register (.initial .standard) readsAsName_seven
      (Prod.eta ((register "seven" [] (some "int") ()).on _)).symm
  have hreachable : Reachable _ sevensBound :=
    .evaluate hregistered (sevens_honest _)
      (Prod.eta ((evaluate sevens .nothing "var x = seven()").on _)).symm
  exact ⟨_, hreachable, by decide +kernel, reachable_typeSafe hreachable⟩

end Scriptlet.Session
