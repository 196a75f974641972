import Scriptlet.Proofs.Sessions.Reachability
/-!
# The cursor of an evaluation

An evaluation does not remember where the cursor was.  It enters the top-level scope, and
in the end it goes up from where the cursor stands: to the global scope, unless native
functions have moved it.
-/

namespace Scriptlet

open Act (Preserves)

/-- The native functions leave the cursor where they find it. -/
def Host.IsSettled {ν : Type} (host : Host ν) : Prop :=
  ∀ handle arguments s,
    ((host.invoke handle arguments).on s).2.scoping.cursor = s.scoping.cursor

namespace Session

variable {ν : Type} {host : Host ν} {base : Forest} {s t : Session ν}

def standing (s : Session ν) (id : ScopeId) : Session ν :=
  { s with scoping := { s.scoping with cursor := id } }

/-! ## Statements -/

structure StandsOn (base : Forest) (id : ScopeId) (s : Session ν) : Prop where
  ordered : s.Ordered base
  cursor : s.scoping.cursor = id

theorem tracks_standsOn (forest : Forest) :
    Tracks forest (StandsOn forest : ScopeId → Session ν → Prop) where
  apart hs hscoping _ := by
    refine ⟨?_, ?_⟩
    · rw [Ordered, hscoping]
      exact hs.ordered
    · rw [hscoping]
      exact hs.cursor
  drained hs := ⟨.rescoped hs.ordered, hs.cursor⟩
  entering {outer inner scope s} hinner hparent hs := by
    obtain ⟨scope', hscope', -⟩ := hs.ordered.grown inner scope hinner
    have hordered := ordered_onScopes (Scoping.ordered_enter inner) s hs.ordered
    rw [on_entering hscope'] at hordered
    exact .of_on_ok (on_entering hscope') ⟨hordered, Forest.id_of_get? hscope'⟩
  leaving {outer inner scope s} hinner hparent hs := by
    obtain ⟨scope', hscope', hparent', -⟩ := hs.ordered.grown inner scope hinner
    rw [← hs.cursor] at hscope'
    have hon := on_leaving hscope' (hparent'.trans hparent)
    have hordered := ordered_onScopes Scoping.ordered_leave s hs.ordered
    rw [hon] at hordered
    exact .of_on_ok hon ⟨hordered, rfl⟩

private theorem standsOn_runStatement (hsettled : host.IsSettled)
    (hhost : ∀ base handle arguments, Preserves (Ordered base) (host.invoke handle arguments))
    {id : ScopeId} (watch : Watch) (tree : Tree) :
    Preserves (StandsOn base id) (runStatement host watch tree) := by
  intro s hs
  refine ⟨ordered_runStatement (hhost base) watch tree s hs.ordered, ?_⟩
  have hinvoke : ∀ forest id handle arguments,
      Preserves (StandsOn forest id) (host.invoke handle arguments) :=
    fun forest id handle arguments s hs =>
      ⟨hhost forest handle arguments s hs.ordered, (hsettled _ _ s).trans hs.cursor⟩
  have hordered := (Scoping.upholds_ordered base).analyse tree |>.ensures hs.ordered
  have hstays := Analysis.stays_analyse tree s.scoping ⟨hs.ordered.numbered, hs.ordered.cursor⟩
  have hcursor : (runStatement host watch tree).Ensures s (fun _ t => t.scoping.cursor = id)
      (fun _ t => t.scoping.cursor = id) := by
    refine (onScopes_ensures (hordered.and hstays)).bind ?_ ?_
    · rintro failure _ ⟨scoping, rfl, -, hstays⟩
      exact hstays.steady.cursor.trans hs.cursor
    rintro analysed _ ⟨scoping, rfl, ⟨hscoping, hstays, hnested⟩⟩
    have htracks := tracks_standsOn (ν := ν) scoping.forest
    rw [hs.cursor] at hnested
    have hrest : Preserves (StandsOn scoping.forest id)
        (observe watch tree analysed.node >>= fun _ => execute host analysed.node) :=
      (htracks.preserves_observe watch tree analysed.node).bind
        fun _ => htracks.preserves_execute (hinvoke scoping.forest) hnested
    have hbegin : StandsOn scoping.forest id (s.rescoped scoping) :=
      ⟨.rescoped hscoping.self, hstays.steady.cursor.trans hs.cursor⟩
    exact (hrest.ensures hbegin).mono (fun _ _ h => h.cursor) (fun _ _ h => h.cursor)
  exact hcursor.state

private theorem standsOn_opening (hsettled : host.IsSettled)
    (hhost : ∀ base handle arguments, Preserves (Ordered base) (host.invoke handle arguments))
    (hs : s.Ordered base) {repl : Scope}
    (hrepl : s.scoping.forest.get? Forest.replId = some repl) (watch : Watch) (count : Nat)
    (trees : List Tree) :
    ((opening host watch count trees).on s).2.StandsOn base Forest.replId := by
  have hid : repl.id = Forest.replId := Forest.id_of_get? hrepl
  have hbegun : (s.begun count repl).StandsOn base Forest.replId :=
    ⟨.rescoped (hs.moved rfl (hid ▸ hrepl)), hid⟩
  have hkept : Preserves (StandsOn base Forest.replId) (runStatements host watch .nothing trees) :=
    preserves_statements (fun tree _ => standsOn_runStatement hsettled hhost watch tree) .nothing
  rw [on_opening hrepl]
  exact hkept _ hbegun

/-! ## Evaluations -/

/-- Where the statements of an evaluation end with the cursor below a scope, the outcome is theirs
and the cursor goes to that scope. -/
theorem on_evaluate_below {watch : Watch} {source : String} {trees : List Tree} {repl scope : Scope}
    {parent : ScopeId} (hparse : parseProgram source s.settings.sourceName = .ok trees)
    (hrepl : s.scoping.forest.get? Forest.replId = some repl) {outcome : Except Failure (Value ν)}
    (hran : (opening host watch trees.length trees).on s = (outcome, t))
    (hscope : t.scoping.forest.get? t.scoping.cursor = some scope)
    (hparent : scope.parent = some parent) :
    ∃ u, (evaluate host watch source).on s = (outcome, u) ∧ u.scoping.cursor = parent := by
  rw [on_opening hrepl] at hran
  have hclosed := Act.on_closing hran (on_leaving hscope hparent)
  rw [on_evaluate hparse hrepl]
  cases outcome with
  | error failure =>
      rw [Act.on_bind_of_error hclosed]
      exact ⟨_, rfl, rfl⟩
  | ok value =>
      obtain ⟨u, hconclude, hscoping⟩ :=
        on_conclude_ok trees.length value (t.leaving scope parent)
      rw [Act.on_bind_of_ok hclosed, hconclude]
      exact ⟨u, rfl, by rw [hscoping]; rfl⟩

/-- Where they end with the cursor on a root, the evaluation fails and the cursor stays. -/
theorem on_evaluate_root {watch : Watch} {source : String} {trees : List Tree} {repl scope : Scope}
    (hparse : parseProgram source s.settings.sourceName = .ok trees)
    (hrepl : s.scoping.forest.get? Forest.replId = some repl) {outcome : Except Failure (Value ν)}
    (hran : (opening host watch trees.length trees).on s = (outcome, t))
    (hscope : t.scoping.forest.get? t.scoping.cursor = some scope)
    (hparent : scope.parent = none) :
    ∃ u, (evaluate host watch source).on s =
        (.error (.placeless (.scopeStack "cannot leave the global scope")), u) ∧
      u.scoping.cursor = t.scoping.cursor := by
  rw [on_opening hrepl] at hran
  have hleave := on_onScopes (Scoping.on_leave_root hscope hparent)
  have hclosed : (Act.closing (onScopes Scoping.leave)
      (runStatements host watch .nothing trees)).on (s.begun trees.length repl) =
      (.error (.placeless (.scopeStack "cannot leave the global scope")),
        t.rescoped t.scoping) := by
    unfold Act.closing
    rw [Act.on_bind_of_ok (by rw [Act.on_attempt, hran]), Act.on_bind_of_error hleave]
  rw [on_evaluate hparse hrepl, Act.on_bind_of_error hclosed]
  exact ⟨_, rfl, rfl⟩

/-- Where no native function moves the cursor, they end at the top level, and the cursor goes to the
global scope. -/
theorem on_evaluate_settled (hsettled : host.IsSettled)
    (hhost : ∀ base handle arguments, Preserves (Ordered base) (host.invoke handle arguments))
    (hs : s.Ordered .initial) {watch : Watch} {source : String} {trees : List Tree} {repl : Scope}
    (hparse : parseProgram source s.settings.sourceName = .ok trees)
    (hrepl : s.scoping.forest.get? Forest.replId = some repl) :
    ∃ u, (evaluate host watch source).on s =
        (((opening host watch trees.length trees).on s).1, u) ∧
      u.scoping.cursor = Forest.globalId := by
  have hstands := standsOn_opening hsettled hhost hs hrepl watch trees.length trees
  obtain ⟨scope, hscope, hparent⟩ := Scoping.Ordered.exists_repl hstands.ordered
  rw [← hstands.cursor] at hscope
  exact on_evaluate_below hparse hrepl
    (Prod.eta ((opening host watch trees.length trees).on s)).symm hscope hparent

/-- The place of the cursor does not matter to an evaluation whose source can be read. -/
theorem on_evaluate_standing {watch : Watch} {source : String} {trees : List Tree} {repl : Scope}
    (hparse : parseProgram source s.settings.sourceName = .ok trees)
    (hrepl : s.scoping.forest.get? Forest.replId = some repl) (id : ScopeId) :
    (evaluate host watch source).on (s.standing id) = (evaluate host watch source).on s := by
  have hparse' : parseProgram source (s.standing id).settings.sourceName = .ok trees := hparse
  have hrepl' : (s.standing id).scoping.forest.get? Forest.replId = some repl := hrepl
  rw [on_evaluate hparse hrepl, on_evaluate hparse' hrepl']
  rfl

/-- An evaluation puts the cursor above the scope in which its statements end, wherever the cursor
was before.  So it puts it back where it was only if the source cannot be read, or if it stood on
the global scope and no native function moves it. -/
theorem evaluate_ends_above {settings : Settings}
    (hreachable : (initial settings : Session ν).LeadsTo s)
    (hhost : ∀ handle arguments (s : Session ν), s.LeadsTo ((host.invoke handle arguments).on s).2)
    (watch : Watch) (source : String) :
    let done := (evaluate host watch source).on s
    (∀ trees, parseProgram source s.settings.sourceName = .ok trees →
      let ran := (opening host watch trees.length trees).on s
      (∀ id, (evaluate host watch source).on (s.standing id) = done) ∧
      (∃ scope, ran.2.scoping.forest.get? ran.2.scoping.cursor = some scope ∧
        match scope.parent with
        | some parent => done.1 = ran.1 ∧ done.2.scoping.cursor = parent
        | none => done.1 = .error (.placeless (.scopeStack "cannot leave the global scope")) ∧
            done.2.scoping.cursor = ran.2.scoping.cursor) ∧
      (host.IsSettled → ran.2.scoping.cursor = Forest.replId ∧ done.1 = ran.1)) ∧
    (host.IsSettled → (done.2.scoping.cursor = s.scoping.cursor ↔
      (∃ diagnostic, parseProgram source s.settings.sourceName = .error diagnostic) ∨
        s.scoping.cursor = Forest.globalId)) := by
  intro done
  have hs := hreachable.ordered (ordered_initial settings)
  obtain ⟨repl, hrepl, -⟩ := Scoping.Ordered.exists_repl hs
  have hinvoke : ∀ base handle arguments,
      Preserves (Ordered base) (host.invoke handle arguments) :=
    fun base handle arguments s => (hhost handle arguments s).ordered
  refine ⟨?_, ?_⟩
  · intro trees hparse ran
    have hran : ran.2.Ordered .initial :=
      ordered_opening (hinvoke .initial) watch trees.length trees s hs
    obtain ⟨scope, hscope⟩ := hran.cursor
    refine ⟨on_evaluate_standing hparse hrepl, ⟨scope, hscope, ?_⟩, ?_⟩
    · cases hparent : scope.parent with
      | some parent =>
          obtain ⟨u, hevaluate, hcursor⟩ :=
            on_evaluate_below hparse hrepl (Prod.eta ran).symm hscope hparent
          rw [show done = _ from hevaluate]
          exact ⟨rfl, hcursor⟩
      | none =>
          obtain ⟨u, hevaluate, hcursor⟩ :=
            on_evaluate_root hparse hrepl (Prod.eta ran).symm hscope hparent
          rw [show done = _ from hevaluate]
          exact ⟨rfl, hcursor⟩
    · intro hsettled
      obtain ⟨u, hevaluate, -⟩ := on_evaluate_settled hsettled hinvoke hs hparse hrepl
      rw [show done = _ from hevaluate]
      exact ⟨(standsOn_opening hsettled hinvoke hs hrepl watch trees.length trees).cursor, rfl⟩
  · intro hsettled
    cases hparse : parseProgram source s.settings.sourceName with
    | error diagnostic =>
        have hdone : done = (.error (.fault diagnostic), s) := on_evaluate_refused hparse
        rw [hdone]
        exact iff_of_true rfl (.inl ⟨diagnostic, rfl⟩)
    | ok trees =>
        obtain ⟨u, hevaluate, hcursor⟩ := on_evaluate_settled hsettled hinvoke hs hparse hrepl
        rw [show done = _ from hevaluate, hcursor]
        simp [eq_comm]

/-- An evaluation moves the cursor away from the top-level scope. -/
theorem evaluate_ends_above_repl :
    let s : Session Unit :=
      ((onScopes (Scoping.enter Forest.replId)).on (.initial .standard)).2
    s.scoping.cursor = Forest.replId ∧
      ((evaluate sevens .nothing "1").on s).2.scoping.cursor ≠ Forest.replId := by
  intro s
  have hparse : parseProgram "1" Settings.standard.sourceName =
      .ok [.literal ⟨.number, "1", 1, 1, "1", "<input>"⟩ .integer] := by
    decide +kernel
  have hcursor : s.scoping.cursor = Forest.replId := rfl
  have hreachable : (initial .standard : Session Unit).LeadsTo s := .enter Forest.replId
  have hiff := (evaluate_ends_above hreachable leadsTo_sevens .nothing "1").2 fun _ _ _ => rfl
  refine ⟨hcursor, fun hback => ?_⟩
  rcases hiff.1 (hback.trans hcursor.symm) with ⟨diagnostic, hrefused⟩ | hglobal
  · rw [show s.settings.sourceName = Settings.standard.sourceName from rfl, hparse] at hrefused
    cases hrefused
  · rw [hcursor] at hglobal
    exact absurd hglobal (by decide)

end Session

end Scriptlet
