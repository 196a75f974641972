import Scriptlet.Proofs.Sessions.Rebinding
import Scriptlet.Proofs.Sessions.TypeSoundness
/-!
# Values that several symbols share

Symbols are bound to values by identity, so that several of them may share a value.  Binding
one of them anew disturbs none of the others, wherever an evaluation succeeds or stops:
every stored value stays as it is, and a symbol that is not written stays bound to what it
was bound to.
-/

namespace Scriptlet

open Act (Preserves)

variable {ν : Type}

/-! ## Native functions -/

/-- Functions that do not work on the session that calls them write nothing. -/
theorem Host.Honest.accounts {own : Value ν → Prop} {host : Host ν} (h : host.Honest own) :
    host.Accounts own (fun _ _ _ => []) := by
  intro book s handle arguments hs hown harguments
  obtain ⟨texts, next, hnext, hstate⟩ := h.apart handle arguments s
  rcases hrun : (host.invoke handle arguments).on s with ⟨outcome, t⟩
  rw [hrun] at hstate
  obtain rfl : t = s.noted (texts.map Event.wrote) next := hstate
  unfold Session.Conveys
  rw [hrun]
  by_cases hknown : ∀ value, outcome = .ok (.value value) → book value
  · refine ⟨book, hs.updates_apart _ rfl rfl hnext rfl (by simp [Event.isCollection]) (by simp), ?_⟩
    rintro _ hreply value rfl
    exact hknown value hreply
  push Not at hknown
  obtain ⟨value, rfl, hunknown⟩ := hknown
  have hfresh : s.nextValue ≤ value.id.number ∧ value.id.number < next := by
    rcases h.genuine handle arguments s value _ hrun with hvalue | hvalue | hvalue | hvalue | hvalue
    · exact absurd (hvalue ▸ hs.nothing) hunknown
    · exact absurd (hown value hvalue) hunknown
    · exact absurd (harguments value hvalue) hunknown
    · rcases hvalue with hstored | ⟨name, handle, arguments, hcalled, hmem⟩
      · exact absurd (hs.stored value hstored) hunknown
      · exact absurd (hs.passed name handle arguments hcalled value hmem) hunknown
    · exact hvalue
  have hentered := hs.updates_entered value hfresh.1 hfresh.2
  have hwritten := hentered.keyed.updates_apart (t := s.noted (texts.map Event.wrote) next)
    (texts.map Event.wrote) rfl rfl (Nat.le_refl _) rfl (by simp [Event.isCollection]) (by simp)
  refine ⟨_, hentered.trans hwritten, ?_⟩
  rintro _ hreply _ rfl
  cases hreply
  exact .inr rfl

/-- Functions that evaluate a source in the session that calls them write what the evaluation
does. -/
theorem Host.Accounts.evaluating {own : Value ν → Prop}
    {account : ν → List (Value ν) → Session ν → List (SymbolId × Value ν)} {inner host : Host ν}
    (h : inner.Accounts own account) (watch : Session.Watch) (source : ν → String)
    (hinvoke : ∀ handle arguments, host.invoke handle arguments =
      Reply.value <$> Session.evaluate inner watch (source handle)) :
    host.Accounts own fun handle _ s =>
      Session.evaluationWrites inner account watch (source handle) s := by
  intro book s handle arguments hs hown _
  rw [hinvoke, map_eq_pure_bind]
  refine (Session.conveys_evaluate h hs hown watch (source handle)).bind_nil
    fun value t book' _ ht _ hvalue => ht.conveys_pure ?_
  rintro _ ⟨⟩
  exact hvalue

namespace Session

variable {host : Host ν} {own : Value ν → Prop}
  {account : ν → List (Value ν) → Session ν → List (SymbolId × Value ν)} {s t : Session ν}

/-! ## Sessions -/

/-- An identity stands for one value only among those of the session and those that the embedding
program holds. -/
def Distinct (own : Value ν → Prop) (s : Session ν) : Prop :=
  ∃ book, s.Keyed book ∧ ∀ v, own v → book v

/-- The states of a session that an embedding program can reach, whatever it does to the scopes,
with the values that it holds itself. -/
inductive Arises : (Value ν → Prop) → Session ν → Prop where
  | initial (settings : Settings) : Arises (fun _ => False) (.initial settings)
  /-- Work on the scopes and the bindings, and the removal of values. -/
  | apart {own : Value ν → Prop} {s t : Session ν} : Arises own s →
      (∀ v ∈ t.values.values, v ∈ s.values.values) → s.nextValue ≤ t.nextValue →
      (∀ name handle arguments, Event.called name handle arguments ∈ t.journal →
        Event.called name handle arguments ∈ s.journal) → Arises own t
  | make {own : Value ν → Prop} {s t : Session ν} {payload : Payload ν} {value : Value ν} :
      Arises own s → (fresh payload).on s = (.ok value, t) → Arises (entered own value) t
  | keep {own : Value ν → Prop} {s : Session ν} {value : Value ν} :
      Arises own s → s.Knows value → Arises (entered own value) s
  | bind {own : Value ν → Prop} {s t : Session ν} {symbol : SymbolId} {value : Value ν}
      {outcome : Except Failure Unit} : Arises own s → own value →
      (bind symbol value).on s = (outcome, t) → Arises own t
  | register {own : Value ν → Prop} {s t : Session ν} {name : String} {arguments : List String}
      {result : Option String} {handle : ν} {outcome : Except Failure Symbol} : Arises own s →
      (register name arguments result handle).on s = (outcome, t) → Arises own t
  | execute {own : Value ν → Prop} {s t : Session ν} {host : Host ν}
      {account : ν → List (Value ν) → Session ν → List (SymbolId × Value ν)} {node : Annotated}
      {outcome : Except Failure (Value ν)} : Arises own s → host.Accounts own account →
      (execute host node).on s = (outcome, t) →
      Arises (fun value => own value ∨ outcome = .ok value) t
  | evaluate {own : Value ν → Prop} {s t : Session ν} {host : Host ν}
      {account : ν → List (Value ν) → Session ν → List (SymbolId × Value ν)} {watch : Watch}
      {source : String} {outcome : Except Failure (Value ν)} : Arises own s →
      host.Accounts own account → (evaluate host watch source).on s = (outcome, t) →
      Arises (fun value => own value ∨ outcome = .ok value) t

/-- Sessions whose embedding program only registers, evaluates and collects are among them. -/
theorem Reachable.arises (h : Reachable own s) : Arises own s := by
  induction h with
  | initial settings => exact .initial settings
  | make _ hfresh ih => exact ih.make hfresh
  | keep _ hknows ih => exact ih.keep hknows
  | register _ _ hregister ih => exact ih.register hregister
  | evaluate _ hhonest hevaluate ih => exact ih.evaluate hhonest.accounts hevaluate
  | collect _ hcollect ih =>
      rw [on_collect, Prod.mk.injEq] at hcollect
      obtain ⟨-, rfl⟩ := hcollect
      refine ih.apart (fun v hv => ValueTable.mem_collect hv) (Nat.le_refl _) ?_
      intro name handle arguments hmem
      rcases List.mem_cons.1 hmem with hmem | hmem
      · cases hmem
      · exact hmem

private theorem distinct_initial (settings : Settings) :
    (Session.initial settings : Session ν).Distinct (fun _ => False) := by
  refine ⟨fun v => v = .nothing, ⟨?_, ?_, rfl, ?_, ?_⟩, fun _ h => h.elim⟩
  · rintro _ _ rfl rfl _
    rfl
  · rintro _ rfl
    exact Nat.zero_lt_one
  · simp [Session.initial, drain, ValueTable.empty]
  · intro name handle arguments hmem
    simp [Session.initial, drain] at hmem

private theorem distinct_register (name : String) (arguments : List String) (result : Option String)
    (handle : ν) : Preserves (Distinct own) (register name arguments result handle) := by
  have hscopes : ∀ {α : Type} (act : Act Scoping α), Preserves (Distinct own) (onScopes act) :=
    fun act s ⟨book, hs, hown⟩ => ⟨book, (hs.updates_rescoped _).keyed, hown⟩
  have hkind : Preserves (Distinct (ν := ν) own) (resultKind name result) :=
    .of_same fun s => resultKind_ensures name result
  have henlist : ∀ kind type, Preserves (Distinct own) (enlist name handle kind type) := by
    intro kind type
    refine (hscopes _).bind fun symbol s ⟨book, hs, hown⟩ => ?_
    have hmade := hs.updates_fresh (.native name handle kind)
    have hbound := hmade.keyed.updates_bound symbol.id (.inr rfl)
    have hrecorded := hbound.keyed.updates_event (.registered name type.name) rfl (by simp)
    exact ⟨_, hrecorded.keyed, fun v hv => .inl (hown v hv)⟩
  rw [register_eq]
  refine (hscopes _).bind fun argumentTypes => hkind.bind fun kind => ?_
  exact (hscopes _).bind fun resultType => (hscopes _).bind fun type => henlist kind type

theorem Conveys.distinct {book : Value ν → Prop} {writes : List (SymbolId × Value ν)}
    {act : Act (Session ν) (Value ν)} {outcome : Except Failure (Value ν)}
    (h : Conveys writes book act s (fun book value => book value)) (hown : ∀ v, own v → book v)
    (hrun : act.on s = (outcome, t)) :
    t.Distinct (fun value => own value ∨ outcome = .ok value) := by
  obtain ⟨book', hupdates, hvalue⟩ := h
  rw [hrun] at hupdates hvalue
  refine ⟨book', hupdates.keyed, ?_⟩
  rintro v (hv | hv)
  · exact hupdates.book v (hown v hv)
  · exact hvalue v hv

theorem Arises.distinct (h : Arises own s) : s.Distinct own := by
  induction h with
  | initial settings => exact distinct_initial settings
  | apart _ hvalues hnext hcalled ih =>
      obtain ⟨book, hs, hown⟩ := ih
      refine ⟨book, ⟨hs.distinct, ?_, hs.nothing, ?_, ?_⟩, hown⟩
      · exact fun v hv => Nat.lt_of_lt_of_le (hs.minted v hv) hnext
      · exact fun v hv => hs.stored v (hvalues v hv)
      · exact fun name handle arguments hmem =>
          hs.passed name handle arguments (hcalled name handle arguments hmem)
  | @make own s t payload value _ hfresh ih =>
      obtain ⟨book, hs, hown⟩ := ih
      rw [on_fresh, Prod.mk.injEq, Except.ok.injEq] at hfresh
      obtain ⟨rfl, rfl⟩ := hfresh
      refine ⟨_, (hs.updates_fresh payload).keyed, ?_⟩
      rintro v (hv | hv)
      · exact .inl (hown v hv)
      · exact .inr hv
  | keep _ hknows ih =>
      obtain ⟨book, hs, hown⟩ := ih
      refine ⟨book, hs, ?_⟩
      rintro v (hv | rfl)
      · exact hown v hv
      · rcases hknows with hstored | ⟨name, handle, arguments, hcalled, hmem⟩
        · exact hs.stored v hstored
        · exact hs.passed name handle arguments hcalled v hmem
  | bind _ hvalue hbind ih =>
      obtain ⟨book, hs, hown⟩ := ih
      cases hbind
      exact ⟨book, (hs.updates_bound _ (hown _ hvalue)).keyed, hown⟩
  | @register own s t name arguments result handle outcome _ hregister ih =>
      have hkept := distinct_register name arguments result handle s ih
      rwa [hregister] at hkept
  | execute _ hhost hexecute ih =>
      obtain ⟨book, hs, hown⟩ := ih
      exact (conveys_execute hhost _ hs hown).distinct hown hexecute
  | evaluate _ hhost hevaluate ih =>
      obtain ⟨book, hs, hown⟩ := ih
      exact (conveys_evaluate hhost hs hown _ _).distinct hown hevaluate

/-! ## Sources one after another -/

/-- The session after the evaluation of sources in their order, which goes on behind a failure. -/
def evaluateEach (host : Host ν) (watch : Watch) : List String → Session ν → Session ν
  | [], s => s
  | source :: sources, s => evaluateEach host watch sources ((evaluate host watch source).on s).2

/-- What the evaluations of sources write, the latest first. -/
def sourcesWrites (host : Host ν)
    (account : ν → List (Value ν) → Session ν → List (SymbolId × Value ν)) (watch : Watch) :
    List String → Session ν → List (SymbolId × Value ν)
  | [], _ => []
  | source :: sources, s =>
    sourcesWrites host account watch sources ((evaluate host watch source).on s).2 ++
      evaluationWrites host account watch source s

private theorem updates_evaluateEach (hhost : host.Accounts own account) (watch : Watch)
    (sources : List String) {book : Value ν → Prop} (hs : s.Keyed book)
    (hown : ∀ v, own v → book v) :
    ∃ book', Updates (sourcesWrites host account watch sources s) book book' s
      (evaluateEach host watch sources s) := by
  induction sources generalizing s book with
  | nil => exact ⟨book, hs.updates_refl⟩
  | cons source sources ih =>
      obtain ⟨book', hupdates, -⟩ := conveys_evaluate hhost hs hown watch source
      obtain ⟨book'', hrest⟩ := ih hupdates.keyed fun v hv => hupdates.book v (hown v hv)
      exact ⟨book'', hupdates.trans hrest⟩

/-! ## Bindings -/

namespace Updates

variable {writes : List (SymbolId × Value ν)} {book book' : Value ν → Prop}

private theorem boundTo?_of_none (h : Updates writes book book' s t) {symbol : SymbolId}
    (hnone : writes.lookup symbol = none) : t.boundTo? symbol = s.boundTo? symbol := by
  rw [h.bound, hnone]
  rfl

private theorem boundTo?_of_some (h : Updates writes book book' s t) {symbol : SymbolId}
    {value : Value ν}
    (hvalue : writes.lookup symbol = some value) : t.boundTo? symbol = some value.id := by
  rw [h.bound, hvalue]
  rfl

private theorem valueOf?_of_none (h : Updates writes book book' s t)
    (hsame : t.collections = s.collections) {symbol : SymbolId} {value : Value ν}
    (hnone : writes.lookup symbol = none)
    (hvalue : s.valueOf? symbol = some value) : t.valueOf? symbol = some value := by
  obtain ⟨id, hbound, hget⟩ := Option.bind_eq_some_iff.1 hvalue
  rw [valueOf?, h.boundTo?_of_none hnone, hbound]
  exact h.kept hsame id value hget

end Updates

private theorem id_of_lookupId {forest : Forest} {cursor : ScopeId} {id : SymbolId}
    {symbol : Symbol}
    (h : forest.lookupId cursor id = .ok (some symbol)) : symbol.id = id := by
  unfold Forest.lookupId at h
  cases hchain : forest.chain cursor with
  | error failure =>
      rw [hchain] at h
      cases h
  | ok scopes =>
      rw [hchain] at h
      obtain ⟨scope, -, hscope⟩ := List.exists_of_findSome?_eq_some (Except.ok.inj h)
      simpa using List.find?_some hscope

private theorem valueOf?_of_readVariable {id : SymbolId} {token : Token} {value : Value ν}
    (hrun : (readVariable id token).on s = (.ok value, t)) :
    s.valueOf? id = some value ∧ t = s.rescoped s.scoping := by
  have hresolve := on_onScopes (Scoping.on_resolveId id s.scoping)
  have hread := hrun
  unfold readVariable at hread
  obtain ⟨found, u, hfound, hrest⟩ := Act.exists_of_on_bind hread
  rw [hresolve, Prod.mk.injEq] at hfound
  cases found with
  | none => cases hrest
  | some symbol =>
      rw [on_readVariable_found hfound.1, id_of_lookupId hfound.1, Prod.mk.injEq] at hrun
      obtain ⟨hvalue, rfl⟩ := hrun
      refine ⟨?_, rfl⟩
      cases hstored : s.valueOf? id with
      | none =>
          rw [hstored] at hvalue
          cases hvalue
      | some stored =>
          rw [hstored] at hvalue
          exact congrArg some (Except.ok.inj hvalue)

/-- After a declaration by another variable the two share a value. -/
theorem shares_of_declare {first second : SymbolId} {token token' : Token} {last : Value ν}
    {book : Value ν → Prop} (hs : s.Keyed book)
    (hrun : (execute host (.declare second (.reference first token) token')).on s =
      (.ok last, t)) :
    ∃ value, s.valueOf? first = some value ∧ t.Keyed book ∧ t.valueOf? first = some value ∧
      t.valueOf? second = some value := by
  rw [execute, execute] at hrun
  obtain ⟨value, u, hread, hrest⟩ := Act.exists_of_on_bind hrun
  obtain ⟨hvalue, rfl⟩ := valueOf?_of_readVariable hread
  obtain ⟨id, -, hget⟩ := Option.bind_eq_some_iff.1 hvalue
  have hbook : book value := hs.stored value (ValueTable.mem_of_get? hget)
  have hread := hs.updates_rescoped s.scoping
  have hbound := hread.keyed.updates_bound second hbook
  obtain rfl : ((s.rescoped s.scoping).bound second value) = t := by
    rw [Act.on_bind_of_ok (on_bind second value _)] at hrest
    exact congrArg Prod.snd hrest
  refine ⟨value, hvalue, hbound.keyed, ?_, valueOf?_bound_self _ second value⟩
  by_cases hsame : first = second
  · rw [hsame]
    exact valueOf?_bound_self _ second value
  · have hnone : ([(second, value)] : List (SymbolId × Value ν)).lookup first = none := by
      simp [List.lookup_cons, beq_eq_false_iff_ne.2 hsame]
    exact hbound.valueOf?_of_none rfl hnone hvalue

/-- An evaluation without a collection of garbage, whether it succeeds or fails, leaves every
stored value as it is.  A symbol that it does not write stays bound to what it was bound to, and one
that it writes is bound to the value that was written last.  So symbols that share a value after a
declaration keep it, each until it is written itself. -/
theorem evaluate_rebinds (h : Arises own s) (hhost : host.Accounts own account) (watch : Watch) :
    (∀ source,
      let done := ((evaluate host watch source).on s).2
      let written := evaluationWrites host account watch source s
      done.collections = s.collections →
        (∀ id value, s.values.get? id = some value → done.values.get? id = some value) ∧
        (∀ symbol, written.lookup symbol = none → done.boundTo? symbol = s.boundTo? symbol) ∧
        ∀ symbol value, written.lookup symbol = some value →
          done.boundTo? symbol = some value.id ∧ done.values.get? value.id = some value) ∧
    ∀ first second token token' last t,
      (execute host (.declare second (.reference first token) token')).on s = (.ok last, t) →
      ∃ value, s.valueOf? first = some value ∧
        ∀ sources, (evaluateEach host watch sources t).collections = t.collections →
          ∀ symbol, symbol = first ∨ symbol = second →
            (sourcesWrites host account watch sources t).lookup symbol = none →
            (evaluateEach host watch sources t).valueOf? symbol = some value := by
  obtain ⟨book, hs, hown⟩ := h.distinct
  constructor
  · intro source done written hsame
    obtain ⟨book', hupdates, -⟩ := conveys_evaluate hhost hs hown watch source
    refine ⟨hupdates.kept hsame, fun symbol => hupdates.boundTo?_of_none, ?_⟩
    exact fun symbol value hvalue =>
      ⟨hupdates.boundTo?_of_some hvalue, hupdates.stored hsame symbol value hvalue⟩
  · intro first second token token' last t hrun
    obtain ⟨value, hvalue, ht, hfirst, hsecond⟩ := shares_of_declare hs hrun
    refine ⟨value, hvalue, fun sources hsame symbol hsymbol hnone => ?_⟩
    obtain ⟨book', hupdates⟩ := updates_evaluateEach hhost watch sources ht hown
    refine hupdates.valueOf?_of_none hsame hnone ?_
    rcases hsymbol with rfl | rfl
    · exact hfirst
    · exact hsecond

/-- A session in which `a` is one, and the cursor stands where sources are read. -/
def oneBound : Session Unit :=
  ((onScopes (Scoping.enter Forest.replId)).on
    ((evaluate sevens .nothing "var a = 1").on (.initial .standard)).2).2

private theorem arises_oneBound : ∃ own, Arises own oneBound := by
  have hevaluated : Arises _ ((evaluate sevens .nothing "var a = 1").on (.initial .standard)).2 :=
    .evaluate (.initial .standard) (sevens_honest _).accounts
      (Prod.eta ((evaluate sevens .nothing "var a = 1").on _)).symm
  refine ⟨_, hevaluated.apart (fun _ h => h) (Nat.le_refl _) fun name handle arguments hmem => ?_⟩
  rcases List.mem_append.1 hmem with hmem | hmem
  · simp at hmem
  · exact hmem

def declaringOne : Tree :=
  .declare ⟨.name, "a", 1, 5, "a", "<input>"⟩
    (.literal ⟨.number, "1", 1, 9, "1", "<input>"⟩ .integer)

def assigningTwo : Tree :=
  .assign (.reference ⟨.name, "a", 1, 1, "a", "<input>"⟩)
    (.literal ⟨.number, "2", 1, 5, "2", "<input>"⟩ .integer) ⟨.assign, "=", 1, 3, "=", "<input>"⟩

private theorem parse_declaringOne :
    parseProgram "var a = 1" Settings.standard.sourceName = .ok [declaringOne] := by
  decide +kernel

theorem oneBound_eq :
    oneBound =
      ((onScopes (Scoping.enter Forest.replId)).on
        ((Act.closing (onScopes Scoping.leave)
            (runStatements sevens .nothing .nothing [declaringOne]) >>= conclude 1).on
          ((initial .standard).begun 1 bareTop)).2).2 := by
  have hrepl : (initial .standard : Session Unit).scoping.forest.get? Forest.replId = some bareTop :=
    rfl
  rw [oneBound, on_evaluate parse_declaringOne hrepl]
  rfl

private theorem evaluationWrites_oneBound :
    evaluationWrites sevens (fun _ _ _ => []) .nothing "a = 2\nb" oneBound =
      [(⟨5⟩, ⟨⟨2⟩, .primitive (.integer 2)⟩)] := by
  have hparse : parseProgram "a = 2\nb" oneBound.settings.sourceName =
      .ok [assigningTwo, .reference ⟨.name, "b", 2, 1, "b", "<input>"⟩] := by
    rw [oneBound_eq]
    change parseProgram "a = 2\nb" Settings.standard.sourceName = _
    decide +kernel
  rw [evaluationWrites, hparse, oneBound_eq]
  rfl

private theorem collections_oneBound :
    ((evaluate sevens .nothing "a = 2\nb").on oneBound).2.collections = oneBound.collections := by
  decide +kernel

def bothBound : Session Unit :=
  ((execute sevens (.declare ⟨6⟩ (.reference ⟨5⟩ ⟨.name, "a", 1, 9, "var b = a", ""⟩)
    ⟨.name, "b", 1, 5, "var b = a", ""⟩)).on oneBound).2

private theorem sourcesWrites_bothBound :
    sourcesWrites sevens (fun _ _ _ => []) .nothing ["a = 2"] bothBound =
      [(⟨5⟩, ⟨⟨2⟩, .primitive (.integer 2)⟩)] := by
  have hparse : parseProgram "a = 2" bothBound.settings.sourceName = .ok [assigningTwo] := by
    rw [bothBound, oneBound_eq]
    change parseProgram "a = 2" Settings.standard.sourceName = _
    decide +kernel
  rw [sourcesWrites, sourcesWrites, evaluationWrites, hparse, bothBound, oneBound_eq]
  rfl

private theorem collections_bothBound :
    (evaluateEach sevens .nothing ["a = 2"] bothBound).collections = bothBound.collections := by
  decide +kernel

theorem evaluate_rebinds_oneBound :
    (∃ own, Arises own oneBound ∧ sevens.Accounts own (fun _ _ _ => [])) ∧
      ((evaluate sevens .nothing "a = 2\nb").on oneBound).2.boundTo? ⟨5⟩ = some ⟨2⟩ ∧
      (evaluateEach sevens .nothing ["a = 2"] bothBound).valueOf? ⟨6⟩ =
        some ⟨⟨1⟩, .primitive (.integer 1)⟩ := by
  obtain ⟨own, harises⟩ := arises_oneBound
  have hhost : sevens.Accounts own (fun _ _ _ => []) := (sevens_honest own).accounts
  obtain ⟨hbinds, hshares⟩ := evaluate_rebinds harises hhost .nothing
  refine ⟨⟨own, harises, hhost⟩, ?_, ?_⟩
  · exact ((hbinds "a = 2\nb" collections_oneBound).2.2 ⟨5⟩ _
      (by rw [evaluationWrites_oneBound]; rfl)).1
  · obtain ⟨value, hvalue, hkept⟩ := hshares ⟨5⟩ ⟨6⟩ ⟨.name, "a", 1, 9, "var b = a", ""⟩
      ⟨.name, "b", 1, 5, "var b = a", ""⟩ .nothing bothBound
      (by rw [bothBound, oneBound_eq]; exact Prod.ext rfl rfl)
    have hone : oneBound.valueOf? ⟨5⟩ = some ⟨⟨1⟩, .primitive (.integer 1)⟩ := by
      rw [oneBound_eq]
      rfl
    obtain rfl : ⟨⟨1⟩, .primitive (.integer 1)⟩ = value := Option.some.inj (hone.symm.trans hvalue)
    exact hkept ["a = 2"] collections_bothBound ⟨6⟩ (.inr rfl)
      (by rw [sourcesWrites_bothBound]; rfl)

end Session

end Scriptlet
