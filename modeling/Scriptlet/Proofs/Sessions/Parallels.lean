import Scriptlet.Proofs.Lexical.Simulation
import Scriptlet.Proofs.Sessions.Labels
import Scriptlet.Proofs.Sessions.Registration
import Scriptlet.Proofs.Typing.Names
/-!
# Parallel sessions

Two sessions are parallel if they differ in nothing but the identities of symbols, and in one type
that only the second has.  Executing a tree, evaluating a source and registering a function
do the same to both, as long as nobody asks for the excepted type by its name.  A source cannot ask
for it: no name in it reads like that of a function type.
-/

namespace Scriptlet

variable {ν : Type} {hidden : Option String} {pairs pairs' : Pairing}

/-! ## Names in a source -/

namespace Tree

/-- A name that does not look like a function type. -/
def PlainName (name : String) : Prop :=
  name.toList.head? ≠ some '<'

instance (name : String) : Decidable (PlainName name) :=
  inferInstanceAs (Decidable (name.toList.head? ≠ some '<'))

mutual

theorem NamesOnly.mono {p q : String → Prop} (hpq : ∀ name, p name → q name) : (tree : Tree) →
    tree.NamesOnly p → tree.NamesOnly q
  | .block trees _, h => namesOnlyAll_mono hpq trees h
  | .literal .., _ | .foreign _, _ => trivial
  | .reference _, h => hpq _ h
  | .assign left right _, h => ⟨NamesOnly.mono hpq left h.1, NamesOnly.mono hpq right h.2⟩
  | .declare _ tree, h => ⟨hpq _ h.1, NamesOnly.mono hpq tree h.2⟩
  | .call callee trees _, h => ⟨NamesOnly.mono hpq callee h.1, namesOnlyAll_mono hpq trees h.2⟩
  | .conditional condition body _, h =>
      ⟨NamesOnly.mono hpq condition h.1, NamesOnly.mono hpq body h.2⟩
  | .debugPrint operand _, h => NamesOnly.mono hpq operand h

theorem namesOnlyAll_mono {p q : String → Prop} (hpq : ∀ name, p name → q name) :
    (trees : List Tree) → NamesOnlyAll p trees → NamesOnlyAll q trees
  | [], _ => trivial
  | tree :: trees, h => ⟨NamesOnly.mono hpq tree h.1, namesOnlyAll_mono hpq trees h.2⟩

end

private theorem namesOnlyAll_of_forall {p : String → Prop} {trees : List Tree}
    (h : ∀ tree ∈ trees, tree.NamesOnly p) : NamesOnlyAll p trees := by
  induction trees with
  | nil => trivial
  | cons tree trees ih =>
      rw [List.forall_mem_cons] at h
      exact ⟨h.1, ih h.2⟩

theorem TermOver.namesOnly {tree : Tree} (h : tree.TermOver Token.IsPlain) :
    tree.NamesOnly PlainName := by
  induction h with
  | factor hplain hfactor =>
      cases hfactor with
      | number | truth | text => trivial
      | name hkind => exact hplain hkind
  | assign _ _ _ _ ihTarget ihValue => exact ⟨ihTarget, ihValue⟩
  | call _ _ _ _ ihCallee ihArguments => exact ⟨ihCallee, namesOnlyAll_of_forall ihArguments⟩

theorem StatementOver.namesOnly {tree : Tree} (h : tree.StatementOver Token.IsPlain) :
    tree.NamesOnly PlainName := by
  induction h with
  | term h => exact h.namesOnly
  | declare hplain hkind h => exact ⟨hplain hkind, h.namesOnly⟩
  | block _ _ _ ih => exact namesOnlyAll_of_forall ih
  | conditional _ _ hcondition _ ih => exact ⟨hcondition.namesOnly, ih⟩
  | debugPrint _ _ h => exact h.namesOnly

end Tree

theorem parseProgram_namesOnly {source file : String} {trees : List Tree}
    (h : parseProgram source file = .ok trees) :
    ∀ tree ∈ trees, tree.NamesOnly Tree.PlainName :=
  fun tree htree => ((TokenStream.program_reads h).statementOver
    (Scanner.run_isPlain file _) tree htree).namesOnly

def Structural (hidden : Option String) : Prop :=
  ∀ name, hidden = some name → ¬ Tree.PlainName name

theorem structural_none : Structural none := by
  rintro _ ⟨⟩

theorem structural_functionTypeName (arguments : List String) (result : Option String) :
    Structural (some (functionTypeName arguments result)) := by
  rintro _ ⟨⟩ hplain
  rw [Tree.PlainName, TypeName.toList_functionTypeName] at hplain
  exact hplain rfl

theorem Structural.ne_plain (h : Structural hidden) {name : String} (hname : Tree.PlainName name) :
    hidden ≠ some name :=
  fun heq => h name heq hname

theorem Structural.ne_label (h : Structural hidden) (kind : Primitive.Kind) :
    hidden ≠ some kind.label := by
  refine h.ne_plain ?_
  cases kind <;> simp [Tree.PlainName, Primitive.Kind.label]

/-! ## Sessions -/

namespace Session

/-- The sessions differ in nothing but identities of symbols and the excepted type. -/
structure Parallels (hidden : Option String) (pairs : Pairing) (s t : Session ν) : Prop where
  scoping : s.scoping.Mirrors hidden pairs t.scoping
  settings : t.settings = s.settings
  values : t.values = s.values
  evaluations : t.evaluations = s.evaluations
  next : t.nextValue = s.nextValue
  observed : t.observed = s.observed
  bindings : List.Forall₂ (fun binding binding' => pairs binding.1 binding'.1 ∧
    binding'.2 = binding.2) s.bindings t.bindings
  labels : s.labels.Mirrors pairs t.labels

abbrev RunsAlong {α β : Type} (hidden : Option String) (values : Pairing → α → β → Prop)
    (pairs : Pairing) (act : Act (Session ν) α) (act' : Act (Session ν) β) : Prop :=
  Act.Tracks (Parallels hidden) values pairs act act'

variable {s t : Session ν}

namespace Parallels

theorem matched (h : s.Parallels hidden pairs t) :
    pairs.Matches s.scoping.forest.nextSymbol t.scoping.forest.nextSymbol :=
  h.scoping.forest.pairing

theorem rescoped (h : s.Parallels hidden pairs t) (hle : pairs ≤ pairs')
    {scoping scoping' : Scoping} (hscoping : scoping.Mirrors hidden pairs' scoping') :
    (s.rescoped scoping).Parallels hidden pairs' (t.rescoped scoping') where
  scoping := hscoping.unlogged [] []
  settings := h.settings
  values := h.values
  evaluations := h.evaluations
  next := h.next
  observed := by
    rw [(resembles_rescoped s scoping).observed, (resembles_rescoped t scoping').observed,
      h.observed]
  bindings := h.bindings.imp fun _ _ hbinding => ⟨hle _ _ hbinding.1, hbinding.2⟩
  labels := h.labels.mono hle

theorem journaled (h : s.Parallels hidden pairs t) {event event' : Event ν}
    (hevent : [event'].filter isObservable = [event].filter isObservable) :
    ({ s with journal := event :: s.journal } : Session ν).Parallels hidden pairs
      { t with journal := event' :: t.journal } where
  scoping := h.scoping
  settings := h.settings
  values := h.values
  evaluations := h.evaluations
  next := h.next
  observed := by
    have hobserved := h.observed
    unfold Session.observed at hobserved ⊢
    rw [← List.singleton_append, List.filter_append, hevent, hobserved,
      ← List.filter_append, List.singleton_append]
  bindings := h.bindings
  labels := h.labels

theorem boundTo? (h : s.Parallels hidden pairs t) {id id' : SymbolId} (hpair : pairs id id') :
    t.boundTo? id' = s.boundTo? id := by
  have hbindings := h.bindings
  unfold Session.boundTo?
  generalize s.bindings = bindings at hbindings ⊢
  generalize t.bindings = bindings' at hbindings ⊢
  induction hbindings with
  | nil => rfl
  | @cons binding binding' _ _ hfirst _ ih =>
      obtain ⟨other, value⟩ := binding
      obtain ⟨other', value'⟩ := binding'
      obtain ⟨hother, rfl⟩ := hfirst
      have hiff := h.matched.eq_iff hpair hother
      rw [List.lookup_cons, List.lookup_cons, ih]
      by_cases heq : id = other
      · rw [beq_iff_eq.2 heq, beq_iff_eq.2 (hiff.2 heq)]
      · rw [beq_eq_false_iff_ne.2 heq, beq_eq_false_iff_ne.2 fun heq' => heq (hiff.1 heq')]

/-- A symbol that is not paired is bound to no value. -/
theorem boundTo?_eq_none (h : s.Parallels hidden pairs t) {id' : SymbolId}
    (hunpaired : ∀ id, ¬ pairs id id') : t.boundTo? id' = none := by
  cases hbound : t.boundTo? id' with
  | none => rfl
  | some value =>
      obtain ⟨i, hi, hget⟩ := List.getElem_of_mem (mem_of_lookup hbound)
      have hpair := (h.bindings.get (h.bindings.length_eq ▸ hi) hi).1
      rw [List.get_eq_getElem, List.get_eq_getElem, hget] at hpair
      exact absurd hpair (hunpaired _)

end Parallels

/-! ## Steps of a session -/

theorem runsAlong_onScopes {α β : Type} {values : Pairing → α → β → Prop} {act : Act Scoping α}
    {act' : Act Scoping β} (h : Scoping.Tracks hidden values pairs act act') :
    RunsAlong (ν := ν) hidden values pairs (onScopes act) (onScopes act') := by
  intro u hu s t hparallel
  obtain ⟨v, hv, houtcome, hleft⟩ := h u hu s.scoping t.scoping hparallel.scoping
  unfold Act.TracksOn
  rw [on_onScopes (Prod.eta (act.on s.scoping)).symm,
    on_onScopes (Prod.eta (act'.on t.scoping)).symm]
  exact ⟨v, hv, houtcome, hparallel.rescoped hv hleft⟩

theorem runsAlong_record {event event' : Event ν}
    (hevent : [event'].filter isObservable = [event].filter isObservable) :
    RunsAlong hidden (fun _ _ _ => True) pairs (record event) (record event') :=
  .modify fun _ _ _ h => h.journaled hevent

theorem runsAlong_write (text : String) :
    RunsAlong (ν := ν) hidden (fun _ _ _ => True) pairs (write text) (write text) :=
  runsAlong_record rfl

theorem runsAlong_fresh (payload : Payload ν) :
    RunsAlong hidden (fun _ => Eq) pairs (fresh payload) (fresh payload) := by
  intro u _ s t h
  unfold Act.TracksOn
  rw [on_fresh, on_fresh, h.next]
  exact ⟨u, le_rfl, .ok rfl, ⟨h.scoping, h.settings, h.values, h.evaluations, rfl, h.observed,
    h.bindings, h.labels⟩⟩

theorem runsAlong_receive (datum : Datum) :
    RunsAlong (ν := ν) hidden (fun _ => Eq) pairs (receive datum) (receive datum) := by
  have hfresh : RunsAlong (ν := ν) hidden (fun _ => Eq) pairs
      (Act.ofExcept (Payload.ofDatum datum) >>= fresh)
      (Act.ofExcept (Payload.ofDatum datum) >>= fresh) :=
    (Act.Tracks.same _).bind fun _ _ payload _ h => h ▸ runsAlong_fresh payload
  cases datum with
  | nothing => exact .pure fun _ _ => rfl
  | _ => exact hfresh

theorem runsAlong_store (value : Value ν) :
    RunsAlong hidden (fun _ _ _ => True) pairs (store value) (store value) :=
  .modify fun _ _ _ h => ⟨h.scoping, h.settings, congrArg (ValueTable.insert · value) h.values,
    h.evaluations, h.next, h.observed, h.bindings, h.labels⟩

private theorem parallels_rebind {next next' : Nat} (hmatches : pairs.Matches next next')
    {bindings bindings' : List (SymbolId × ValueId)}
    (h : List.Forall₂ (fun binding binding' => pairs binding.1 binding'.1 ∧
      binding'.2 = binding.2) bindings bindings') {id id' : SymbolId} (hpair : pairs id id')
    (value : ValueId) :
    List.Forall₂ (fun binding binding' => pairs binding.1 binding'.1 ∧ binding'.2 = binding.2)
      (rebind bindings id value) (rebind bindings' id' value) := by
  induction h with
  | nil => exact .cons ⟨hpair, rfl⟩ .nil
  | @cons binding binding' _ _ hfirst hrest ih =>
      obtain ⟨other, old⟩ := binding
      obtain ⟨other', old'⟩ := binding'
      obtain ⟨hother, rfl⟩ := hfirst
      have hiff := hmatches.eq_iff hother hpair
      rw [rebind, rebind]
      by_cases heq : other = id
      · rw [if_pos heq, if_pos (hiff.2 heq)]
        exact .cons ⟨hpair, rfl⟩ hrest
      · rw [if_neg heq, if_neg fun heq' => heq (hiff.1 heq')]
        exact .cons ⟨hother, rfl⟩ ih

private theorem runsAlong_rebind {id id' : SymbolId} (hpair : pairs id id') (value : ValueId) :
    RunsAlong (ν := ν) hidden (fun _ _ _ => True) pairs
      (modify fun session => { session with bindings := rebind session.bindings id value })
      (modify fun session => { session with bindings := rebind session.bindings id' value }) :=
  fun u hu _ _ h => ⟨u, le_rfl, .ok trivial, h.scoping, h.settings, h.values, h.evaluations,
    h.next, h.observed, parallels_rebind h.matched h.bindings (hu _ _ hpair) value, h.labels⟩

theorem runsAlong_bind {id id' : SymbolId} (hpair : pairs id id') (value : Value ν) :
    RunsAlong hidden (fun _ _ _ => True) pairs (bind id value) (bind id' value) := by
  refine (runsAlong_store value).bind fun u hu _ _ _ => ?_
  exact ((runsAlong_rebind hpair value.id).later hu).bind fun _ _ _ _ _ => runsAlong_record rfl

theorem runsAlong_labelling {α : Type} {work work' : Annotated.Labelling α}
    (h : ∀ u, pairs ≤ u → ∀ next next', u.Matches next next' → work.Mirrors u work') :
    RunsAlong (ν := ν) hidden (fun _ => Eq) pairs (labelling work) (labelling work') := by
  intro u hu s t hparallel
  obtain ⟨houtcome, hleft⟩ := h u hu _ _ hparallel.matched s.labels t.labels hparallel.labels
  unfold Act.TracksOn labelling
  rw [Act.on_bind_of_ok (Act.on_get s), Act.on_bind_of_ok (Act.on_get t)]
  match hwork : work.run s.labels, hwork' : work'.run t.labels with
  | (outcome, labels), (outcome', labels') =>
      rw [hwork, hwork'] at houtcome hleft
      dsimp only at houtcome hleft ⊢
      subst houtcome
      rw [Act.on_bind_of_ok (Act.on_set _ _), Act.on_bind_of_ok (Act.on_set _ _)]
      exact Act.Tracks.same (w := u) _ u le_rfl _ _ ⟨hparallel.scoping, hparallel.settings,
        hparallel.values, hparallel.evaluations, hparallel.next, hparallel.observed,
        hparallel.bindings, hleft⟩

end Session

end Scriptlet
