import Scriptlet.Proofs.Analysis.Cursor
import Scriptlet.Proofs.Sessions.Store
import Scriptlet.Session.Execute
/-!
# What execution carries along

A condition on the values that execution works with, and one on the session, are
carried along by a whole execution if each of its steps carries them along: reading a
literal or a variable, binding a symbol, calling a function, writing a value, and
entering and leaving a block.
-/

namespace Scriptlet

namespace Annotated

mutual

/-- The symbols that a tree declares or assigns to. -/
def targets : Annotated → List SymbolId
  | block statements _ _ => targetsAll statements
  | declare symbol initializer _ => symbol :: initializer.targets
  | assign symbol value _ => symbol :: value.targets
  | call callee arguments _ => callee.targets ++ targetsAll arguments
  | conditional condition body _ => condition.targets ++ body.targets
  | debugPrint operand _ => operand.targets
  | literal .. | reference .. | foreign _ => []

def targetsAll : List Annotated → List SymbolId
  | [] => []
  | node :: nodes => node.targets ++ targetsAll nodes

end

theorem mem_targetsAll {nodes : List Annotated} {symbol : SymbolId} :
    symbol ∈ targetsAll nodes ↔ ∃ node ∈ nodes, symbol ∈ node.targets := by
  induction nodes with
  | nil => simp [targetsAll]
  | cons node nodes ih => simp [targetsAll, ih]

end Annotated

def Failure.IsFault (failure : Failure) : Prop :=
  ∃ diagnostic, failure = .fault diagnostic

theorem Failure.not_isFault_host (error : HostError) : ¬ (Failure.host error).IsFault := by
  rintro ⟨diagnostic, h⟩
  cases h

theorem Forest.isFault_of_lookupId {forest : Forest} {id : ScopeId} {symbol : SymbolId}
    {failure : Failure} (h : forest.lookupId id symbol = .error failure) : failure.IsFault := by
  cases hget : forest.get? id with
  | some scope =>
      rw [lookupId_of_get? hget] at h
      cases h
  | none =>
      simp only [lookupId, chain, Forest.get, hget, bind, Except.bind, Except.error.injEq] at h
      exact ⟨_, h.symm⟩

namespace Session

/-- Reading a variable yields a stored value or fails for a fault. -/
theorem readVariable_stored {ν : Type} (symbol : SymbolId) (token : Token) (s : Session ν) :
    (readVariable symbol token).Ensures s
      (fun value t => value ∈ s.values.values ∧ t = s.rescoped s.scoping)
      (fun failure t => failure.IsFault ∧ t = s.rescoped s.scoping) := by
  have hresolve := on_onScopes (Scoping.on_resolveId symbol s.scoping)
  unfold readVariable Act.Ensures
  cases hfound : s.scoping.forest.lookupId s.scoping.cursor symbol with
  | error failure =>
      rw [hfound] at hresolve
      rw [Act.on_bind_of_error hresolve]
      exact ⟨Forest.isFault_of_lookupId hfound, rfl⟩
  | ok found =>
      rw [hfound] at hresolve
      rw [Act.on_bind_of_ok hresolve]
      cases found with
      | none => exact ⟨⟨_, rfl⟩, rfl⟩
      | some symbol =>
          dsimp only
          rw [Act.on_bind_of_ok (Act.on_get _)]
          cases hvalue : ((s.rescoped s.scoping).boundTo? symbol.id).bind
            (s.rescoped s.scoping).values.get? with
          | none => exact ⟨⟨_, rfl⟩, rfl⟩
          | some value =>
              obtain ⟨key, -, hget⟩ := Option.bind_eq_some_iff.1 hvalue
              exact ⟨ValueTable.mem_of_get? hget, rfl⟩

open Annotated (Nested)

variable {ν : Type} {host : Host ν} {forest : Forest} {good : Value ν → Prop}
  {kept : ScopeId → Session ν → Prop} {blamed : Failure → Prop} {free : SymbolId → Prop}

/-- Every step of an execution yields good values from good ones and keeps the condition on the
session, which may be another one for every scope that the cursor may stand on.  Only free symbols
are bound, and what stops a step is to be blamed. -/
structure Carries (host : Host ν) (forest : Forest) (good : Value ν → Prop)
    (kept : ScopeId → Session ν → Prop) (blamed : Failure → Prop) (free : SymbolId → Prop) :
    Prop where
  nothing : good .nothing
  literal : ∀ {id s} token kind, kept id s →
    (execute host (.literal token kind)).Ensures s (fun value t => good value ∧ kept id t)
      (fun failure t => blamed failure ∧ kept id t)
  read : ∀ {id s} symbol token, kept id s →
    (readVariable symbol token).Ensures s (fun value t => good value ∧ kept id t)
      (fun failure t => blamed failure ∧ kept id t)
  bound : ∀ {id s symbol value}, free symbol → good value → kept id s →
    kept id (s.bound symbol value)
  call : ∀ {id s callee arguments} token, good callee → (∀ value ∈ arguments, good value) →
    kept id s → (call host callee arguments token).Ensures s
      (fun value t => good value ∧ kept id t) (fun failure t => blamed failure ∧ kept id t)
  written : ∀ {id s value}, good value → kept id s →
    (do writeLine (← Act.ofNumeral value.payload.render) : Act (Session ν) Unit).Ensures s
      (fun _ t => kept id t) (fun failure t => blamed failure ∧ kept id t)
  entering : ∀ {outer inner scope s}, forest.get? inner = some scope →
    scope.parent = some outer → kept outer s →
    (onScopes (Scoping.enter inner)).Ensures s (fun _ t => kept inner t)
      (fun failure t => blamed failure ∧ kept outer t)
  leaving : ∀ {outer inner scope s}, forest.get? inner = some scope →
    scope.parent = some outer → kept inner s →
    (onScopes Scoping.leave).Ensures s (fun _ t => kept outer t)
      (fun failure t => blamed failure ∧ kept outer t)

abbrev Carried (good : Value ν → Prop) (kept : Session ν → Prop) (blamed : Failure → Prop)
    (act : Act (Session ν) (Value ν)) : Prop :=
  ∀ s, kept s → act.Ensures s (fun value t => good value ∧ kept t)
    (fun failure t => blamed failure ∧ kept t)

namespace Carries

theorem executeAll {id : ScopeId} {nodes : List Annotated}
    (hnodes : ∀ node ∈ nodes, Carried good (kept id) blamed (execute host node))
    (s : Session ν) (hs : kept id s) :
    (Session.executeAll host nodes).Ensures s (fun _ t => kept id t)
      (fun failure t => blamed failure ∧ kept id t) := by
  induction nodes generalizing s with
  | nil =>
      rw [Session.executeAll]
      exact Act.ensures_pure hs
  | cons node nodes ih =>
      rw [List.forall_mem_cons] at hnodes
      rw [Session.executeAll]
      exact (hnodes.1 s hs).bind (fun _ _ h => h) fun _ t ht => ih hnodes.2 t ht.2

theorem executeArguments {id : ScopeId} {nodes : List Annotated}
    (hnodes : ∀ node ∈ nodes, Carried good (kept id) blamed (execute host node))
    (s : Session ν) (hs : kept id s) :
    (Session.executeArguments host nodes).Ensures s
      (fun values t => (∀ value ∈ values, good value) ∧ kept id t)
      (fun failure t => blamed failure ∧ kept id t) := by
  induction nodes generalizing s with
  | nil =>
      rw [Session.executeArguments]
      exact Act.ensures_pure ⟨by simp, hs⟩
  | cons node nodes ih =>
      rw [List.forall_mem_cons] at hnodes
      rw [Session.executeArguments]
      refine (hnodes.1 s hs).bind (fun _ _ h => h) ?_
      rintro value t ⟨hvalue, ht⟩
      refine (ih hnodes.2 t ht).bind (fun _ _ h => h) ?_
      rintro values u ⟨hvalues, hu⟩
      exact Act.ensures_pure ⟨List.forall_mem_cons.2 ⟨hvalue, hvalues⟩, hu⟩

theorem binding (h : Carries host forest good kept blamed free) {id : ScopeId} {node : Annotated}
    {symbol : SymbolId} (hsymbol : free symbol)
    (hnode : Carried good (kept id) blamed (execute host node)) :
    Carried good (kept id) blamed (do
      bind symbol (← execute host node)
      return .nothing) := by
  intro s hs
  refine (hnode s hs).bind (fun _ _ h => h) ?_
  rintro value t ⟨hvalue, ht⟩
  unfold Act.Ensures
  rw [Act.on_bind_of_ok (on_bind symbol value t)]
  exact ⟨h.nothing, h.bound hsymbol hvalue ht⟩

theorem execute (h : Carries host forest good kept blamed free) {id : ScopeId} {node : Annotated}
    (hnode : Nested forest id node) (hfree : ∀ symbol ∈ node.targets, free symbol) :
    Carried good (kept id) blamed (execute host node) := by
  induction hnode with
  | @block outer inner scope nodes token hinner hparent _ ih =>
      intro s hs
      have hnodes : ∀ node ∈ nodes, Carried good (kept inner) blamed (Session.execute host node) :=
        fun node hmem => ih node hmem fun symbol hsymbol =>
          hfree symbol (Annotated.mem_targetsAll.2 ⟨node, hmem, hsymbol⟩)
      rw [Session.execute]
      refine (h.entering hinner hparent hs).bind (fun _ _ h => h) ?_
      intro _ t ht
      have hclosed :
          (Act.closing (onScopes Scoping.leave) (Session.executeAll host nodes)).Ensures t
          (fun _ u => kept outer u) (fun failure u => blamed failure ∧ kept outer u) := by
        apply (executeAll hnodes t ht).closing
        · exact fun _ u hu => h.leaving hinner hparent hu
        · rintro failure u ⟨hblamed, hu⟩
          exact (h.leaving hinner hparent hu).mono (fun _ _ hw => ⟨hblamed, hw⟩) (fun _ _ hw => hw)
      exact hclosed.bind (fun _ _ h => h) fun _ _ hu => Act.ensures_pure ⟨h.nothing, hu⟩
  | @literal id token kind => exact fun s hs => h.literal token kind hs
  | @reference id symbol token =>
      intro s hs
      rw [Session.execute]
      exact h.read symbol token hs
  | declare _ ih =>
      rw [Annotated.targets, List.forall_mem_cons] at hfree
      rw [Session.execute]
      exact h.binding hfree.1 (ih hfree.2)
  | assign _ ih =>
      rw [Annotated.targets, List.forall_mem_cons] at hfree
      rw [Session.execute]
      exact h.binding hfree.1 (ih hfree.2)
  | @call id callee arguments token _ _ ihCallee ihArguments =>
      intro s hs
      rw [Annotated.targets, List.forall_mem_append] at hfree
      have hnodes : ∀ node ∈ arguments, Carried good (kept id) blamed (Session.execute host node) :=
        fun node hmem => ihArguments node hmem fun symbol hsymbol =>
          hfree.2 symbol (Annotated.mem_targetsAll.2 ⟨node, hmem, hsymbol⟩)
      rw [Session.execute]
      refine (ihCallee hfree.1 s hs).bind (fun _ _ h => h) ?_
      rintro function t ⟨hfunction, ht⟩
      cases function.payload with
      | native name handle result =>
          refine (executeArguments hnodes t ht).bind (fun _ _ h => h) ?_
          exact fun values u hu => h.call token hfunction hu.1 hu.2
      | nothing => exact h.call token hfunction (by simp) ht
      | primitive value => exact h.call token hfunction (by simp) ht
  | conditional _ _ ihCondition ihBody =>
      intro s hs
      rw [Annotated.targets, List.forall_mem_append] at hfree
      rw [Session.execute]
      refine (ihCondition hfree.1 s hs).bind (fun _ _ h => h) ?_
      rintro test t ⟨-, ht⟩
      by_cases htest : isTrue test = true
      · simp only [if_pos htest]
        exact (ihBody hfree.2 t ht).bind (fun _ _ h => h)
          fun _ _ hu => Act.ensures_pure ⟨h.nothing, hu.2⟩
      · simp only [if_neg htest]
        exact Act.ensures_pure ⟨h.nothing, ht⟩
  | debugPrint _ ih =>
      intro s hs
      rw [Session.execute]
      refine (ih hfree s hs).bind (fun _ _ h => h) ?_
      rintro value t ⟨hvalue, ht⟩
      have hwritten := h.written hvalue ht
      rw [← bind_assoc]
      exact hwritten.bind (fun _ _ h => h) fun _ _ hu => Act.ensures_pure ⟨h.nothing, hu⟩

end Carries

end Session

end Scriptlet
