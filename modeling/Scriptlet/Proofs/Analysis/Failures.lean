import Scriptlet.Annotated.Analysis
import Scriptlet.Proofs.Act.Failures
import Scriptlet.Proofs.Syntax.Locations
/-!
# Failures of the analysis

Whatever the scopes, the analysis of a tree of a source fails at one of the source's
tokens, or because the scopes do not fit together.
-/

namespace Scriptlet

open Act (FailsWith)

/-- A breach of the language's own invariants. -/
def Failure.IsInternal (failure : Failure) : Prop :=
  ∃ d, failure = .fault d ∧ d.fault.phase = .internal

/-- If the failure is a fault of the program text, it is a semantic one at one of the tokens. -/
def Failure.PointsAt (tokens : List Token) : Failure → Prop
  | .host _ => True
  | .fault d => d.fault.phase = .semantic ∧ (∃ token ∈ tokens, d.span = token.span) ∨
      d.fault.phase = .runtime ∨ d.fault.phase = .internal

theorem Failure.IsInternal.pointsAt {failure : Failure} (h : failure.IsInternal)
    (tokens : List Token) : failure.PointsAt tokens := by
  obtain ⟨d, rfl, hphase⟩ := h
  exact .inr (.inr hphase)

theorem Failure.isInternal_scopeStack (message : String) :
    (Failure.placeless (.scopeStack message)).IsInternal :=
  ⟨_, rfl, rfl⟩

/-! ## Failures of work on the scopes -/

namespace Forest

variable {forest : Forest} {id : ScopeId} {failure : Failure}

theorem isInternal_of_get (h : forest.get id = .error failure) : failure.IsInternal := by
  unfold get at h
  split at h
  · cases h
  · cases h
    exact Failure.isInternal_scopeStack _

private theorem isInternal_of_lookup {name : String} (h : forest.lookup id name = .error failure) :
    failure.IsInternal := by
  unfold lookup chain at h
  cases hget : forest.get id with
  | ok scope => simp [hget, bind, Except.bind, pure, Except.pure] at h
  | error other =>
      rw [hget] at h
      cases h
      exact isInternal_of_get hget

private theorem isInternal_of_lookupId {symbol : SymbolId}
    (h : forest.lookupId id symbol = .error failure) : failure.IsInternal := by
  unfold lookupId chain at h
  cases hget : forest.get id with
  | ok scope => simp [hget, bind, Except.bind, pure, Except.pure] at h
  | error other =>
      rw [hget] at h
      cases h
      exact isInternal_of_get hget

private theorem isInternal_of_typeSymbol {symbol : SymbolId}
    (h : forest.typeSymbol symbol = .error failure) : failure.IsInternal := by
  unfold typeSymbol at h
  split at h
  · split at h
    · cases h
    · cases h
      exact Failure.isInternal_scopeStack _
  · cases h
    exact Failure.isInternal_scopeStack _

private theorem isInternal_of_plant {name : String} {parent : Option ScopeId}
    (h : forest.plant name parent = .error failure) : failure.IsInternal := by
  unfold plant at h
  split at h
  · cases h
  · dsimp only at h
    split at h
    · cases h
    · cases h
      exact Failure.isInternal_scopeStack _

end Forest

namespace Scoping

theorem enter_failsWith (id : ScopeId) : FailsWith Failure.IsInternal (enter id) := by
  refine .bind .get fun s => ?_
  split
  · exact .throw (Failure.isInternal_scopeStack _)
  · exact .bind (.modify _) fun _ => .modify _

private theorem current_failsWith : FailsWith Failure.IsInternal current :=
  .bind .get fun _ => .ofExcept fun _ => Forest.isInternal_of_get

theorem leave_failsWith : FailsWith Failure.IsInternal leave := by
  refine current_failsWith.bind fun scope => ?_
  split
  · exact .throw (Failure.isInternal_scopeStack _)
  · exact .bind (.modify _) fun _ => .modify _

private theorem plant_failsWith (name : String) (parent : Option ScopeId) :
    FailsWith Failure.IsInternal (plant name parent) := by
  refine .bind .get fun s => ?_
  exact .bind (.ofExcept fun _ => Forest.isInternal_of_plant) fun _ =>
    .bind (.set _) fun _ => .pure _

private theorem resolve_failsWith (name : String) : FailsWith Failure.IsInternal (resolve name) :=
  .bind .get fun _ => .ofExcept fun _ => Forest.isInternal_of_lookup

theorem resolveId_failsWith (id : SymbolId) : FailsWith Failure.IsInternal (resolveId id) :=
  .bind .get fun _ => .ofExcept fun _ => Forest.isInternal_of_lookupId

private theorem typeSymbol_failsWith (id : SymbolId) :
    FailsWith Failure.IsInternal (typeSymbol id) :=
  .bind .get fun _ => .ofExcept fun _ => Forest.isInternal_of_typeSymbol

private theorem typeName_failsWith (id : SymbolId) : FailsWith Failure.IsInternal (typeName id) :=
  (typeSymbol_failsWith id).bind fun _ => .pure _

/-- A declaration fails at its own place: the name is looked for before it is inserted. -/
theorem declare_failsWith {tokens : List Token} {token : Token} (htoken : token ∈ tokens)
    (name : String) (variant : Symbol.Variant) :
    FailsWith (Failure.PointsAt tokens) (declare name variant token.span) := by
  refine (current_failsWith.mono fun _ h => h.pointsAt tokens).bind fun scope => ?_
  cases hfind : scope.find? name with
  | some existing => exact .throw (.inl ⟨rfl, token, htoken, rfl⟩)
  | none =>
      refine .bind .get fun s => ?_
      refine .bind (.ofExcept ?_) fun _ => .bind (.set _) fun _ => .bind (.modify _) fun _ =>
        .pure _
      intro failure h
      unfold Forest.insert at h
      rw [hfind] at h
      cases h

end Scoping

/-! ## Failures of the analysis -/

namespace Analysis

variable {tokens : List Token}

theorem spanOf_fail_failsWith {α : Type} {fault : Fault} (hphase : fault.phase = .semantic)
    {tree : Tree} (htree : tree.DrawnFrom tokens) :
    FailsWith (Failure.PointsAt tokens) (spanOf tree >>= Act.fail fault : Act Scoping α) := by
  obtain ⟨token, htoken, hspan⟩ := htree.span
  have hon : ∀ s, (spanOf tree).on s = (.ok token.span, s) := by
    intro s
    unfold spanOf
    rw [hspan]
    rfl
  intro s failure hfailure
  rw [Act.on_bind_of_ok (hon s), Act.on_fail] at hfailure
  cases hfailure
  exact .inl ⟨hphase, token, htoken, rfl⟩

theorem requireValue_failsWith (analysed : Analysed) (role : String) {tree : Tree}
    (htree : tree.DrawnFrom tokens) :
    FailsWith (Failure.PointsAt tokens) (requireValue analysed role tree) := by
  unfold requireValue
  cases analysed.type with
  | some type => exact .pure _
  | none => exact spanOf_fail_failsWith rfl htree

theorem typeName_pointsAt (id : SymbolId) :
    FailsWith (Failure.PointsAt tokens) (Scoping.typeName id) :=
  (Scoping.typeName_failsWith id).mono fun _ h => h.pointsAt tokens

private theorem mismatch_failsWith {α : Type} (expected actual : SymbolId) {tree : Tree}
    (htree : tree.DrawnFrom tokens) (context : String) :
    FailsWith (Failure.PointsAt tokens) (mismatch expected actual tree context : Act Scoping α) :=
  (typeName_pointsAt expected).bind fun _ => (typeName_pointsAt actual).bind fun _ =>
    spanOf_fail_failsWith rfl htree

private theorem resolve_pointsAt (name : String) :
    FailsWith (Failure.PointsAt tokens) (Scoping.resolve name) :=
  (Scoping.resolve_failsWith name).mono fun _ h => h.pointsAt tokens

private theorem reference_failsWith {name : Token} (hname : name ∈ tokens) :
    FailsWith (Failure.PointsAt tokens) (reference name) := by
  refine (resolve_pointsAt name.text).bind fun found => ?_
  cases found with
  | none => exact .fail (.inl ⟨rfl, name, hname, rfl⟩)
  | some symbol =>
      dsimp only
      split
      · exact .fail (.inl ⟨rfl, name, hname, rfl⟩)
      · exact .pure _

private theorem target_failsWith {tree : Tree} (htree : tree.DrawnFrom tokens) :
    FailsWith (Failure.PointsAt tokens) (target tree) := by
  cases htree with
  | @reference name hname =>
      refine (resolve_pointsAt name.text).bind fun found => ?_
      cases found with
      | none => exact .fail (.inl ⟨rfl, name, hname, rfl⟩)
      | some symbol =>
          dsimp only
          split
          · exact .pure _
          · exact .fail (.inl ⟨rfl, name, hname, rfl⟩)
  | literal htoken => exact spanOf_fail_failsWith rfl (.literal htoken)
  | assign htarget hvalue => exact spanOf_fail_failsWith rfl (.assign htarget hvalue)
  | declare hname hvalue => exact spanOf_fail_failsWith rfl (.declare hname hvalue)
  | call hcallee harguments htoken =>
      exact spanOf_fail_failsWith rfl (.call hcallee harguments htoken)
  | conditional htoken hcondition hbody =>
      exact spanOf_fail_failsWith rfl (.conditional htoken hcondition hbody)
  | debugPrint htoken hoperand => exact spanOf_fail_failsWith rfl (.debugPrint htoken hoperand)
  | block htoken hstatements => exact spanOf_fail_failsWith rfl (.block htoken hstatements)

private theorem signature_failsWith {callee : Tree} (hcallee : callee.DrawnFrom tokens)
    (type : SymbolId) : FailsWith (Failure.PointsAt tokens) (signature callee type) := by
  refine ((Scoping.typeSymbol_failsWith type).mono fun _ h => h.pointsAt tokens).bind
    fun symbol => ?_
  split
  · exact .pure _
  · exact spanOf_fail_failsWith rfl hcallee

private theorem analyseAll_failsWith {trees : List Tree}
    (h : ∀ tree ∈ trees, FailsWith (Failure.PointsAt tokens) (analyse tree)) :
    FailsWith (Failure.PointsAt tokens) (analyseAll trees) := by
  induction trees with
  | nil =>
      rw [analyseAll]
      exact .pure _
  | cons tree trees ih =>
      rw [List.forall_mem_cons] at h
      rw [analyseAll]
      exact h.1.bind fun _ => (ih h.2).bind fun _ => .pure _

private theorem analyseArguments_failsWith (callee : String) {trees : List Tree}
    (htrees : ∀ tree ∈ trees, tree.DrawnFrom tokens)
    (h : ∀ tree ∈ trees, FailsWith (Failure.PointsAt tokens) (analyse tree)) (position : Nat)
    (parameters : List SymbolId) :
    FailsWith (Failure.PointsAt tokens) (analyseArguments callee position trees parameters) := by
  induction trees generalizing position parameters with
  | nil =>
      rw [analyseArguments.eq_def]
      exact .pure _
  | cons tree trees ih =>
      rw [List.forall_mem_cons] at htrees h
      cases parameters with
      | nil =>
          rw [analyseArguments.eq_def]
          exact .pure _
      | cons parameter parameters =>
          rw [analyseArguments]
          refine h.1.bind fun value => ?_
          refine (requireValue_failsWith value _ htrees.1).bind fun actual => ?_
          split
          · exact (ih htrees.2 h.2 (position + 1) parameters).bind fun _ => .pure _
          · exact mismatch_failsWith parameter actual htrees.1 _

theorem analyse_failsWith {tree : Tree} (h : tree.DrawnFrom tokens) :
    FailsWith (Failure.PointsAt tokens) (analyse tree) := by
  have hinternal : ∀ {α : Type} {act : Act Scoping α}, FailsWith Failure.IsInternal act →
      FailsWith (Failure.PointsAt tokens) act := fun h => h.mono fun _ h => h.pointsAt tokens
  induction h with
  | literal htoken =>
      rw [analyse]
      exact .pure _
  | reference hname =>
      rw [analyse]
      exact reference_failsWith hname
  | assign htarget hvalue _ ih =>
      rw [analyse]
      refine (target_failsWith htarget).bind ?_
      rintro ⟨name, symbol, type⟩
      refine ih.bind fun value => (requireValue_failsWith value _ hvalue).bind fun actual => ?_
      split
      · exact .pure _
      · exact mismatch_failsWith _ _ hvalue _
  | declare hname hvalue ih =>
      rw [analyse]
      refine ih.bind fun value => (requireValue_failsWith value _ hvalue).bind fun type => ?_
      exact (Scoping.declare_failsWith hname _ _).bind fun _ => .pure _
  | @call callee arguments token hcallee harguments htoken ihCallee ihArguments =>
      rw [analyse]
      refine ihCallee.bind fun function => ?_
      refine (requireValue_failsWith function _ hcallee).bind fun type => ?_
      refine (signature_failsWith hcallee type).bind ?_
      rintro ⟨parameters, result⟩
      dsimp only
      split
      · exact (analyseArguments_failsWith _ harguments ihArguments 1 parameters).bind
          fun _ => .pure _
      · exact .fail (.inl ⟨rfl, token, htoken, rfl⟩)
  | conditional htoken hcondition hbody ihCondition ihBody =>
      rw [analyse]
      refine ihCondition.bind fun test => ?_
      refine (requireValue_failsWith test _ hcondition).bind fun type => ?_
      split
      · exact ihBody.bind fun _ => .pure _
      · exact (typeName_pointsAt type).bind fun _ => spanOf_fail_failsWith rfl hcondition
  | debugPrint htoken hoperand ih =>
      rw [analyse]
      exact ih.bind fun value => (requireValue_failsWith value _ hoperand).bind fun _ => .pure _
  | block htoken hstatements ih =>
      rw [analyse]
      refine .bind .get fun s => (hinternal (Scoping.plant_failsWith _ _)).bind fun scope => ?_
      refine (hinternal (Scoping.enter_failsWith scope)).bind fun _ => ?_
      exact ((analyseAll_failsWith ih).closing (hinternal Scoping.leave_failsWith)).bind
        fun _ => .pure _

end Analysis

end Scriptlet
