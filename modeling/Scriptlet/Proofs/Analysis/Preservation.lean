import Scriptlet.Proofs.Analysis.Cursor
import Scriptlet.Proofs.Scopes.Ordered
/-!
# What the analysis preserves

The analysis works on the scopes by four acts: it plants a scope for a block, enters
it, leaves it, and declares variables.  A condition that those preserve is preserved
by the analysis of any tree, whether it succeeds or fails.
-/

namespace Scriptlet

open Act (Preserves)

/-- The acts by which the analysis changes the scopes preserve the condition. -/
structure Scoping.Upholds (kept : Scoping → Prop) : Prop where
  plant : ∀ parent, Preserves kept (plant "block" (some parent))
  enter : ∀ id, Preserves kept (enter id)
  leave : Preserves kept leave
  declare : ∀ name type span, Preserves kept (declare name (.var type) span)

theorem Scoping.upholds_ordered (base : Forest) : Upholds (Ordered base) where
  plant parent := ordered_plant "block" (some parent)
  enter := ordered_enter
  leave := ordered_leave
  declare name type span := ordered_declare name (.var type) span

namespace Analysis

variable {kept : Scoping → Prop}

private theorem preserves_spanOf_fail {α : Type} (fault : Fault) (tree : Tree) :
    Preserves kept (spanOf tree >>= Act.fail fault : Act Scoping α) :=
  .of_same fun s => (spanOf_fail_same fault tree s).mono (fun _ _ h => h.elim) (fun _ _ h => h)

theorem preserves_requireValue (analysed : Analysed) (role : String) (tree : Tree) :
    Preserves kept (requireValue analysed role tree) :=
  .of_same fun s => (requireValue_same analysed role tree s).mono (fun _ _ h => h.1)
    (fun _ _ h => h.1)

private theorem preserves_mismatch {α : Type} (expected actual : SymbolId) (tree : Tree)
    (context : String) :
    Preserves kept (mismatch expected actual tree context : Act Scoping α) :=
  .of_same fun s => (mismatch_same expected actual tree context s).mono (fun _ _ h => h.elim)
    (fun _ _ h => h)

private theorem preserves_reference (name : Token) : Preserves kept (reference name) :=
  .of_same fun s => (reference_same name s).mono (fun _ _ h => h.1) (fun _ _ h => h.1)

private theorem preserves_target (tree : Tree) : Preserves kept (target tree) :=
  .of_same fun s => (target_same tree s).mono (fun _ _ h => h.1) (fun _ _ h => h.1)

private theorem preserves_signature (callee : Tree) (type : SymbolId) :
    Preserves kept (signature callee type) :=
  .of_same fun s => (signature_same callee type s).mono (fun _ _ h => h.1) (fun _ _ h => h.1)

theorem preserves_typeName (id : SymbolId) : Preserves kept (Scoping.typeName id) :=
  .of_same (typeName_same id)

end Analysis

/-! ## Conditions on the scopes without the cursor -/

namespace Scoping

variable {kept : Forest → Prop}

theorem forest_enter (id : ScopeId) : Preserves (fun s => kept s.forest) (enter id) := by
  refine .get fun s hs => ?_
  cases s.forest.get? id with
  | none => exact hs
  | some scope => exact hs

theorem forest_leave : Preserves (fun s => kept s.forest) leave := by
  refine (preserves_current _).bind fun scope => ?_
  cases scope.parent with
  | none => exact .throw _
  | some parent => exact fun _ hs => hs

theorem forest_plant {name : String}
    (h : ∀ forest parent, kept forest → kept { forest with
      scopes := ⟨forest.nextScope, name, parent, []⟩ :: forest.scopes })
    (parent : Option ScopeId) : Preserves (fun s => kept s.forest) (plant name parent) := by
  intro s hs
  cases parent with
  | none => exact h s.forest none hs
  | some known =>
      cases hget : s.forest.get? known with
      | none =>
          obtain ⟨failure, hon⟩ := on_plant_unknown hget name
          rw [hon]
          exact hs
      | some scope =>
          rw [on_plant hget]
          exact h s.forest (some known) hs

theorem forest_insert
    (h : ∀ forest id name variant, kept forest →
      kept (forest.withSymbol id (forest.newSymbol name variant)))
    (scope : Scope) (name : String) (variant : Symbol.Variant) (sort : String) :
    Preserves (fun s => kept s.forest) (insert scope name variant sort) := by
  intro s hs
  cases hfind : scope.find? name with
  | none =>
      rw [on_insert hfind]
      exact h s.forest scope.id name variant hs
  | some existing =>
      obtain ⟨failure, hon⟩ := on_insert_taken hfind variant sort s
      rw [hon]
      exact hs

theorem forest_declare
    (h : ∀ forest id name variant, kept forest →
      kept (forest.withSymbol id (forest.newSymbol name variant)))
    (name : String) (variant : Symbol.Variant) (span : Span) :
    Preserves (fun s => kept s.forest) (declare name variant span) := by
  refine (preserves_current _).bind fun scope => ?_
  cases scope.find? name with
  | some existing => exact .throw _
  | none => exact forest_insert h scope name variant _

end Scoping

theorem Scoping.preserves_functionType {kept : Scoping → Prop}
    (h : ∀ s name variant, kept s → s.forest.global.find? name = none →
      kept (s.inserted s.forest.global name variant "type"))
    (arguments : List SymbolId) (result : Option SymbolId) :
    Preserves kept (functionType arguments result) := by
  refine (Preserves.mapM Analysis.preserves_typeName arguments).bind fun names => ?_
  refine (Preserves.mapM_option Analysis.preserves_typeName result).bind fun resultName => ?_
  refine .get fun s hs => ?_
  dsimp only
  cases hfind : s.forest.global.find? (functionTypeName names resultName) with
  | some existing => exact hs
  | none =>
      rw [on_insert hfind]
      exact h s _ _ hs hfind

namespace Scoping.Upholds

open Analysis

variable {kept : Scoping → Prop}

mutual

theorem analyse (h : Upholds kept) : (tree : Tree) → Preserves kept (Analysis.analyse tree)
  | .block statements token => by
      rw [Analysis.analyse]
      refine .get fun s hs => ?_
      have hsteps := (h.plant s.cursor).bind fun scope => (h.enter scope).bind fun _ =>
        ((h.analyseAll statements).closing h.leave).bind fun nodes =>
          Preserves.pure (⟨.block nodes scope token, none⟩ : Analysed)
      exact hsteps s hs
  | .literal token kind => by
      rw [Analysis.analyse]
      exact .pure _
  | .reference name => by
      rw [Analysis.analyse]
      exact preserves_reference name
  | .declare name initializer => by
      rw [Analysis.analyse]
      exact (h.analyse initializer).bind fun value =>
        (preserves_requireValue value _ initializer).bind fun type =>
          (h.declare name.text type name.span).bind fun _ => .pure _
  | .assign left right token => by
      rw [Analysis.analyse]
      refine (preserves_target left).bind fun found => (h.analyse right).bind fun value =>
        (preserves_requireValue value _ right).bind fun actual => ?_
      by_cases heq : actual = found.2.2
      · simp only [if_pos heq]
        exact .pure _
      · simp only [if_neg heq]
        exact preserves_mismatch _ _ _ _
  | .call callee arguments token => by
      rw [Analysis.analyse]
      refine (h.analyse callee).bind fun function =>
        (preserves_requireValue function _ callee).bind fun type =>
          (preserves_signature callee type).bind fun found => ?_
      by_cases hlength : arguments.length = found.1.length
      · simp only [if_pos hlength]
        exact (h.analyseArguments callee.describe 1 arguments found.1).bind fun _ => .pure _
      · simp only [if_neg hlength]
        exact .throw _
  | .conditional condition body token => by
      rw [Analysis.analyse]
      refine (h.analyse condition).bind fun test =>
        (preserves_requireValue test _ condition).bind fun type => ?_
      by_cases htruth : type = Primitive.Kind.truth.typeId
      · simp only [if_pos htruth]
        exact (h.analyse body).bind fun _ => .pure _
      · simp only [if_neg htruth]
        exact (preserves_typeName type).bind fun _ => preserves_spanOf_fail _ condition
  | .debugPrint operand token => by
      rw [Analysis.analyse]
      exact (h.analyse operand).bind fun value =>
        (preserves_requireValue value _ operand).bind fun _ => .pure _
  | .foreign sort => by
      rw [Analysis.analyse]
      exact .throw _

theorem analyseAll (h : Upholds kept) :
    (trees : List Tree) → Preserves kept (Analysis.analyseAll trees)
  | [] => by
      rw [Analysis.analyseAll]
      exact .pure _
  | tree :: trees => by
      rw [Analysis.analyseAll]
      exact (h.analyse tree).bind fun _ => (h.analyseAll trees).bind fun _ => .pure _

theorem analyseArguments (h : Upholds kept) (callee : String) (position : Nat) :
    (trees : List Tree) → (parameters : List SymbolId) →
      Preserves kept (Analysis.analyseArguments callee position trees parameters)
  | [], _ => by
      rw [Analysis.analyseArguments.eq_def]
      exact .pure _
  | tree :: trees, [] => by
      rw [Analysis.analyseArguments.eq_def]
      exact .pure _
  | tree :: trees, parameter :: parameters => by
      rw [Analysis.analyseArguments]
      refine (h.analyse tree).bind fun value =>
        (preserves_requireValue value _ tree).bind fun actual => ?_
      by_cases heq : actual = parameter
      · simp only [if_pos heq]
        exact (h.analyseArguments callee (position + 1) trees parameters).bind fun _ => .pure _
      · simp only [if_neg heq]
        exact preserves_mismatch _ _ _ _

end

end Scoping.Upholds

end Scriptlet
