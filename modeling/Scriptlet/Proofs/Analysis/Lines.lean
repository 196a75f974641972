import Scriptlet.Annotated.Analysis
import Scriptlet.Proofs.Act.Correspondence
import Scriptlet.Proofs.Syntax.Lines
/-!
# Analysis of a tree further down

Analysing a tree that stands some lines further down does the same to the scopes
and gives the same annotated tree and the same fault, some lines further down.
-/

namespace Scriptlet

open Act (Alike Corresponds)

def Lowered (n : Nat) (failure failure' : Failure) : Prop :=
  failure' = failure.down n

def NamesNoLine {α : Type} (n : Nat) (outcome : Except Failure α) : Prop :=
  ∀ failure, outcome = .error failure → Lowered n failure failure

theorem NamesNoLine.alike {α : Type} {n : Nat} {outcome : Except Failure α}
    (h : NamesNoLine n outcome) : Alike Eq (Lowered n) outcome outcome := by
  cases outcome with
  | ok value => exact .ok rfl
  | error failure => exact .error (h failure rfl)

/-! ## Work on the scopes -/

namespace Forest

variable {n : Nat}

private theorem get_namesNoLine (forest : Forest) (id : ScopeId) :
    NamesNoLine n (forest.get id) := by
  intro failure h
  unfold get at h
  split at h <;> simp only [reduceCtorEq, Except.error.injEq] at h
  exact h ▸ rfl

private theorem chain_namesNoLine {α : Type} (forest : Forest) (id : ScopeId)
    (find : List Scope → α) :
    NamesNoLine n (do return find (← forest.chain id)) := by
  intro failure h
  unfold chain at h
  cases hget : forest.get id with
  | ok scope =>
      rw [hget] at h
      cases h
  | error other =>
      rw [hget] at h
      obtain rfl := Except.error.inj h
      exact get_namesNoLine forest id other hget

private theorem lookup_namesNoLine (forest : Forest) (id : ScopeId) (name : String) :
    NamesNoLine n (forest.lookup id name) :=
  chain_namesNoLine forest id _

private theorem lookupId_namesNoLine (forest : Forest) (id : ScopeId) (symbol : SymbolId) :
    NamesNoLine n (forest.lookupId id symbol) :=
  chain_namesNoLine forest id _

private theorem typeSymbol_namesNoLine (forest : Forest) (id : SymbolId) :
    NamesNoLine n (forest.typeSymbol id) := by
  intro failure h
  unfold typeSymbol at h
  split at h
  · split at h <;> simp only [reduceCtorEq, Except.error.injEq] at h
    exact h ▸ rfl
  · simp only [Except.error.injEq] at h
    exact h ▸ rfl

private theorem plant_namesNoLine (forest : Forest) (name : String) (parent : Option ScopeId) :
    NamesNoLine n (forest.plant name parent) := by
  intro failure h
  unfold plant at h
  dsimp only at h
  split at h
  · simp at h
  · split at h <;> simp only [reduceCtorEq, Except.error.injEq] at h
    exact h ▸ rfl

private theorem insert_namesNoLine (forest : Forest) (scope : Scope) (name : String)
    (variant : Symbol.Variant) (sort : String) :
    NamesNoLine n (forest.insert scope name variant sort) := by
  intro failure h
  unfold insert at h
  split at h <;> simp only [reduceCtorEq, Except.error.injEq] at h
  exact h ▸ rfl

end Forest

namespace Scoping

variable {n : Nat}

/-- Acts on the same scopes that do the same and give the same, but some lines further down. -/
abbrev Lowers {α β : Type} (n : Nat) (values : α → β → Prop) (act : Act Scoping α)
    (act' : Act Scoping β) : Prop :=
  Corresponds Eq values (Lowered n) act act'

theorem lowers_modify (f : Scoping → Scoping) :
    Lowers n (fun _ _ => True) (modify f : Act Scoping PUnit) (modify f) :=
  .modify fun _ _ h => congrArg f h

private theorem lowers_current : Lowers n Eq current current := by
  refine Corresponds.get fun s _ h => ?_
  subst h
  exact .ofExcept (s.forest.get_namesNoLine s.cursor).alike

theorem lowers_enter (id : ScopeId) : Lowers n (fun _ _ => True) (enter id) (enter id) := by
  refine Corresponds.get fun s _ h => ?_
  subst h
  cases s.forest.get? id with
  | none => exact .throw rfl
  | some scope => exact (lowers_modify _).bind fun _ _ _ => lowers_modify _

theorem lowers_leave : Lowers n (fun _ _ => True) leave leave := by
  refine lowers_current.bind fun scope _ h => ?_
  subst h
  cases scope.parent with
  | none => exact .throw rfl
  | some parent => exact (lowers_modify _).bind fun _ _ _ => lowers_modify _

private theorem lowers_set (s : Scoping) :
    Lowers n (fun _ _ => True) (set s : Act Scoping PUnit) (set s) :=
  lowers_modify fun _ => s

private theorem lowers_plant (name : String) (parent : Option ScopeId) :
    Lowers n Eq (plant name parent) (plant name parent) := by
  refine Corresponds.get fun s _ h => ?_
  subst h
  refine (Corresponds.ofExcept (s.forest.plant_namesNoLine name parent).alike).bind ?_
  rintro ⟨id, forest⟩ _ rfl
  exact (lowers_set _).bind fun _ _ _ => .pure rfl

private theorem lowers_insert (scope : Scope) (name : String) (variant : Symbol.Variant)
    (sort : String) :
    Lowers n Eq (insert scope name variant sort) (insert scope name variant sort) := by
  refine Corresponds.get fun s _ h => ?_
  subst h
  refine (Corresponds.ofExcept (s.forest.insert_namesNoLine scope name variant sort).alike).bind ?_
  rintro ⟨symbol, forest⟩ _ rfl
  refine (lowers_set _).bind fun _ _ _ => ?_
  exact (lowers_modify _).bind fun _ _ _ => .pure rfl

private theorem lowers_resolve (name : String) : Lowers n Eq (resolve name) (resolve name) := by
  refine Corresponds.get fun s _ h => ?_
  subst h
  exact .ofExcept (s.forest.lookup_namesNoLine s.cursor name).alike

theorem lowers_resolveId (id : SymbolId) : Lowers n Eq (resolveId id) (resolveId id) := by
  refine Corresponds.get fun s _ h => ?_
  subst h
  exact .ofExcept (s.forest.lookupId_namesNoLine s.cursor id).alike

private theorem lowers_typeSymbol (id : SymbolId) :
    Lowers n Eq (typeSymbol id) (typeSymbol id) := by
  refine Corresponds.get fun s _ h => ?_
  subst h
  exact .ofExcept (s.forest.typeSymbol_namesNoLine id).alike

theorem lowers_typeName (id : SymbolId) : Lowers n Eq (typeName id) (typeName id) :=
  (lowers_typeSymbol id).bind fun _ _ h => .pure (congrArg Symbol.name h)

theorem lowers_declare (name : String) (variant : Symbol.Variant) (span : Span) :
    Lowers n Eq (declare name variant span) (declare name variant (span.down n)) := by
  refine lowers_current.bind fun scope _ h => ?_
  subst h
  cases scope.find? name with
  | none => exact lowers_insert scope name variant variant.sort
  | some existing => exact .throw rfl

theorem lowers_typeNamed (name : String) : Lowers n Eq (typeNamed name) (typeNamed name) := by
  refine Corresponds.get fun s _ h => ?_
  subst h
  cases s.forest.global.find? name with
  | none => exact .throw rfl
  | some symbol =>
      dsimp only
      split
      · exact .pure rfl
      · exact .throw rfl

theorem lowers_mapM_option {α β : Type} {act : α → Act Scoping β}
    (h : ∀ item, Lowers n Eq (act item) (act item)) (item : Option α) :
    Lowers n Eq (item.mapM act) (item.mapM act) := by
  cases item with
  | none => exact .pure rfl
  | some item =>
      have hmap : (some item).mapM act = (act item >>= fun value => pure (some value)) :=
        map_eq_pure_bind ..
      rw [hmap]
      exact (h item).bind fun _ _ hvalue => .pure (congrArg some hvalue)

theorem lowers_functionType (arguments : List SymbolId) (result : Option SymbolId) :
    Lowers n Eq (functionType arguments result) (functionType arguments result) := by
  refine (Corresponds.mapM lowers_typeName arguments).bind fun names _ h => ?_
  subst h
  refine (lowers_mapM_option lowers_typeName result).bind fun resultName _ h => ?_
  subst h
  refine Corresponds.get fun s _ h => ?_
  subst h
  dsimp only
  cases s.forest.global.find? (functionTypeName names resultName) with
  | some existing => exact .pure rfl
  | none => exact lowers_insert _ _ _ _

end Scoping

/-! ## Analysis -/

def Analysed.down (n : Nat) (analysed : Analysed) : Analysed where
  node := analysed.node.down n
  type := analysed.type

namespace Analysis

open Scoping (Lowers)

variable {n : Nat}

private theorem lowers_spanOf (tree : Tree) :
    Lowers n (fun span span' => span' = span.down n) (spanOf tree) (spanOf (tree.down n)) := by
  apply Corresponds.ofExcept
  rw [Tree.span_down]
  cases tree.span with
  | ok span => exact .ok rfl
  | error error => exact .error rfl

theorem lowers_failAt {α β : Type} (values : α → β → Prop) (fault : Fault) (tree : Tree) :
    Lowers n values (spanOf tree >>= Act.fail fault) (spanOf (tree.down n) >>= Act.fail fault) :=
  (lowers_spanOf tree).bind fun _ _ h => .fail (by rw [h]; rfl)

theorem lowered_at (fault : Fault) (token : Token) :
    Lowered n (.located fault token.span) (.located fault (token.down n).span) := by
  rw [Token.down_span]
  rfl

theorem lowers_requireValue (analysed : Analysed) (role : String) (tree : Tree) :
    Lowers n Eq (requireValue analysed role tree)
      (requireValue (analysed.down n) role (tree.down n)) := by
  unfold requireValue Analysed.down
  cases analysed.type with
  | some type => exact .pure rfl
  | none => exact lowers_failAt _ _ tree

private theorem lowers_mismatch {α β : Type} (values : α → β → Prop) (expected actual : SymbolId)
    (tree : Tree) (context : String) :
    Lowers n values (mismatch expected actual tree context)
      (mismatch expected actual (tree.down n) context) := by
  refine (Scoping.lowers_typeName expected).bind fun expectedName _ h => ?_
  subst h
  refine (Scoping.lowers_typeName actual).bind fun actualName _ h => ?_
  subst h
  exact lowers_failAt values _ tree

private theorem lowers_reference (name : Token) :
    Lowers n (fun analysed analysed' => analysed' = analysed.down n) (reference name)
      (reference (name.down n)) := by
  refine (Scoping.lowers_resolve name.text).bind fun found _ h => ?_
  subst h
  cases found with
  | none => exact .fail (lowered_at _ name)
  | some symbol =>
      dsimp only
      cases symbol.variant.type? with
      | none => exact .fail (lowered_at _ name)
      | some type => exact .pure rfl

private theorem lowers_invalidTarget {α β : Type} (values : α → β → Prop) (tree : Tree) :
    Lowers n values (spanOf tree >>= Act.fail (.invalidTarget ("'" ++ tree.describe ++ "'")))
      (spanOf (tree.down n) >>=
        Act.fail (.invalidTarget ("'" ++ (tree.down n).describe ++ "'"))) := by
  rw [Tree.describe_down]
  exact lowers_failAt values _ tree

private theorem lowers_target (tree : Tree) :
    Lowers n (fun found found' => found' = (found.1.down n, found.2)) (target tree)
      (target (tree.down n)) := by
  cases tree with
  | reference name =>
      refine (Scoping.lowers_resolve name.text).bind fun found _ h => ?_
      subst h
      cases found with
      | none => exact .fail (lowered_at _ name)
      | some symbol =>
          dsimp only
          cases symbol.variant with
          | var type => exact .pure rfl
          | _ => exact .fail (lowered_at _ name)
  | _ => exact lowers_invalidTarget _ _

private theorem lowers_signature (callee : Tree) (type : SymbolId) :
    Lowers n Eq (signature callee type) (signature (callee.down n) type) := by
  refine (Scoping.lowers_typeSymbol type).bind fun symbol _ h => ?_
  subst h
  cases symbol.variant with
  | function arguments result => exact .pure rfl
  | _ =>
      dsimp only
      rw [Tree.describe_down]
      exact lowers_failAt _ _ callee

mutual

theorem lowers_analyse : (tree : Tree) →
    Lowers n (fun analysed analysed' => analysed' = analysed.down n) (analyse tree)
      (analyse (tree.down n))
  | .block statements token => by
      rw [Tree.down, analyse, analyse]
      refine Corresponds.get fun s _ h => ?_
      subst h
      refine (Scoping.lowers_plant _ _).bind fun scope _ h => ?_
      subst h
      refine (Scoping.lowers_enter scope).bind fun _ _ _ => ?_
      refine ((lowers_analyseAll statements).closing Scoping.lowers_leave).bind fun nodes _ h => ?_
      exact .pure (by rw [h]; rfl)
  | .literal token kind => by
      rw [Tree.down, analyse, analyse]
      exact .pure rfl
  | .reference name => by
      rw [Tree.down, analyse, analyse]
      exact lowers_reference name
  | .declare name initializer => by
      rw [Tree.down, analyse, analyse]
      refine (lowers_analyse initializer).bind fun value _ h => ?_
      subst h
      refine (lowers_requireValue value _ initializer).bind fun type _ h => ?_
      subst h
      rw [Token.down_text, Token.down_span]
      refine (Scoping.lowers_declare name.text _ name.span).bind fun symbol _ h => ?_
      exact .pure (by rw [h]; rfl)
  | .assign left right token => by
      rw [Tree.down, analyse, analyse]
      refine (lowers_target left).bind ?_
      rintro ⟨name, symbol, type⟩ _ rfl
      refine (lowers_analyse right).bind fun value _ h => ?_
      subst h
      refine (lowers_requireValue value _ right).bind fun actual _ h => ?_
      subst h
      dsimp only
      by_cases htype : actual = type
      · rw [if_pos htype, if_pos htype]
        exact .pure rfl
      · rw [if_neg htype, if_neg htype]
        exact lowers_mismatch _ type actual right _
  | .call callee arguments token => by
      rw [Tree.down, analyse, analyse]
      refine (lowers_analyse callee).bind fun function _ h => ?_
      subst h
      refine (lowers_requireValue function _ callee).bind fun type _ h => ?_
      subst h
      refine (lowers_signature callee type).bind ?_
      rintro ⟨parameters, result⟩ _ rfl
      dsimp only
      rw [Tree.describe_down, Tree.length_downAll, Token.down_span]
      by_cases hlength : arguments.length = parameters.length
      · rw [if_pos hlength, if_pos hlength]
        refine (lowers_analyseArguments callee.describe 1 arguments parameters).bind
          fun nodes _ h => ?_
        exact .pure (by rw [h]; rfl)
      · rw [if_neg hlength, if_neg hlength]
        exact .fail rfl
  | .conditional condition body token => by
      rw [Tree.down, analyse, analyse]
      refine (lowers_analyse condition).bind fun test _ h => ?_
      subst h
      refine (lowers_requireValue test _ condition).bind fun type _ h => ?_
      subst h
      by_cases htruth : type = Primitive.Kind.truth.typeId
      · rw [if_pos htruth, if_pos htruth]
        refine (lowers_analyse body).bind fun branch _ h => ?_
        exact .pure (by rw [h]; rfl)
      · rw [if_neg htruth, if_neg htruth]
        refine (Scoping.lowers_typeName type).bind fun actual _ h => ?_
        subst h
        exact lowers_failAt _ _ condition
  | .debugPrint operand token => by
      rw [Tree.down, analyse, analyse]
      refine (lowers_analyse operand).bind fun value _ h => ?_
      subst h
      refine (lowers_requireValue value _ operand).bind fun _ _ _ => ?_
      exact .pure rfl
  | .foreign sort => by
      rw [Tree.down, analyse]
      exact .throw rfl

private theorem lowers_analyseAll : (trees : List Tree) →
    Lowers n (fun nodes nodes' => nodes' = Annotated.downAll n nodes) (analyseAll trees)
      (analyseAll (Tree.downAll n trees))
  | [] => by
      rw [Tree.downAll, analyseAll]
      exact .pure rfl
  | tree :: trees => by
      rw [Tree.downAll, analyseAll, analyseAll]
      refine (lowers_analyse tree).bind fun first _ h => ?_
      subst h
      refine (lowers_analyseAll trees).bind fun rest _ h => ?_
      exact .pure (by rw [h]; rfl)

private theorem lowers_analyseArguments (callee : String) (position : Nat) :
    (trees : List Tree) → (parameters : List SymbolId) →
    Lowers n (fun nodes nodes' => nodes' = Annotated.downAll n nodes)
      (analyseArguments callee position trees parameters)
      (analyseArguments callee position (Tree.downAll n trees) parameters)
  | [], _ => by
      rw [Tree.downAll, analyseArguments.eq_def]
      exact .pure rfl
  | tree :: trees, [] => by
      rw [Tree.downAll, analyseArguments.eq_def, analyseArguments.eq_def]
      exact .pure rfl
  | tree :: trees, parameter :: parameters => by
      rw [Tree.downAll, analyseArguments, analyseArguments]
      refine (lowers_analyse tree).bind fun value _ h => ?_
      subst h
      refine (lowers_requireValue value _ tree).bind fun actual _ h => ?_
      subst h
      by_cases htype : actual = parameter
      · rw [if_pos htype, if_pos htype]
        refine (lowers_analyseArguments callee (position + 1) trees parameters).bind
          fun rest _ h => ?_
        exact .pure (by rw [h]; rfl)
      · rw [if_neg htype, if_neg htype]
        exact lowers_mismatch _ parameter actual tree _

end

end Analysis

end Scriptlet
