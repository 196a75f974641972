import Scriptlet.Proofs.Analysis.Cursor
/-!
# The way of the analysis through a tree

The analysis comes to the nodes of a tree one after the other, to each with the cursor on
some scope.  That scope can be read off the annotated tree: it is the one that the
innermost block around the node bears.
-/

namespace Scriptlet

inductive Branch where
  | statement (index : Nat)
  | initializer
  | value
  | callee
  | argument (index : Nat)
  | condition
  | body
  | operand
deriving DecidableEq, Repr

/-- In a tree that stands in the one scope, the branches lead to a node that stands in the
other. -/
inductive Annotated.Holds : Annotated → ScopeId → List Branch → Annotated → ScopeId → Prop where
  | here {node : Annotated} {scope : ScopeId} : Holds node scope [] node scope
  | statement {nodes : List Annotated} {inner outer id : ScopeId} {token : Option Token}
      {index : Nat} {node found : Annotated} {path : List Branch} : nodes[index]? = some node →
      Holds node inner path found id →
      Holds (.block nodes inner token) outer (.statement index :: path) found id
  | initializer {symbol : SymbolId} {node found : Annotated} {token : Token} {scope id : ScopeId}
      {path : List Branch} : Holds node scope path found id →
      Holds (.declare symbol node token) scope (.initializer :: path) found id
  | value {symbol : SymbolId} {node found : Annotated} {token : Token} {scope id : ScopeId}
      {path : List Branch} : Holds node scope path found id →
      Holds (.assign symbol node token) scope (.value :: path) found id
  | callee {node found : Annotated} {nodes : List Annotated} {token : Token} {scope id : ScopeId}
      {path : List Branch} : Holds node scope path found id →
      Holds (.call node nodes token) scope (.callee :: path) found id
  | argument {callee node found : Annotated} {nodes : List Annotated} {token : Token} {index : Nat}
      {scope id : ScopeId} {path : List Branch} : nodes[index]? = some node →
      Holds node scope path found id →
      Holds (.call callee nodes token) scope (.argument index :: path) found id
  | condition {node body found : Annotated} {token : Token} {scope id : ScopeId}
      {path : List Branch} : Holds node scope path found id →
      Holds (.conditional node body token) scope (.condition :: path) found id
  | body {condition node found : Annotated} {token : Token} {scope id : ScopeId}
      {path : List Branch} : Holds node scope path found id →
      Holds (.conditional condition node token) scope (.body :: path) found id
  | operand {node found : Annotated} {token : Token} {scope id : ScopeId} {path : List Branch} :
      Holds node scope path found id →
      Holds (.debugPrint node token) scope (.operand :: path) found id

namespace Analysis

mutual

/-- The analysis of a tree that begins with the one scoping comes, along the branches, to a subtree
with the other. -/
inductive Visits : Tree → Scoping → List Branch → Tree → Scoping → Prop where
  | here {tree : Tree} {s : Scoping} : Visits tree s [] tree s
  | statement {trees : List Tree} {token : Option Token} {scope : ScopeId} {s t u v : Scoping}
      {index : Nat} {path : List Branch} {found : Tree} :
      (Scoping.plant "block" (some s.cursor)).on s = (.ok scope, t) →
      (Scoping.enter scope).on t = (.ok (), u) → VisitsAll trees u index path found v →
      Visits (.block trees token) s (.statement index :: path) found v
  | initializer {name : Token} {tree found : Tree} {s v : Scoping} {path : List Branch} :
      Visits tree s path found v →
      Visits (.declare name tree) s (.initializer :: path) found v
  | value {left right found : Tree} {token : Token} {target : Token × SymbolId × SymbolId}
      {s t v : Scoping} {path : List Branch} : (Analysis.target left).on s = (.ok target, t) →
      Visits right t path found v →
      Visits (.assign left right token) s (.value :: path) found v
  | callee {tree found : Tree} {trees : List Tree} {token : Token} {s v : Scoping}
      {path : List Branch} : Visits tree s path found v →
      Visits (.call tree trees token) s (.callee :: path) found v
  | argument {callee found : Tree} {trees : List Tree} {token : Token} {node : Annotated}
      {type : SymbolId} {parameters : List SymbolId} {result : Option SymbolId}
      {s t u v : Scoping} {index : Nat} {path : List Branch} :
      (analyse callee).on s = (.ok ⟨node, some type⟩, t) →
      (signature callee type).on t = (.ok (parameters, result), u) →
      trees.length = parameters.length → VisitsArguments trees parameters u index path found v →
      Visits (.call callee trees token) s (.argument index :: path) found v
  | condition {tree body found : Tree} {token : Token} {s v : Scoping} {path : List Branch} :
      Visits tree s path found v →
      Visits (.conditional tree body token) s (.condition :: path) found v
  | body {condition tree found : Tree} {token : Token} {node : Annotated} {s t v : Scoping}
      {path : List Branch} :
      (analyse condition).on s = (.ok ⟨node, some Primitive.Kind.truth.typeId⟩, t) →
      Visits tree t path found v →
      Visits (.conditional condition tree token) s (.body :: path) found v
  | operand {tree found : Tree} {token : Token} {s v : Scoping} {path : List Branch} :
      Visits tree s path found v →
      Visits (.debugPrint tree token) s (.operand :: path) found v

inductive VisitsAll : List Tree → Scoping → Nat → List Branch → Tree → Scoping → Prop where
  | here {tree found : Tree} {trees : List Tree} {s v : Scoping} {path : List Branch} :
      Visits tree s path found v → VisitsAll (tree :: trees) s 0 path found v
  | there {tree found : Tree} {trees : List Tree} {analysed : Analysed} {s t v : Scoping}
      {index : Nat} {path : List Branch} : (analyse tree).on s = (.ok analysed, t) →
      VisitsAll trees t index path found v → VisitsAll (tree :: trees) s (index + 1) path found v

/-- Arguments are analysed in order, as long as each has the type of its parameter. -/
inductive VisitsArguments :
    List Tree → List SymbolId → Scoping → Nat → List Branch → Tree → Scoping → Prop where
  | here {tree found : Tree} {trees : List Tree} {parameter : SymbolId}
      {parameters : List SymbolId} {s v : Scoping} {path : List Branch} :
      Visits tree s path found v →
      VisitsArguments (tree :: trees) (parameter :: parameters) s 0 path found v
  | there {tree found : Tree} {trees : List Tree} {node : Annotated} {parameter : SymbolId}
      {parameters : List SymbolId} {s t v : Scoping} {index : Nat} {path : List Branch} :
      (analyse tree).on s = (.ok ⟨node, some parameter⟩, t) →
      VisitsArguments trees parameters t index path found v →
      VisitsArguments (tree :: trees) (parameter :: parameters) s (index + 1) path found v

end

/-- Analysed with the given scoping, the tree becomes the node, which stands in the given scope. -/
structure Becomes (tree : Tree) (s : Scoping) (node : Annotated) (id : ScopeId) : Prop where
  cursor : s.cursor = id
  analysed : ∃ type t, (analyse tree).on s = (.ok ⟨node, type⟩, t)

/-! ## What leaves the scopes alone -/

theorem on_requireValue_ok {analysed : Analysed} {role : String} {tree : Tree} {type : SymbolId}
    {s t : Scoping} (h : (requireValue analysed role tree).on s = (.ok type, t)) :
    t = s ∧ analysed = ⟨analysed.node, some type⟩ := by
  have hensures := requireValue_same analysed role tree s
  unfold Act.Ensures at hensures
  rw [h] at hensures
  obtain ⟨rfl, htype⟩ := hensures
  exact ⟨rfl, by rw [← htype]⟩

private theorem on_target_ok {tree : Tree} {found : Token × SymbolId × SymbolId} {s t : Scoping}
    (h : (target tree).on s = (.ok found, t)) : t = s := by
  have hensures := target_same tree s
  unfold Act.Ensures at hensures
  rw [h] at hensures
  exact hensures.1

private theorem on_signature_ok {callee : Tree} {type : SymbolId}
    {found : List SymbolId × Option SymbolId} {s t : Scoping}
    (h : (signature callee type).on s = (.ok found, t)) : t = s := by
  have hensures := signature_same callee type s
  unfold Act.Ensures at hensures
  rw [h] at hensures
  exact hensures.1

private theorem not_on_mismatch_ok {α : Type} {value : α} {s t : Scoping}
    (expected actual : SymbolId) (tree : Tree) (context : String) :
    ¬ (mismatch expected actual tree context).on s = (.ok value, t) := by
  intro h
  have hensures := mismatch_same (α := α) expected actual tree context s
  unfold Act.Ensures at hensures
  rw [h] at hensures
  exact hensures

/-! ## Subtrees and nodes -/

theorem steady_of_analyse {tree : Tree} {analysed : Analysed} {s t : Scoping} (hs : s.Placed)
    (h : (analyse tree).on s = (.ok analysed, t)) : s.Steady t := by
  have hstays := stays_analyse tree s hs
  unfold Act.Ensures at hstays
  rw [h] at hstays
  exact hstays.1.steady

private theorem exists_of_analyse_block {trees : List Tree} {token : Option Token}
    {analysed : Analysed} {s t : Scoping} (hs : s.Placed)
    (h : (analyse (.block trees token)).on s = (.ok analysed, t)) :
    ∃ nodes u, (analyseAll trees).on (opened s) = (.ok nodes, u) ∧
      analysed.node = .block nodes s.forest.nextScope token := by
  rw [on_analyse_block hs] at h
  obtain ⟨nodes, u, hclosed, hnode⟩ := Act.exists_of_on_bind h
  cases hnode
  obtain ⟨v, hnodes, -⟩ := Act.exists_of_on_closing hclosed
  exact ⟨nodes, v, hnodes, rfl⟩

theorem exists_visits_here {tree : Tree} {analysed : Analysed} {node : Annotated} {s t : Scoping}
    (h : (analyse tree).on s = (.ok analysed, t)) (hnode : analysed.node = node) :
    ∃ subtree w, Visits tree s [] subtree w ∧ Becomes subtree w node s.cursor :=
  ⟨tree, s, .here, rfl, analysed.type, t, by rw [h, ← hnode]⟩

mutual

/-- To every node of an annotated tree there is a subtree to which the analysis came with the cursor
on the scope in which the node stands, and which became that node. -/
theorem exists_visits : (tree : Tree) → ∀ {s t : Scoping} {analysed : Analysed} {found : Annotated}
    {path : List Branch} {id : ScopeId}, s.Placed → (analyse tree).on s = (.ok analysed, t) →
    analysed.node.Holds s.cursor path found id →
    ∃ subtree w, Visits tree s path subtree w ∧ Becomes subtree w found id
  | .block trees token, s, t, analysed, found, path, id, hs, hanalyse, hholds => by
      obtain ⟨scope, hscope⟩ := hs.cursor
      obtain ⟨nodes, u, hnodes, hnode⟩ := exists_of_analyse_block hs hanalyse
      rw [hnode] at hholds
      cases hholds with
      | here => exact exists_visits_here hanalyse hnode
      | statement hindex hholds =>
          obtain ⟨subtree, w, hvisits, hbecomes⟩ :=
            exists_visitsAll trees (placed_opened hs) hnodes hindex hholds
          exact ⟨subtree, w, .statement (Scoping.on_plant hscope) (on_enter_opened s) hvisits,
            hbecomes⟩
  | .literal token kind, s, t, analysed, found, path, id, hs, hanalyse, hholds => by
      have hnode : analysed.node = .literal token kind := by
        rw [analyse] at hanalyse
        cases hanalyse
        rfl
      rw [hnode] at hholds
      cases hholds with
      | here => exact exists_visits_here hanalyse hnode
  | .reference name, s, t, analysed, found, path, id, hs, hanalyse, hholds => by
      have hensures := reference_same name s
      unfold Act.Ensures at hensures
      rw [← analyse, hanalyse] at hensures
      obtain ⟨-, symbol, type, -, -, hnode⟩ := hensures
      rw [hnode] at hholds
      cases hholds with
      | here => exact exists_visits_here hanalyse (by rw [hnode])
  | .declare name initializer, s, t, analysed, found, path, id, hs, hanalyse, hholds => by
      have hwhole := hanalyse
      rw [analyse] at hanalyse
      obtain ⟨value, u, hvalue, hrest⟩ := Act.exists_of_on_bind hanalyse
      obtain ⟨type, v, -, hrest⟩ := Act.exists_of_on_bind hrest
      obtain ⟨symbol, w, -, hnode⟩ := Act.exists_of_on_bind hrest
      cases hnode
      cases hholds with
      | here => exact exists_visits_here hwhole rfl
      | initializer hholds =>
          obtain ⟨subtree, w, hvisits, hbecomes⟩ := exists_visits initializer hs hvalue hholds
          exact ⟨subtree, w, .initializer hvisits, hbecomes⟩
  | .assign left right token, s, t, analysed, found, path, id, hs, hanalyse, hholds => by
      have hwhole := hanalyse
      rw [analyse] at hanalyse
      obtain ⟨⟨name, symbol, type⟩, u, htarget, hrest⟩ := Act.exists_of_on_bind hanalyse
      obtain ⟨value, v, hvalue, hrest⟩ := Act.exists_of_on_bind hrest
      obtain ⟨actual, w, -, hrest⟩ := Act.exists_of_on_bind hrest
      have hnode : analysed.node = .assign symbol value.node name := by
        split at hrest
        · cases hrest
          rfl
        · exact absurd hrest (not_on_mismatch_ok _ _ _ _)
      obtain rfl : u = s := on_target_ok htarget
      rw [hnode] at hholds
      cases hholds with
      | here => exact exists_visits_here hwhole hnode
      | value hholds =>
          obtain ⟨subtree, w, hvisits, hbecomes⟩ := exists_visits right hs hvalue hholds
          exact ⟨subtree, w, .value htarget hvisits, hbecomes⟩
  | .call callee trees token, s, t, analysed, found, path, id, hs, hanalyse, hholds => by
      have hwhole := hanalyse
      rw [analyse] at hanalyse
      obtain ⟨function, u, hfunction, htyped⟩ := Act.exists_of_on_bind hanalyse
      obtain ⟨type, v, htype, hsigned⟩ := Act.exists_of_on_bind htyped
      obtain ⟨⟨parameters, result⟩, w, hsignature, hrest⟩ := Act.exists_of_on_bind hsigned
      obtain ⟨rfl, hfunctionType⟩ := on_requireValue_ok htype
      obtain rfl := on_signature_ok hsignature
      have hsteady := steady_of_analyse hs hfunction
      dsimp only at hrest
      split at hrest
      · next hlength =>
          obtain ⟨nodes, x, hnodes, hnode⟩ := Act.exists_of_on_bind hrest
          cases hnode
          cases hholds with
          | here => exact exists_visits_here hwhole rfl
          | callee hholds =>
              obtain ⟨subtree, w, hvisits, hbecomes⟩ := exists_visits callee hs hfunction hholds
              exact ⟨subtree, w, .callee hvisits, hbecomes⟩
          | argument hindex hholds =>
              rw [← hsteady.cursor] at hholds
              rw [hfunctionType] at hfunction
              obtain ⟨subtree, w, hvisits, hbecomes⟩ := exists_visitsArguments callee.describe 1
                trees parameters (hsteady.placed hs) hnodes hindex hholds
              exact ⟨subtree, w, .argument hfunction hsignature hlength hvisits, hbecomes⟩
      · cases hrest
  | .conditional condition body token, s, t, analysed, found, path, id, hs, hanalyse, hholds => by
      have hwhole := hanalyse
      rw [analyse] at hanalyse
      obtain ⟨test, u, htest, htyped⟩ := Act.exists_of_on_bind hanalyse
      obtain ⟨type, v, htype, hrest⟩ := Act.exists_of_on_bind htyped
      obtain ⟨rfl, htestType⟩ := on_requireValue_ok htype
      have hsteady := steady_of_analyse hs htest
      split at hrest
      · next htruth =>
          obtain ⟨branch, x, hbranch, hnode⟩ := Act.exists_of_on_bind hrest
          cases hnode
          cases hholds with
          | here => exact exists_visits_here hwhole rfl
          | condition hholds =>
              obtain ⟨subtree, w, hvisits, hbecomes⟩ := exists_visits condition hs htest hholds
              exact ⟨subtree, w, .condition hvisits, hbecomes⟩
          | body hholds =>
              rw [← hsteady.cursor] at hholds
              rw [htestType, htruth] at htest
              obtain ⟨subtree, w, hvisits, hbecomes⟩ :=
                exists_visits body (hsteady.placed hs) hbranch hholds
              exact ⟨subtree, w, .body htest hvisits, hbecomes⟩
      · obtain ⟨actual, x, -, hrest⟩ := Act.exists_of_on_bind hrest
        obtain ⟨span, y, -, hrest⟩ := Act.exists_of_on_bind hrest
        cases hrest
  | .debugPrint operand token, s, t, analysed, found, path, id, hs, hanalyse, hholds => by
      have hwhole := hanalyse
      rw [analyse] at hanalyse
      obtain ⟨value, u, hvalue, hrest⟩ := Act.exists_of_on_bind hanalyse
      obtain ⟨type, v, -, hnode⟩ := Act.exists_of_on_bind hrest
      cases hnode
      cases hholds with
      | here => exact exists_visits_here hwhole rfl
      | operand hholds =>
          obtain ⟨subtree, w, hvisits, hbecomes⟩ := exists_visits operand hs hvalue hholds
          exact ⟨subtree, w, .operand hvisits, hbecomes⟩
  | .foreign sort, s, t, analysed, found, path, id, hs, hanalyse, hholds => by
      rw [analyse] at hanalyse
      cases hanalyse

private theorem exists_visitsAll : (trees : List Tree) → ∀ {s t : Scoping} {nodes : List Annotated}
    {node found : Annotated} {index : Nat} {path : List Branch} {id : ScopeId}, s.Placed →
    (analyseAll trees).on s = (.ok nodes, t) → nodes[index]? = some node →
    node.Holds s.cursor path found id →
    ∃ subtree w, VisitsAll trees s index path subtree w ∧ Becomes subtree w found id
  | [], s, t, nodes, node, found, index, path, id, hs, hanalyse, hindex, hholds => by
      rw [analyseAll] at hanalyse
      cases hanalyse
      simp at hindex
  | tree :: trees, s, t, nodes, node, found, index, path, id, hs, hanalyse, hindex, hholds => by
      rw [analyseAll] at hanalyse
      obtain ⟨first, u, hfirst, hrest⟩ := Act.exists_of_on_bind hanalyse
      obtain ⟨rest, v, hrest, hnodes⟩ := Act.exists_of_on_bind hrest
      cases hnodes
      cases index with
      | zero =>
          cases hindex
          obtain ⟨subtree, w, hvisits, hbecomes⟩ := exists_visits tree hs hfirst hholds
          exact ⟨subtree, w, .here hvisits, hbecomes⟩
      | succ index =>
          have hsteady := steady_of_analyse hs hfirst
          rw [← hsteady.cursor] at hholds
          obtain ⟨subtree, w, hvisits, hbecomes⟩ :=
            exists_visitsAll trees (hsteady.placed hs) hrest hindex hholds
          exact ⟨subtree, w, .there hfirst hvisits, hbecomes⟩

private theorem exists_visitsArguments (callee : String) (position : Nat) : (trees : List Tree) →
    (parameters : List SymbolId) → ∀ {s t : Scoping} {nodes : List Annotated}
    {node found : Annotated} {index : Nat} {path : List Branch} {id : ScopeId}, s.Placed →
    (analyseArguments callee position trees parameters).on s = (.ok nodes, t) →
    nodes[index]? = some node → node.Holds s.cursor path found id →
    ∃ subtree w, VisitsArguments trees parameters s index path subtree w ∧
      Becomes subtree w found id
  | [], _, s, t, nodes, node, found, index, path, id, hs, hanalyse, hindex, hholds => by
      rw [analyseArguments.eq_def] at hanalyse
      cases hanalyse
      simp at hindex
  | _ :: _, [], s, t, nodes, node, found, index, path, id, hs, hanalyse, hindex, hholds => by
      rw [analyseArguments.eq_def] at hanalyse
      cases hanalyse
      simp at hindex
  | tree :: trees, parameter :: parameters, s, t, nodes, node, found, index, path, id, hs, hanalyse,
    hindex, hholds => by
      rw [analyseArguments] at hanalyse
      obtain ⟨value, u, hvalue, htyped⟩ := Act.exists_of_on_bind hanalyse
      obtain ⟨type, v, htype, hrest⟩ := Act.exists_of_on_bind htyped
      obtain ⟨rfl, hvalueType⟩ := on_requireValue_ok htype
      split at hrest
      · next hparameter =>
          obtain ⟨rest, x, hrest, hnodes⟩ := Act.exists_of_on_bind hrest
          cases hnodes
          cases index with
          | zero =>
              cases hindex
              obtain ⟨subtree, w, hvisits, hbecomes⟩ := exists_visits tree hs hvalue hholds
              exact ⟨subtree, w, .here hvisits, hbecomes⟩
          | succ index =>
              have hsteady := steady_of_analyse hs hvalue
              rw [← hsteady.cursor] at hholds
              rw [hvalueType, hparameter] at hvalue
              obtain ⟨subtree, w, hvisits, hbecomes⟩ := exists_visitsArguments callee (position + 1)
                trees parameters (hsteady.placed hs) hrest hindex hholds
              exact ⟨subtree, w, .there hvalue hvisits, hbecomes⟩
      · exact absurd hrest (not_on_mismatch_ok _ _ _ _)

end

end Analysis

end Scriptlet
