import Scriptlet.Proofs.Syntax.Completeness
/-!
# The parser recognises its grammar

Soundness and completeness together: the parser accepts a token list exactly
when the grammar derives it, the derived trees are unique, and assignments
never stand where only a factor with its calls may stand.
-/

namespace Scriptlet

def Tree.IsAssignment : Tree → Prop
  | .assign .. => True
  | _ => False

/-- A node whose target or callee, if it has one, is no assignment. -/
def Tree.Chained : Tree → Prop
  | .assign target _ _ => ¬ target.IsAssignment
  | .call callee _ _ => ¬ callee.IsAssignment
  | _ => True

namespace Grammar

theorem Factor.not_isAssignment {token : Token} {leaf : Tree} (h : Factor token leaf) :
    ¬ leaf.IsAssignment := by
  cases h <;> exact id

theorem Factor.chained {token : Token} {leaf : Tree} (h : Factor token leaf) :
    ∀ node ∈ leaf.preorder, node.Chained := by
  cases h <;> simp [Tree.preorder, Tree.Chained]

theorem Expression.chained {tokens : List Token} {tree : Tree} (h : Expression tokens tree) :
    ∀ node ∈ tree.preorder, node.Chained := by
  -- Along a suffix the tree in front stays a factor with calls until an assignment ends it.
  refine @Expression.rec
    (fun _ tree _ => ∀ node ∈ tree.preorder, node.Chained)
    (fun leaf _ tree _ => ¬ leaf.IsAssignment → (∀ node ∈ leaf.preorder, node.Chained) →
      ∀ node ∈ tree.preorder, node.Chained)
    (fun _ values _ => ∀ node ∈ Tree.preorderAll values, node.Chained)
    (fun _ values _ => ∀ node ∈ Tree.preorderAll values, node.Chained)
    ?intro ?nil ?assign ?call ?none ?some ?last ?trailing ?next tokens tree h
  case intro =>
    intro gap suffix token leaf tree _ hfactor _ ih
    exact ih hfactor.not_isAssignment hfactor.chained
  case nil =>
    intro tree _ hleaf
    exact hleaf
  case assign =>
    intro target value equals right _ _ ih htarget hleaf
    simp only [Tree.preorder, List.mem_cons, List.mem_append]
    rintro node (rfl | hnode | hnode)
    · exact htarget
    · exact hleaf node hnode
    · exact ih node hnode
  case call =>
    intro callee tree values opening closing inside others _ _ _ _ ihInside ihOthers hcallee hleaf
    refine ihOthers id ?_
    simp only [Tree.preorder, List.mem_cons, List.mem_append]
    rintro node (rfl | hnode | hnode)
    · exact hcallee
    · exact hleaf node hnode
    · exact ihInside node hnode
  case none =>
    intro gap _
    simp [Tree.preorderAll]
  case some =>
    intro gap first after others value values _ _ _ _ ihFirst ihOthers
    simp only [Tree.preorderAll, List.mem_append]
    rintro node (hnode | hnode)
    · exact ihFirst node hnode
    · exact ihOthers node hnode
  case last => simp [Tree.preorderAll]
  case trailing =>
    intro comma gap _ _
    simp [Tree.preorderAll]
  case next =>
    intro comma gap next after others value values _ _ _ _ _ ihNext ihOthers
    simp only [Tree.preorderAll, List.mem_append]
    rintro node (hnode | hnode)
    · exact ihNext node hnode
    · exact ihOthers node hnode

theorem Statements.chained {tokens : List Token} {trees : List Tree}
    (h : Statements tokens trees) : ∀ node ∈ Tree.preorderAll trees, node.Chained := by
  refine @Statements.rec
    (fun _ tree _ => ∀ node ∈ tree.preorder, node.Chained)
    (fun _ trees _ => ∀ node ∈ Tree.preorderAll trees, node.Chained)
    (fun _ trees _ => ∀ node ∈ Tree.preorderAll trees, node.Chained)
    ?declaration ?block ?conditional ?debugPrint ?expression ?none ?some ?last ?trailing ?next
    tokens trees h
  case declaration =>
    intro keyword name equals gap right value _ _ _ _ hright
    simp only [Tree.preorder, List.mem_cons]
    rintro node (rfl | hnode)
    · trivial
    · exact hright.chained node hnode
  case block =>
    intro opening closing inside trees _ _ _ ih
    simp only [Tree.preorder, List.mem_cons]
    rintro node (rfl | hnode)
    · trivial
    · exact ih node hnode
  case conditional =>
    intro keyword test gap inner condition body _ htest _ _ ih
    simp only [Tree.preorder, List.mem_cons, List.mem_append]
    rintro node (rfl | hnode | hnode)
    · trivial
    · exact htest.chained node hnode
    · exact ih node hnode
  case debugPrint =>
    intro marker inner operand _ hinner
    simp only [Tree.preorder, List.mem_cons]
    rintro node (rfl | hnode)
    · trivial
    · exact hinner.chained node hnode
  case expression =>
    intro tokens tree hexpression
    exact hexpression.chained
  case none =>
    intro gap _
    simp [Tree.preorderAll]
  case some =>
    intro gap first others tree trees _ _ _ ihFirst ihOthers
    simp only [Tree.preorderAll, List.mem_append]
    rintro node (hnode | hnode)
    · exact ihFirst node hnode
    · exact ihOthers node hnode
  case last => simp [Tree.preorderAll]
  case trailing =>
    intro separator _
    simp [Tree.preorderAll]
  case next =>
    intro separator next others tree trees _ _ _ ihNext ihOthers
    simp only [Tree.preorderAll, List.mem_append]
    rintro node (hnode | hnode)
    · exact ihNext node hnode
    · exact ihOthers node hnode

end Grammar

namespace Parser

theorem program_eq_ok_iff (file : String) (tokens : List Token) (trees : List Tree) :
    (TokenStream.ofList tokens).program file = .ok trees ↔ Grammar.Statements tokens trees := by
  refine ⟨fun h => ?_, program_complete file⟩
  have hreads := program_reads file tokens
  rw [h] at hreads
  exact hreads

/-- The parser accepts exactly the token lists that the grammar derives and
returns the derived trees, of which there is one list at most, in which no
assignment is a target or a callee; any other token list is refused with a
syntactic fault. -/
theorem program_recognises_grammar (file : String) (tokens : List Token) :
    (∀ trees, (TokenStream.ofList tokens).program file = .ok trees ↔
      Grammar.Statements tokens trees) ∧
    (∀ trees others, Grammar.Statements tokens trees → Grammar.Statements tokens others →
      trees = others) ∧
    (∀ trees, Grammar.Statements tokens trees →
      ∀ node ∈ Tree.preorderAll trees, node.Chained) ∧
    ((¬ ∃ trees, Grammar.Statements tokens trees) →
      ∃ d, (TokenStream.ofList tokens).program file = .error d ∧ Syntactic d) := by
  refine ⟨program_eq_ok_iff file tokens, ?_, fun trees h => h.chained, ?_⟩
  · intro trees others htrees hothers
    have h := program_complete file htrees
    rw [program_complete file hothers] at h
    exact (Except.ok.inj h).symm
  · intro hnone
    have hreads := program_reads file tokens
    cases hresult : (TokenStream.ofList tokens).program file with
    | ok trees => exact absurd ⟨trees, (program_eq_ok_iff file tokens trees).1 hresult⟩ hnone
    | error d =>
        rw [hresult] at hreads
        exact ⟨d, rfl, hreads⟩

end Parser

end Scriptlet
