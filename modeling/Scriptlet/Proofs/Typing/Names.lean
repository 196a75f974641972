import Scriptlet.Proofs.Analysis.Resolution
/-!
# Names that a source declares

The scanner reads names as words, and a word does not begin like the name of a
function type.  So no declaration of a source can be mistaken for one, whatever
scope it adds to.
-/

namespace Scriptlet

def Token.IsPlain (token : Token) : Prop :=
  token.kind = .name → token.text.toList.head? ≠ some '<'

/-- The name that a statement brings into its scope does not look like a function type. -/
def Tree.IsPlain (tree : Tree) : Prop :=
  ∀ name, tree.declared? = some name → name.toList.head? ≠ some '<'

def Tree.IsOperand : Tree → Prop
  | .literal .. | .reference .. | .assign .. | .call .. => True
  | _ => False

/-! ## What the scanner reads -/

theorem Lexeme.read?_isPlain {c : Char} {rest left : List Char} {lexeme : Lexeme}
    (h : read? c rest = some (lexeme, left)) {token : Token} (hkind : token.kind = lexeme.kind)
    (htext : token.text = String.ofList lexeme.text) : token.IsPlain := by
  intro hname
  rw [hkind] at hname
  obtain ⟨hstart, hword, -⟩ := read?_name h hname
  rw [htext, hword, String.toList_ofList, List.head?_cons, ne_eq, Option.some.injEq]
  rintro rfl
  exact absurd hstart (by decide)

theorem Scanner.run_isPlain (file : String) (s : Scanner) :
    ∀ token ∈ (s.run file).tokens, token.IsPlain := by
  intro token htoken
  obtain ⟨c, rest, lexeme, left, hread, hkind, htext⟩ := run_isScanned file s token htoken
  exact Lexeme.read?_isPlain hread hkind htext

/-! ## What the parser builds -/

theorem Tree.IsOperand.isPlain {tree : Tree} (h : tree.IsOperand) : tree.IsPlain := by
  intro name hname
  cases tree with
  | declare | conditional => exact h.elim
  | _ => simp [declared?] at hname

theorem Tree.TermOver.isOperand {p : Token → Prop} {tree : Tree} (h : tree.TermOver p) :
    tree.IsOperand := by
  cases h with
  | factor _ hfactor => cases hfactor <;> trivial
  | assign | call => trivial

theorem Grammar.Expression.isOperand {tokens : List Token} {tree : Tree}
    (h : Expression tokens tree) : tree.IsOperand :=
  (h.termOver fun _ htoken => htoken).isOperand

theorem Tree.StatementOver.isPlain {tree : Tree} (h : tree.StatementOver Token.IsPlain) :
    tree.IsPlain := by
  induction h with
  | term h => exact h.isOperand.isPlain
  | declare hname hkind _ =>
      rintro _ ⟨⟩
      exact hname hkind
  | block | debugPrint => rintro _ ⟨⟩
  | conditional _ _ _ _ ih => exact ih

/-- The statements of a source declare words. -/
theorem parseProgram_isPlain {source file : String} {trees : List Tree}
    (h : parseProgram source file = .ok trees) : ∀ tree ∈ trees, tree.IsPlain :=
  fun tree htree => ((TokenStream.program_reads h).statementOver
    (Scanner.run_isPlain file _) tree htree).isPlain

end Scriptlet
