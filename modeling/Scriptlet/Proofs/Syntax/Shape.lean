import Scriptlet.Proofs.Syntax.Spelling
/-!
# The shape of parsed trees

Whatever the tokens say, a parsed expression is made of literals, names, assignments
and calls.  So declarations and blocks stand only among the statements of a program or
a block, or as the body of a conditional.
-/

namespace Scriptlet

/-- Literals, names, assignments and calls. -/
inductive Tree.IsTerm : Tree → Prop where
  | literal {token : Token} {kind : Primitive.Kind} : IsTerm (.literal token kind)
  | reference {name : Token} : IsTerm (.reference name)
  | assign {target value : Tree} {token : Token} :
      IsTerm target → IsTerm value → IsTerm (.assign target value token)
  | call {callee : Tree} {arguments : List Tree} {token : Token} :
      IsTerm callee → (∀ argument ∈ arguments, IsTerm argument) →
      IsTerm (.call callee arguments token)

/-- Terms, and statements in which only terms stand for values. -/
inductive Tree.IsClause : Tree → Prop where
  | term {tree : Tree} : tree.IsTerm → IsClause tree
  | declare {name : Token} {initializer : Tree} :
      initializer.IsTerm → IsClause (.declare name initializer)
  | block {statements : List Tree} {token : Option Token} :
      (∀ statement ∈ statements, IsClause statement) → IsClause (.block statements token)
  | conditional {condition body : Tree} {token : Token} :
      condition.IsTerm → IsClause body → IsClause (.conditional condition body token)
  | debugPrint {operand : Tree} {token : Token} :
      operand.IsTerm → IsClause (.debugPrint operand token)

theorem Tree.TermOver.isTerm {p : Token → Prop} {tree : Tree} (h : tree.TermOver p) :
    tree.IsTerm := by
  induction h with
  | factor _ hfactor =>
      cases hfactor with
      | number | truth | text => exact .literal
      | name => exact .reference
  | assign _ _ _ _ ihTarget ihValue => exact .assign ihTarget ihValue
  | call _ _ _ _ ihCallee ihArguments => exact .call ihCallee ihArguments

theorem Tree.StatementOver.isClause {p : Token → Prop} {tree : Tree} (h : tree.StatementOver p) :
    tree.IsClause := by
  induction h with
  | term h => exact .term h.isTerm
  | declare _ _ h => exact .declare h.isTerm
  | block _ _ _ ih => exact .block ih
  | conditional _ _ hcondition _ ih => exact .conditional hcondition.isTerm ih
  | debugPrint _ _ h => exact .debugPrint h.isTerm

theorem Grammar.Statements.isClause {tokens : List Token} {trees : List Tree}
    (h : Statements tokens trees) : ∀ tree ∈ trees, tree.IsClause :=
  fun tree htree => (h.statementOver (fun _ htoken => htoken) tree htree).isClause

theorem Parser.statement_over {p : Token → Prop} {ctx : Context} (hctx : ctx.fault = none)
    {tokens rest : List Token} (htokens : ∀ token ∈ tokens, p token) {tree : Tree}
    (h : Taken.plain (statement ctx tokens) = .ok (tree, rest)) :
    tree.StatementOver p ∧ ∀ token ∈ rest, p token := by
  have hbare := (statementsRead hctx tokens.length).bareStatement tokens (Nat.le_refl _)
  rcases statement_cases hctx hbare with
    ⟨d, hd, -⟩ | ⟨tree, used, rest, hok, ⟨gap, inner, rfl, hgap, hinner⟩, hsplit⟩
  · rw [h] at hd
    cases hd
  · rw [h] at hok
    cases hok
    have hparts : (∀ token ∈ gap ++ inner, p token) ∧ ∀ token ∈ rest, p token := by
      rcases hsplit with ⟨hsplit, -⟩ | ⟨separator, -, hsplit⟩
      · rw [hsplit] at htokens
        exact List.forall_mem_append.1 htokens
      · rw [hsplit] at htokens
        obtain ⟨hused, hrest⟩ := List.forall_mem_append.1 htokens
        exact ⟨hused, (List.forall_mem_append.1 hrest).2⟩
    have hstatements := Grammar.Statements.cons hgap hinner .nil
    rw [List.append_nil] at hstatements
    exact ⟨hstatements.statementOver hparts.1 _ (List.mem_singleton_self _), hparts.2⟩

namespace TokenStream

variable {stream : TokenStream} {file : String} {trees : List Tree} {tree : Tree}

theorem program_isClause (h : stream.program file = .ok trees) : ∀ tree ∈ trees, tree.IsClause :=
  (program_reads h).isClause

private theorem statement_isClause (h : stream.statement file = .ok tree) : tree.IsClause := by
  obtain ⟨hfault, hread⟩ := statement_ok_iff.1 h
  exact (Parser.statement_over hfault (fun _ htoken => htoken) hread).1.isClause

end TokenStream

/-- A statement that the parser makes: one of a program, one that is read alone, or a whole program
as one block. -/
inductive Tree.IsParsed : Tree → Prop where
  | inProgram {stream : TokenStream} {file : String} {trees : List Tree} {tree : Tree} :
      stream.program file = .ok trees → tree ∈ trees → IsParsed tree
  | alone {stream : TokenStream} {file : String} {tree : Tree} :
      stream.statement file = .ok tree → IsParsed tree
  | whole {stream : TokenStream} {file : String} {tree : Tree} :
      stream.block file = .ok tree → IsParsed tree

theorem Tree.IsParsed.isClause {tree : Tree} (h : tree.IsParsed) : tree.IsClause := by
  cases h with
  | inProgram hprogram hmem => exact TokenStream.program_isClause hprogram tree hmem
  | alone hstatement => exact TokenStream.statement_isClause hstatement
  | @whole stream file tree hblock =>
      unfold TokenStream.block at hblock
      cases hprogram : stream.program file with
      | error d => simp [hprogram, bind, Except.bind] at hblock
      | ok trees =>
          rw [hprogram] at hblock
          cases hblock
          exact .block (TokenStream.program_isClause hprogram)

end Scriptlet
