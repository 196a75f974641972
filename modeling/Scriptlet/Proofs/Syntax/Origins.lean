import Scriptlet.Proofs.Analysis.Resolution
import Scriptlet.Proofs.Syntax.Laziness
import Scriptlet.Proofs.Syntax.Sequences
import Scriptlet.Proofs.Syntax.Shape
/-!
# Statements of a source

A statement comes out of the parser with a whole program, on its own, as one of those that are read
before a fault, or as a part of another one.  In every case it is built from tokens that the scanner
made.
-/

namespace Scriptlet

namespace Parser

/-- A statement that is read in front of a fault is read without the fault as well. -/
theorem statement_of_failing {ctx : Context} (hctx : ctx.fault = none) {fault : Diagnostic}
    {tokens : List Token} {taken : Taken Tree tokens}
    (h : statement (ctx.failing fault) tokens = .ok taken) : statement ctx tokens = .ok taken := by
  have hlags : Lags ctx fault Taken.rest tokens (statement ctx tokens)
      (statement (ctx.failing fault) tokens) := statement_lags hctx tokens
  have hmeets := hlags.meets
  rw [h] at hmeets
  generalize statement ctx tokens = finished at hmeets
  cases hmeets
  rfl

/-- Whether or not the scan meets a fault, a statement is built from the tokens that it takes. -/
theorem statement_over_any {p : Token → Prop} (ctx : Context) {tokens rest : List Token}
    (htokens : ∀ token ∈ tokens, p token) {tree : Tree}
    (h : Taken.plain (statement ctx tokens) = .ok (tree, rest)) :
    tree.StatementOver p ∧ ∀ token ∈ rest, p token := by
  cases hfault : ctx.fault with
  | none => exact statement_over hfault htokens h
  | some fault =>
      -- The grammar tells what is read of finished tokens only, so the fault is taken away.
      cases hstatement : statement ctx tokens with
      | error d =>
          rw [hstatement] at h
          cases h
      | ok taken =>
          have hfailing : ctx = Context.failing { ctx with fault := none } fault := by
            rw [Context.failing, ← hfault]
          rw [hfailing] at hstatement
          have hfinished := statement_of_failing rfl hstatement
          rw [hfailing, hstatement, ← hfinished] at h
          exact statement_over rfl htokens h

private theorem eachStatement_over {p : Token → Prop} (ctx : Context) {tokens : List Token}
    (htokens : ∀ token ∈ tokens, p token) :
    ∀ tree ∈ (eachStatement ctx tokens).1, tree.StatementOver p := by
  induction hlength : tokens.length using Nat.strongRecOn generalizing tokens with
  | _ n ih =>
      by_cases hne : tokens = []
      · subst hne
        rw [eachStatement]
        simp
      · cases hstatement : Taken.plain (statement ctx tokens) with
        | error d =>
            rw [eachStatement_of_error hne hstatement]
            simp
        | ok found =>
            obtain ⟨tree, rest⟩ := found
            obtain ⟨htree, hrest⟩ := statement_over_any ctx htokens hstatement
            rw [eachStatement_of_ok hstatement, List.forall_mem_cons]
            exact ⟨htree, ih rest.length (hlength ▸ Taken.length_lt hstatement) hrest rfl⟩

end Parser

/-- The statements that the parser reads from a source: those of the program, one that makes up the
whole source, those that a client gets one by one, and what these are made of. -/
inductive Tree.ReadFrom (source file : String) : Tree → Prop where
  | program {trees : List Tree} {tree : Tree} :
      parseProgram source file = .ok trees → tree ∈ trees → ReadFrom source file tree
  | alone {tree : Tree} :
      (TokenStream.scan source file).statement file = .ok tree → ReadFrom source file tree
  | each {tree : Tree} :
      tree ∈ ((TokenStream.scan source file).each file).1 → ReadFrom source file tree
  | inside {tree part : Tree} :
      ReadFrom source file tree → part ∈ tree.children → ReadFrom source file part

theorem Tree.StatementOver.of_child {p : Token → Prop} {tree part : Tree}
    (h : tree.StatementOver p) (hpart : part ∈ tree.children) : part.StatementOver p := by
  cases tree with
  | block =>
      obtain ⟨-, -, -, -, hstatements⟩ := statementOver_block.1 h
      exact hstatements part hpart
  | literal | reference | foreign => cases hpart
  | assign =>
      obtain ⟨htarget, hvalue, -⟩ := statementOver_assign.1 h
      rcases List.mem_pair.1 hpart with rfl | rfl
      · exact .term htarget
      · exact .term hvalue
  | declare =>
      obtain rfl := List.mem_singleton.1 hpart
      exact .term (statementOver_declare.1 h).2.2
  | call =>
      obtain ⟨hcallee, harguments, -⟩ := statementOver_call.1 h
      rcases List.mem_cons.1 hpart with rfl | hargument
      · exact .term hcallee
      · exact .term (harguments part hargument)
  | conditional =>
      obtain ⟨-, -, hcondition, hbody⟩ := statementOver_conditional.1 h
      rcases List.mem_pair.1 hpart with rfl | rfl
      · exact .term hcondition
      · exact hbody
  | debugPrint =>
      obtain rfl := List.mem_singleton.1 hpart
      exact .term (statementOver_debugPrint.1 h).2.2

/-- A statement of a source is built from tokens of the scanner. -/
theorem Tree.ReadFrom.statementOver {source file : String} {tree : Tree}
    (h : tree.ReadFrom source file) : tree.StatementOver Token.IsScanned := by
  have htokens : ∀ token ∈ (TokenStream.scan source file).tokens, token.IsScanned :=
    Scanner.run_isScanned file _
  induction h with
  | program hparse hmem =>
      exact (TokenStream.program_reads hparse).statementOver htokens _ hmem
  | alone hstatement =>
      obtain ⟨hfault, hread⟩ := TokenStream.statement_ok_iff.1 hstatement
      exact (Parser.statement_over hfault htokens hread).1
  | each hmem => exact Parser.eachStatement_over _ htokens _ hmem
  | inside _ hpart ih => exact ih.of_child hpart

end Scriptlet
