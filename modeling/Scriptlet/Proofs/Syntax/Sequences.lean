import Mathlib.Data.List.TakeWhile
import Scriptlet.Proofs.Syntax.Recognition
/-!
# Sequences of statements

A program is a sequence of statements up to the end of the input, a block is one up to its closing
brace, and a client of the parser may ask for statements one by one until the input is used up.
The three loops skip newlines and look for the end at different moments, but they read the same.
-/

namespace Scriptlet.Parser

open Grammar

variable {ctx : Context}

/-! ## Statements one by one -/

private theorem eachStatement_nil (hctx : ctx.fault = none) :
    eachStatement ctx [] = ([], none) := by
  rw [eachStatement, hctx]

theorem eachStatement_of_ok {tokens left : List Token} {tree : Tree}
    (h : Taken.plain (statement ctx tokens) = .ok (tree, left)) :
    eachStatement ctx tokens =
      (tree :: (eachStatement ctx left).1, (eachStatement ctx left).2) := by
  cases tokens with
  | nil => exact absurd (Taken.length_lt h) (Nat.not_lt_zero _)
  | cons token rest =>
      rw [eachStatement]
      cases hread : statement ctx (token :: rest) with
      | error d => simp [hread] at h
      | ok taken =>
          obtain ⟨value, after, _⟩ := taken
          simp only [hread, Taken.plain_ok, Except.ok.injEq, Prod.mk.injEq] at h
          obtain ⟨rfl, rfl⟩ := h
          rfl

theorem eachStatement_of_error {tokens : List Token} {d : Diagnostic} (hne : tokens ≠ [])
    (h : Taken.plain (statement ctx tokens) = .error d) :
    eachStatement ctx tokens = ([], some d) := by
  obtain ⟨token, rest, rfl⟩ := List.exists_cons_of_ne_nil hne
  rw [eachStatement]
  cases hread : statement ctx (token :: rest) with
  | error e =>
      rw [hread] at h
      cases h
      rfl
  | ok taken => simp [hread] at h

private theorem statement_plain_dropWhile (hctx : ctx.fault = none) (tokens : List Token) :
    Taken.plain (statement ctx (tokens.dropWhile isNewline)) =
      Taken.plain (statement ctx tokens) := by
  rw [statement_plain, statement_plain, bareStatement_plain_dropWhile hctx]

private theorem statement_left (hctx : ctx.fault = none) {tokens left : List Token} {tree : Tree}
    (h : Taken.plain (statement ctx tokens) = .ok (tree, left)) :
    left.dropWhile isNewline = left := by
  have hend : ∀ atEnd, Left.plain (terminator ctx atEnd) = .ok left →
      left.dropWhile isNewline = left := by
    intro atEnd hterminator
    cases atEnd with
    | nil =>
        rw [terminator_plain_nil hctx] at hterminator
        cases hterminator
        rfl
    | cons token rest =>
        rw [terminator_plain_cons hctx] at hterminator
        split at hterminator
        · cases hterminator
          exact dropWhile_newlines_idem rest
        split at hterminator
        · next hcurly =>
            cases hterminator
            exact dropWhile_newlines_cons (by simp [hcurly]) rest
        · cases hterminator
  rw [statement_plain] at h
  cases hbare : Taken.plain (bareStatement ctx tokens) with
  | error d => simp [hbare] at h
  | ok read =>
      obtain ⟨value, atEnd⟩ := read
      rw [hbare, ok_bind] at h
      dsimp only at h
      cases hterminator : Left.plain (terminator ctx atEnd) with
      | error d => simp [hterminator] at h
      | ok rest =>
          rw [hterminator] at h
          cases h
          exact hend atEnd hterminator

private theorem statement_rightCurly (hctx : ctx.fault = none) {token : Token}
    (hkind : token.kind = .rightCurly) (rest : List Token) :
    ∃ d, Taken.plain (statement ctx (token :: rest)) = .error d := by
  have hdrop := dropWhile_newlines_cons (by simp [hkind] : token.kind ≠ .newline) rest
  refine ⟨unexpected token ["expression"] "", ?_⟩
  rw [statement_plain, bareStatement_plain hctx, hdrop]
  simp only [hkind, reduceCtorEq, if_false]
  rw [expression_plain, factor_plain hctx, hdrop]
  simp [literalKind?, hkind]

def Pending (tokens : List Token) : Prop :=
  tokens = [] ∨ ∃ token ∈ tokens, token.kind ≠ .newline

private theorem pending_of_dropWhile {tokens : List Token}
    (h : tokens.dropWhile isNewline = tokens) :
    Pending tokens := by
  cases tokens with
  | nil => exact .inl rfl
  | cons token rest =>
      refine .inr ⟨token, List.mem_cons_self, fun hkind => ?_⟩
      have hhead := List.head?_dropWhile_not isNewline (token :: rest)
      rw [h, List.head?_cons] at hhead
      simp [isNewline, hkind] at hhead

/-- Statements can be read one by one until the tokens are used up just if the loop of a program
reads them all. -/
theorem eachStatement_eq_iff (hctx : ctx.fault = none) {tokens : List Token}
    (h : Pending tokens) (trees : List Tree) :
    eachStatement ctx tokens = (trees, none) ↔
      Read.plain (statements ctx tokens) = .ok (trees, []) := by
  induction hlength : tokens.length using Nat.strongRecOn generalizing tokens trees with
  | _ n ih =>
      rw [statements_plain hctx]
      rcases h with rfl | ⟨other, hother, hkind⟩
      · rw [eachStatement_nil hctx, List.dropWhile_nil]
        simp
      · have hne : tokens ≠ [] := List.ne_nil_of_mem hother
        cases hdrop : tokens.dropWhile isNewline with
        | nil =>
            have hall := List.dropWhile_eq_nil_iff.1 hdrop other hother
            exact absurd (of_decide_eq_true hall) hkind
        | cons token rest =>
            have hsame := statement_plain_dropWhile hctx tokens
            rw [hdrop] at hsame
            dsimp only
            split
            · next hcurly =>
                obtain ⟨d, hd⟩ := statement_rightCurly hctx hcurly rest
                rw [eachStatement_of_error hne (hsame.symm.trans hd)]
                simp
            · rw [hsame]
              cases hstatement : Taken.plain (statement ctx tokens) with
              | error d =>
                  rw [eachStatement_of_error hne hstatement]
                  simp
              | ok first =>
                  obtain ⟨first, left⟩ := first
                  have hpending := pending_of_dropWhile (statement_left hctx hstatement)
                  have hleft : ∀ others, eachStatement ctx left = (others, none) ↔
                      Read.plain (statements ctx left) = .ok (others, []) := fun others =>
                    ih left.length (hlength ▸ Taken.length_lt hstatement) hpending others rfl
                  rw [eachStatement_of_ok hstatement, ok_bind]
                  dsimp only
                  constructor
                  · intro heach
                    obtain ⟨rfl, hfault⟩ := Prod.mk.inj heach
                    rw [(hleft _).1 (Prod.ext rfl hfault)]
                    rfl
                  · intro hread
                    cases hothers : Read.plain (statements ctx left) with
                    | error d => simp [hothers] at hread
                    | ok others =>
                        obtain ⟨others, end_⟩ := others
                        rw [hothers] at hread
                        cases hread
                        rw [(hleft others).2 hothers]

/-! ## Statements between braces -/

private theorem terminator_rightCurly (hctx : ctx.fault = none) {tokens : List Token}
    {closing : Token} (hclosing : closing.kind = .rightCurly) (hmem : closing ∈ tokens) :
    Left.plain (terminator ctx tokens) ≠ .ok [] := by
  obtain ⟨token, rest, rfl⟩ := List.exists_cons_of_ne_nil (List.ne_nil_of_mem hmem)
  rw [terminator_plain_cons hctx]
  split
  · next hkind =>
      intro heq
      have hrest : closing ∈ rest := by
        rcases List.mem_cons.1 hmem with rfl | hrest
        · simp [hclosing] at hkind
        · exact hrest
      have hall := List.dropWhile_eq_nil_iff.1 (Except.ok.inj heq) closing hrest
      simp [isNewline, hclosing] at hall
  split
  · intro heq
    cases heq
  · intro heq
    cases heq

private theorem statement_plain_block (hctx : ctx.fault = none) {opening : Token}
    (hopening : opening.kind = .leftCurly) (rest : List Token) :
    Taken.plain (statement ctx (opening :: rest)) = (do
      let (body, atClose) ← Read.plain (statements ctx rest)
      let (_, atEnd) ← Taken.plain (expect ctx .rightCurly "Unclosed block" atClose)
      let left ← Left.plain (terminator ctx atEnd)
      return (.block body (some opening), left)) := by
  have hdrop := dropWhile_newlines_cons (by simp [hopening] : opening.kind ≠ .newline) rest
  rw [statement_plain, bareStatement_plain hctx, hdrop]
  simp only [hopening, reduceCtorEq, if_false, if_true]
  cases Read.plain (statements ctx rest) with
  | error d => rfl
  | ok body =>
      simp only [ok_bind]
      cases Taken.plain (expect ctx .rightCurly "Unclosed block" body.2) <;> rfl

/-- What is read as one statement between braces, with nothing left, is the block of the statements
that stand between them. -/
theorem statement_braced_iff (hctx : ctx.fault = none) {opening closing : Token}
    (hopening : opening.kind = .leftCurly) (hclosing : closing.kind = .rightCurly)
    (tokens : List Token) (tree : Tree) :
    Taken.plain (statement ctx (opening :: (tokens ++ [closing]))) = .ok (tree, []) ↔
      ∃ trees, Statements tokens trees ∧ tree = .block trees (some opening) := by
  rw [statement_plain_block hctx hopening]
  constructor
  · intro hread
    have hreads := statements_reads hctx (tokens ++ [closing])
    match hbody : Read.plain (statements ctx (tokens ++ [closing])), hreads with
    | .error d, _ => simp [hbody] at hread
    | .ok (body, []), _ => simp [hbody, expect] at hread
    | .ok (body, brace :: left), ⟨used, hsplit, hstatements, hcloses⟩ =>
        have hbrace : brace.kind = .rightCurly := hcloses brace rfl
        rw [hbody, ok_bind] at hread
        dsimp only at hread
        rw [expect_plain_cons, if_pos hbrace, ok_bind] at hread
        rcases List.eq_nil_or_concat left with rfl | ⟨init, last, rfl⟩
        · obtain ⟨rfl, -⟩ := List.append_inj' hsplit rfl
          rw [terminator_plain_nil hctx] at hread
          cases hread
          exact ⟨body, hstatements, rfl⟩
        · -- If the block ended at an earlier brace, the last one would be left.
          rw [List.concat_eq_append, ← List.cons_append, ← List.append_assoc] at hsplit
          obtain ⟨-, hlast⟩ := List.append_inj' hsplit rfl
          have hmem : closing ∈ init.concat last := by simp [List.singleton_inj.1 hlast]
          cases hend : Left.plain (terminator ctx (init.concat last)) with
          | error d => simp [hend] at hread
          | ok rest =>
              rw [hend] at hread
              cases hread
              exact absurd hend (terminator_rightCurly hctx hclosing hmem)
  · rintro ⟨trees, htrees, rfl⟩
    rw [statements_complete hctx htrees [closing] (by simp [Closes, hclosing]), ok_bind]
    dsimp only
    rw [expect_plain_cons, if_pos hclosing, ok_bind]
    dsimp only
    rw [terminator_plain_nil hctx]
    rfl

/-- A program, a block and a client that reads statement by statement agree.  What stands between
braces is read as one statement exactly if it is a program, as the block of its statements.  Unless
nothing but newlines is left, statements can be read one by one until the tokens are used up exactly
if they are a program, and they are its statements. -/
theorem loops_agree (file : String) (tokens : List Token) :
    (∀ opening closing : Token, opening.kind = .leftCurly → closing.kind = .rightCurly →
      ∀ tree, (TokenStream.ofList (opening :: (tokens ++ [closing]))).statement file = .ok tree ↔
        ∃ trees, (TokenStream.ofList tokens).program file = .ok trees ∧
          tree = .block trees (some opening)) ∧
    ((tokens = [] ∨ ∃ token ∈ tokens, token.kind ≠ .newline) →
      ∀ trees, (TokenStream.ofList tokens).each file = (trees, none) ↔
        (TokenStream.ofList tokens).program file = .ok trees) := by
  refine ⟨?_, ?_⟩
  · intro opening closing hopening hclosing tree
    have hctx : (Context.ofStream file (.ofList (opening :: (tokens ++ [closing])))).fault = none :=
      rfl
    have hbraced := statement_braced_iff hctx hopening hclosing tokens tree
    simp only [program_eq_ok_iff]
    exact TokenStream.statement_ok_iff.trans ((and_iff_right rfl).trans hbraced)
  · intro hpending trees
    have hctx : (Context.ofStream file (.ofList tokens)).fault = none := rfl
    have heach := eachStatement_eq_iff hctx hpending trees
    exact heach.trans (TokenStream.program_ok_iff.trans (and_iff_right rfl)).symm

/-- The statements `a` and `:b` behind a newline, of which the second one has no end of its own. -/
theorem loops_agree_separated :
    let token : Token.Kind → String → Token := fun kind text => ⟨kind, text, 1, 1, text, ""⟩
    let tokens := [token .newline "\n", token .name "a", token .semicolon ";",
      token .newline "\n", token .debugPrint ":", token .name "b"]
    let opening := token .leftCurly "\x7b"
    let closing := token .rightCurly "\x7d"
    ∃ trees, (opening.kind = .leftCurly ∧ closing.kind = .rightCurly ∧
        ∃ token ∈ tokens, token.kind ≠ .newline) ∧
      (TokenStream.ofList tokens).program "<input>" = .ok trees ∧ trees.length = 2 ∧
      (TokenStream.ofList tokens).each "<input>" = (trees, none) ∧
      (TokenStream.ofList (opening :: (tokens ++ [closing]))).statement "<input>" =
        .ok (.block trees (some opening)) := by
  intro token tokens opening closing
  have hother : ∃ token ∈ tokens, token.kind ≠ .newline :=
    ⟨token .name "a", List.mem_cons_of_mem _ List.mem_cons_self, by decide⟩
  obtain ⟨trees, hprogram, htrees⟩ : ∃ trees,
      (TokenStream.ofList tokens).program "<input>" = .ok trees ∧ trees.length = 2 :=
    ⟨_, by cbv, by cbv⟩
  obtain ⟨hbraces, heach⟩ := loops_agree "<input>" tokens
  refine ⟨trees, ⟨rfl, rfl, hother⟩, hprogram, htrees, ?_, ?_⟩
  · exact (heach (.inr hother) trees).2 hprogram
  · exact (hbraces opening closing rfl rfl _).2 ⟨trees, hprogram, rfl⟩

end Scriptlet.Parser
