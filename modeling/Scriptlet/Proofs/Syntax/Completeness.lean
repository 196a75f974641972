import Scriptlet.Proofs.Syntax.Soundness
/-!
# What the grammar derives is read

Followed by tokens that cannot extend it, every derivable piece of input is
consumed exactly and gives the derived tree.  Since the parser skips newlines
greedily while a derivation may hand them to a gap or to the expression behind
it, the procedures are first shown to be blind to newlines in front.
-/

namespace Scriptlet.Parser

open Grammar

variable {ctx : Context}

/-! ## Newlines in front -/

theorem dropWhile_newlines_append {gap : List Token} (hgap : Newlines gap)
    (tokens : List Token) :
    (gap ++ tokens).dropWhile isNewline = tokens.dropWhile isNewline := by
  induction gap with
  | nil => rfl
  | cons token gap ih =>
      obtain ⟨htoken, hgap⟩ := newlines_cons.1 hgap
      rw [List.cons_append, List.dropWhile_cons, if_pos (by simp [isNewline, htoken]), ih hgap]

theorem dropWhile_newlines_cons {token : Token} (htoken : token.kind ≠ .newline)
    (rest : List Token) : (token :: rest).dropWhile isNewline = token :: rest := by
  rw [List.dropWhile_cons, if_neg (by simp [isNewline, htoken])]

theorem dropWhile_newlines_idem (tokens : List Token) :
    (tokens.dropWhile isNewline).dropWhile isNewline = tokens.dropWhile isNewline := by
  have h := dropWhile_newlines_append (newlines_takeWhile tokens) (tokens.dropWhile isNewline)
  rw [List.takeWhile_append_dropWhile] at h
  exact h.symm

private theorem expression_plain_dropWhile (hctx : ctx.fault = none) (tokens : List Token) :
    Taken.plain (expression ctx (tokens.dropWhile isNewline)) =
      Taken.plain (expression ctx tokens) := by
  rw [expression_plain, expression_plain, factor_plain hctx, factor_plain hctx,
    dropWhile_newlines_idem]

theorem bareStatement_plain_dropWhile (hctx : ctx.fault = none) (tokens : List Token) :
    Taken.plain (bareStatement ctx (tokens.dropWhile isNewline)) =
      Taken.plain (bareStatement ctx tokens) := by
  rw [bareStatement_plain hctx, bareStatement_plain hctx, dropWhile_newlines_idem]

theorem statements_plain_dropWhile (hctx : ctx.fault = none) (tokens : List Token) :
    Read.plain (statements ctx (tokens.dropWhile isNewline)) =
      Read.plain (statements ctx tokens) := by
  rw [statements_plain hctx, statements_plain hctx, dropWhile_newlines_idem]

/-! ## Expressions -/

theorem factor_complete (hctx : ctx.fault = none) {token : Token} {leaf : Tree}
    (h : Factor token leaf) {gap : List Token} (hgap : Newlines gap) (rest : List Token) :
    Taken.plain (factor ctx (gap ++ token :: rest)) = .ok (leaf, rest) := by
  rw [factor_plain hctx, dropWhile_newlines_append hgap]
  cases h with
  | number hkind =>
      rw [dropWhile_newlines_cons (by simp [hkind])]
      simp [literalKind?, hkind]
  | truth hkind =>
      rw [dropWhile_newlines_cons (by simp [hkind])]
      simp [literalKind?, hkind]
  | text hkind =>
      rw [dropWhile_newlines_cons (by simp [hkind])]
      simp [literalKind?, hkind]
  | name hkind =>
      rw [dropWhile_newlines_cons (by simp [hkind])]
      simp [literalKind?, hkind]

/-- Behind its leading newlines an expression starts with one of its own tokens. -/
theorem expression_dropWhile {tokens : List Token} {tree : Tree} (h : Expression tokens tree)
    (rest : List Token) :
    ∃ token more, (tokens ++ rest).dropWhile isNewline = token :: more ∧
      startsExpression token.kind := by
  cases h with
  | @intro gap suffix token _ _ hgap hfactor _ =>
      have hstarts := hfactor.starts
      refine ⟨token, suffix ++ rest, ?_, hstarts⟩
      rw [List.append_assoc, dropWhile_newlines_append hgap, List.cons_append]
      apply dropWhile_newlines_cons
      rcases hstarts with h | h | h | h <;> rw [h] <;> decide

private theorem moreArguments_head {others : List Token} {values : List Tree}
    (h : MoreArguments others values) {closing : Token} (hclosing : closing.kind = .rightParen)
    (rest : List Token) :
    ∃ token more, others ++ closing :: rest = token :: more ∧
      (token.kind = .comma ∨ token.kind = .rightParen) := by
  cases h with
  | nil => exact ⟨closing, rest, rfl, Or.inr hclosing⟩
  | trailing hcomma => exact ⟨_, _, rfl, Or.inl hcomma⟩
  | cons hcomma => exact ⟨_, _, rfl, Or.inl hcomma⟩

private theorem arguments_complete_cons (hctx : ctx.fault = none) {first after others : List Token}
    {value : Tree} {values : List Tree} {closing : Token} {rest : List Token}
    (hfirst : Expression first value)
    (ihFirst : ∀ rest, Stops rest →
      Taken.plain (expression ctx (first ++ rest)) = .ok (value, rest))
    (hafter : Newlines after) (hothers : MoreArguments others values)
    (ihOthers : argumentsAfter ctx value (others ++ closing :: rest) =
      .ok (value :: values, closing :: rest))
    (hclosing : closing.kind = .rightParen) :
    Read.plain (arguments ctx
        ((first ++ (after ++ (others ++ closing :: rest))).dropWhile isNewline)) =
      .ok (value :: values, closing :: rest) := by
  obtain ⟨next, more, hnext, hnextKind⟩ := moreArguments_head hothers hclosing rest
  have hstops : Stops (after ++ (others ++ closing :: rest)) := by
    apply stops_newlines_append hafter
    rw [hnext, stops_cons]
    rcases hnextKind with h | h <;> rw [h] <;> decide
  have hdrop : (after ++ (others ++ closing :: rest)).dropWhile isNewline =
      others ++ closing :: rest := by
    rw [dropWhile_newlines_append hafter, hnext]
    apply dropWhile_newlines_cons
    rcases hnextKind with h | h <;> rw [h] <;> decide
  have hread := ihFirst _ hstops
  rw [← expression_plain_dropWhile hctx] at hread
  obtain ⟨token, tail, hhead, hstarts⟩ :=
    expression_dropWhile hfirst (after ++ (others ++ closing :: rest))
  rw [hhead] at hread ⊢
  have hparen : token.kind ≠ .rightParen := by
    rcases hstarts with h | h | h | h <;> rw [h] <;> decide
  rw [arguments_plain_cons hctx, if_neg hparen, hread, ok_bind]
  dsimp only
  rw [hdrop, ihOthers]

theorem expression_complete (hctx : ctx.fault = none) {tokens : List Token} {tree : Tree}
    (h : Expression tokens tree) :
    ∀ rest, Stops rest → Taken.plain (expression ctx (tokens ++ rest)) = .ok (tree, rest) := by
  refine @Expression.rec
    (fun tokens tree _ => ∀ rest, Stops rest →
      Taken.plain (expression ctx (tokens ++ rest)) = .ok (tree, rest))
    (fun leaf tokens tree _ => ∀ rest, Stops rest →
      Read.plain (suffixes ctx leaf (tokens ++ rest)) = .ok (tree, rest))
    (fun tokens values _ => ∀ closing rest, closing.kind = .rightParen →
      Read.plain (arguments ctx ((tokens ++ closing :: rest).dropWhile isNewline)) =
        .ok (values, closing :: rest))
    (fun tokens values _ => ∀ first closing rest, closing.kind = .rightParen →
      argumentsAfter ctx first (tokens ++ closing :: rest) =
        .ok (first :: values, closing :: rest))
    ?intro ?nil ?assign ?call ?none ?some ?last ?trailing ?next tokens tree h
  case intro =>
    intro gap suffix token leaf tree hgap hfactor _ ih rest hrest
    rw [expression_plain, List.append_assoc, List.cons_append,
      factor_complete hctx hfactor hgap, ok_bind]
    exact ih rest hrest
  case nil =>
    intro tree rest hrest
    exact suffixes_plain_of_stops hctx tree hrest
  case assign =>
    intro target value equals right hequals _ ih rest hrest
    rw [List.cons_append, suffixes_plain_cons hctx, if_pos hequals, ih rest hrest, ok_bind]
    exact suffixes_plain_of_stops hctx _ hrest
  case call =>
    intro callee tree values opening closing inside others hopening _ hclosing _ ihInside ihOthers
      rest hrest
    have hassign : opening.kind ≠ .assign := by rw [hopening]; decide
    rw [List.cons_append, List.append_assoc, List.cons_append, suffixes_plain_cons hctx,
      if_neg hassign, if_pos hopening, ihInside closing _ hclosing, ok_bind]
    dsimp only
    rw [expect_plain_cons, if_pos hclosing, ok_bind]
    exact ihOthers rest hrest
  case none =>
    intro gap hgap closing rest hclosing
    rw [dropWhile_newlines_append hgap, dropWhile_newlines_cons (by simp [hclosing]),
      arguments_plain_cons hctx, if_pos hclosing]
  case some =>
    intro gap first after others value values hgap hfirst hafter hothers ihFirst ihOthers
      closing rest hclosing
    have h := arguments_complete_cons hctx hfirst ihFirst hafter hothers
      (ihOthers value closing rest hclosing) hclosing
    rw [List.append_assoc, dropWhile_newlines_append hgap, List.append_assoc, List.append_assoc]
    exact h
  case last =>
    intro first closing rest hclosing
    rw [List.nil_append, argumentsAfter, if_neg (by simp [hclosing])]
  case trailing =>
    intro comma gap hcomma hgap first closing rest hclosing
    rw [List.cons_append, argumentsAfter, if_pos hcomma, dropWhile_newlines_append hgap,
      dropWhile_newlines_cons (by simp [hclosing]), arguments_plain_cons hctx, if_pos hclosing]
    rfl
  case next =>
    intro comma gap next after others value values hcomma hgap hnext hafter hothers ihNext
      ihOthers first closing rest hclosing
    have h := arguments_complete_cons hctx hnext ihNext hafter hothers
      (ihOthers value closing rest hclosing) hclosing
    rw [List.cons_append, argumentsAfter, if_pos hcomma, List.append_assoc,
      dropWhile_newlines_append hgap, List.append_assoc, List.append_assoc, h]
    rfl

/-! ## Statements -/

private theorem closes_dropWhile {tokens : List Token} (h : Closes tokens) :
    tokens.dropWhile isNewline = tokens := by
  cases tokens with
  | nil => rfl
  | cons token rest =>
      have hkind : token.kind = .rightCurly := h token (by simp)
      exact dropWhile_newlines_cons (by simp [hkind]) rest

private theorem closes_stops {tokens : List Token} (h : Closes tokens) : Stops tokens := by
  intro token htoken
  rw [h token htoken]
  decide

/-- Behind its leading newlines a statement does not start with a closing brace. -/
theorem statement_dropWhile {tokens : List Token} {tree : Tree} (h : Statement tokens tree)
    (rest : List Token) :
    ∃ token more, (tokens ++ rest).dropWhile isNewline = token :: more ∧
      token.kind ≠ .rightCurly := by
  cases h with
  | declaration hkeyword =>
      exact ⟨_, _, dropWhile_newlines_cons (by simp [hkeyword]) _, by simp [hkeyword]⟩
  | block hopening =>
      exact ⟨_, _, dropWhile_newlines_cons (by simp [hopening]) _, by simp [hopening]⟩
  | conditional hkeyword =>
      exact ⟨_, _, dropWhile_newlines_cons (by simp [hkeyword]) _, by simp [hkeyword]⟩
  | debugPrint hmarker =>
      exact ⟨_, _, dropWhile_newlines_cons (by simp [hmarker]) _, by simp [hmarker]⟩
  | expression hexpression =>
      obtain ⟨token, more, hdrop, hstarts⟩ := expression_dropWhile hexpression rest
      refine ⟨token, more, hdrop, ?_⟩
      rcases hstarts with h | h | h | h <;> rw [h] <;> decide

private theorem moreStatements_stops {others rest : List Token} {trees : List Tree}
    (h : MoreStatements others trees) (hrest : Closes rest) : Stops (others ++ rest) := by
  cases h with
  | nil => exact closes_stops hrest
  | trailing hseparator => exact hseparator.stops_append rest
  | cons hseparator =>
      rw [List.append_assoc]
      exact hseparator.stops_append _

def statementsAfter (ctx : Context) (tokens : List Token) :
    Except Diagnostic (List Tree × List Token) := do
  let left ← Left.plain (terminator ctx tokens)
  Read.plain (statements ctx left)

theorem statementsAfter_separator (hctx : ctx.fault = none) {separator : List Token}
    (h : Separator separator) (rest : List Token) :
    statementsAfter ctx (separator ++ rest) = Read.plain (statements ctx rest) := by
  cases h with
  | semicolon hkind hgap =>
      rw [statementsAfter, List.cons_append, terminator_plain_cons hctx, if_pos (Or.inl hkind),
        ok_bind, statements_plain_dropWhile hctx, statements_plain hctx, statements_plain hctx,
        dropWhile_newlines_append hgap]
  | newline hkind hgap =>
      rw [statementsAfter, List.cons_append, terminator_plain_cons hctx, if_pos (Or.inr hkind),
        ok_bind, statements_plain_dropWhile hctx, statements_plain hctx, statements_plain hctx,
        dropWhile_newlines_append hgap]

theorem statementsAfter_closes (hctx : ctx.fault = none) {tokens : List Token}
    (h : Closes tokens) : statementsAfter ctx tokens = .ok ([], tokens) := by
  have hend : Left.plain (terminator ctx tokens) = .ok tokens := by
    cases tokens with
    | nil => exact terminator_plain_nil hctx
    | cons token rest =>
        have hkind : token.kind = .rightCurly := h token (by simp)
        rw [terminator_plain_cons hctx, if_neg (by simp [hkind]), if_pos hkind]
  rw [statementsAfter, hend, ok_bind, statements_plain_of_closes hctx h]

private theorem statements_complete_cons (hctx : ctx.fault = none) {first others rest : List Token}
    {tree : Tree} {trees : List Tree} (hfirst : Statement first tree)
    (ihFirst : ∀ rest, Stops rest →
      Taken.plain (bareStatement ctx (first ++ rest)) = .ok (tree, rest))
    (hothers : MoreStatements others trees)
    (ihOthers : statementsAfter ctx (others ++ rest) = .ok (trees, rest))
    (hrest : Closes rest) :
    Read.plain (statements ctx (first ++ (others ++ rest))) = .ok (tree :: trees, rest) := by
  have hread := ihFirst _ (moreStatements_stops hothers hrest)
  rw [← bareStatement_plain_dropWhile hctx] at hread
  obtain ⟨token, more, hhead, hkind⟩ := statement_dropWhile hfirst (others ++ rest)
  rw [hhead] at hread
  rw [statements_plain hctx, hhead]
  dsimp only
  rw [if_neg hkind, statement_plain, hread, ok_bind]
  dsimp only
  rw [statementsAfter] at ihOthers
  cases hend : Left.plain (terminator ctx (others ++ rest)) with
  | error d => simp [hend] at ihOthers
  | ok left =>
      rw [hend, ok_bind] at ihOthers
      change (Read.plain (statements ctx left) >>= fun read =>
        pure (tree :: read.1, read.2)) = _
      rw [ihOthers]
      rfl

theorem statements_complete (hctx : ctx.fault = none) {tokens : List Token} {trees : List Tree}
    (h : Statements tokens trees) :
    ∀ rest, Closes rest → Read.plain (statements ctx (tokens ++ rest)) = .ok (trees, rest) := by
  refine @Statements.rec
    (fun tokens tree _ => ∀ rest, Stops rest →
      Taken.plain (bareStatement ctx (tokens ++ rest)) = .ok (tree, rest))
    (fun tokens trees _ => ∀ rest, Closes rest →
      Read.plain (statements ctx (tokens ++ rest)) = .ok (trees, rest))
    (fun tokens trees _ => ∀ rest, Closes rest →
      statementsAfter ctx (tokens ++ rest) = .ok (trees, rest))
    ?declaration ?block ?conditional ?debugPrint ?expression ?none ?some ?last ?trailing ?next
    tokens trees h
  case declaration =>
    intro keyword name equals gap right value hkeyword hgap hname hequals hright rest hrest
    rw [bareStatement_plain hctx, List.cons_append,
      dropWhile_newlines_cons (by simp [hkeyword])]
    dsimp only
    rw [if_pos hkeyword, List.append_assoc, dropWhile_newlines_append hgap, List.cons_append,
      dropWhile_newlines_cons (by simp [hname]), expect_plain_cons, if_pos hname, ok_bind]
    dsimp only
    rw [List.cons_append, expect_plain_cons, if_pos hequals, ok_bind]
    dsimp only
    rw [expression_complete hctx hright rest hrest]
    rfl
  case block =>
    intro opening closing inside trees hopening _ hclosing ih rest _
    rw [bareStatement_plain hctx, List.cons_append,
      dropWhile_newlines_cons (by simp [hopening])]
    dsimp only
    rw [if_neg (by simp [hopening]), if_pos hopening, List.append_assoc,
      ih _ (by simp [Closes, hclosing]), ok_bind]
    dsimp only
    rw [List.cons_append, expect_plain_cons, if_pos hclosing]
    rfl
  case conditional =>
    intro keyword test gap inner condition body hkeyword htest hgap hinner ih rest hrest
    rw [bareStatement_plain hctx, List.cons_append,
      dropWhile_newlines_cons (by simp [hkeyword])]
    dsimp only
    have hstops : Stops (gap ++ (inner ++ rest)) :=
      stops_newlines_append hgap (hinner.stops_append rest)
    rw [if_neg (by simp [hkeyword]), if_neg (by simp [hkeyword]), if_pos hkeyword,
      List.append_assoc, List.append_assoc, expression_complete hctx htest _ hstops, ok_bind]
    dsimp only
    rw [← bareStatement_plain_dropWhile hctx, dropWhile_newlines_append hgap,
      bareStatement_plain_dropWhile hctx, ih rest hrest]
    rfl
  case debugPrint =>
    intro marker inner operand hmarker hinner rest hrest
    rw [bareStatement_plain hctx, List.cons_append,
      dropWhile_newlines_cons (by simp [hmarker])]
    dsimp only
    rw [if_neg (by simp [hmarker]), if_neg (by simp [hmarker]), if_neg (by simp [hmarker]),
      if_pos hmarker, expression_complete hctx hinner rest hrest]
    rfl
  case expression =>
    intro tokens tree hexpression rest hrest
    obtain ⟨token, more, hdrop, hstarts⟩ := expression_dropWhile hexpression rest
    have hread := expression_complete hctx hexpression rest hrest
    rw [← expression_plain_dropWhile hctx, hdrop] at hread
    rw [bareStatement_plain hctx, hdrop]
    dsimp only
    rcases hstarts with h | h | h | h <;>
      rw [if_neg (by simp [h]), if_neg (by simp [h]), if_neg (by simp [h]), if_neg (by simp [h]),
        hread]
  case none =>
    intro gap hgap rest hrest
    rw [← statements_plain_dropWhile hctx, dropWhile_newlines_append hgap,
      closes_dropWhile hrest, statements_plain_of_closes hctx hrest]
  case some =>
    intro gap first others tree trees hgap hfirst hothers ihFirst ihOthers rest hrest
    rw [← statements_plain_dropWhile hctx, List.append_assoc, dropWhile_newlines_append hgap,
      statements_plain_dropWhile hctx, List.append_assoc]
    exact statements_complete_cons hctx hfirst ihFirst hothers (ihOthers rest hrest) hrest
  case last =>
    intro rest hrest
    exact statementsAfter_closes hctx hrest
  case trailing =>
    intro separator hseparator rest hrest
    rw [statementsAfter_separator hctx hseparator, statements_plain_of_closes hctx hrest]
  case next =>
    intro separator next others tree trees hseparator hnext hothers ihNext ihOthers rest hrest
    rw [List.append_assoc, statementsAfter_separator hctx hseparator, List.append_assoc]
    exact statements_complete_cons hctx hnext ihNext hothers (ihOthers rest hrest) hrest

/-- A derivable program is accepted with the derived trees. -/
theorem program_complete (file : String) {tokens : List Token} {trees : List Tree}
    (h : Statements tokens trees) : (TokenStream.ofList tokens).program file = .ok trees := by
  have hctx : (Context.ofStream file (.ofList tokens)).fault = none := rfl
  have hread := statements_complete hctx h [] (by simp [Closes])
  rw [List.append_nil] at hread
  rw [program_plain file rfl, show (TokenStream.ofList tokens).tokens = tokens from rfl, hread]
  rfl

end Scriptlet.Parser
