import Mathlib.Data.List.Nodup
import Scriptlet.Proofs.Syntax.Foresight
import Scriptlet.Proofs.Syntax.Recognition
/-!
# Where syntactic faults are found

Every procedure of the parser foresees one token.  So a token is refused as soon
as no accepted program starts with the tokens up to it, and the end of the input
is refused only where the program could have gone on.
-/

namespace Scriptlet

theorem Token.Kind.label_inj {kind other : Token.Kind} (h : kind.label = other.label) :
    kind = other := by
  have hnodup : (all.map label).Nodup := by decide
  have hall : ∀ kind : Token.Kind, kind ∈ all := by
    intro kind
    cases kind <;> decide
  exact List.inj_on_of_nodup_map hnodup (hall kind) (hall other) h

namespace Parser

open Grammar

variable {ctx : Context} {tokens : List Token}

/-! ## Single tokens -/

def sample (kind : Token.Kind) : Token where
  kind := kind
  text := ""
  line := 0
  column := 0
  lexeme := ""
  file := ""

theorem expression_sample : Expression [sample .name] (.reference (sample .name)) :=
  .intro newlines_nil (.name rfl) .nil

theorem expect_foresees (kind : Token.Kind) (hint : String) (tokens : List Token) :
    Foresees (fun ctx tokens => Taken.plain (expect ctx kind hint tokens))
      (fun used token => used = [token] ∧ token.kind = kind) (fun _ => True) ctx tokens := by
  have hcomplete : Completable (fun used token => used = [token] ∧ token.kind = kind) [] :=
    ⟨[sample kind], sample kind, rfl, rfl⟩
  have hinvites : Invites (fun used token => used = [token] ∧ token.kind = kind) []
      [kind.label] := by
    intro other hlabel token htoken
    rw [Token.Kind.label_inj (List.mem_singleton.1 hlabel)] at htoken
    exact ⟨[], token, rfl, htoken⟩
  cases tokens with
  | nil => exact .of_halts rfl (.ended hcomplete hinvites)
  | cons token rest =>
      have hread := fun ctx => expect_plain_cons ctx kind hint token
      by_cases hkind : token.kind = kind
      · exact .of_ok [token] ((hread ctx rest).trans (if_pos hkind)) rfl ⟨rfl, hkind⟩ trivial
          fun ctx' rest' _ _ => (hread ctx' rest').trans (if_pos hkind)
      · exact .of_halts ((hread ctx rest).trans (if_neg hkind))
          (.token [] rest rfl hcomplete hinvites
            fun ctx' rest' _ => (hread ctx' rest').trans (if_neg hkind))

private theorem factor_foresees (hctx : ctx.fault = none) (tokens : List Token) :
    Foresees (fun ctx tokens => Taken.plain (factor ctx tokens))
      (fun used leaf => ∃ gap token, used = gap ++ [token] ∧ Newlines gap ∧ Factor token leaf)
      (fun _ => True) ctx tokens := by
  have hgap := newlines_takeWhile tokens
  have hsplit := List.takeWhile_append_dropWhile (p := isNewline) (l := tokens)
  have hnot := List.head?_dropWhile_not isNewline tokens
  cases hrest : tokens.dropWhile isNewline with
  | nil =>
      rw [hrest, List.append_nil] at hsplit
      rw [hsplit] at hgap
      have hread : Taken.plain (factor ctx tokens) = .error (ctx.ended ["expression"] "") := by
        rw [factor_plain hctx, hrest]
      exact .of_halts hread
        (.ended ⟨[sample .name], _, tokens, _, rfl, hgap, .name rfl⟩ (invites_expression _ _))
  | cons token rest =>
      rw [hrest] at hsplit hnot
      have hkind : token.kind ≠ .newline := by simpa [isNewline] using hnot
      by_cases hfactor : ∃ leaf, Factor token leaf
      · obtain ⟨leaf, hfactor⟩ := hfactor
        have hsame : ∀ ctx' rest', ctx'.fault = none →
            Taken.plain (factor ctx' (tokens.takeWhile isNewline ++ token :: rest')) =
              .ok (leaf, rest') :=
          fun ctx' rest' hctx' => factor_complete hctx' hfactor hgap rest'
        have hread := hsame ctx rest hctx
        rw [hsplit] at hread
        refine .of_ok (tokens.takeWhile isNewline ++ [token]) hread ?_
          ⟨_, token, rfl, hgap, hfactor⟩ trivial ?_
        · rw [List.append_assoc]
          exact hsplit.symm
        · intro ctx' rest' hctx' _
          rw [List.append_assoc]
          exact hsame ctx' rest' hctx'
      · have hsame : ∀ ctx' rest', ctx'.fault = none →
            Taken.plain (factor ctx' (tokens.takeWhile isNewline ++ token :: rest')) =
              .error (unexpected token ["expression"] "") := by
          intro ctx' rest' hctx'
          rw [factor_plain hctx', dropWhile_newlines_append hgap, dropWhile_newlines_cons hkind]
          dsimp only
          cases hliteral : literalKind? token.kind with
          | some kind => exact absurd ⟨_, factor_of_literalKind? hliteral⟩ hfactor
          | none =>
              dsimp only
              rw [if_neg fun hname => hfactor ⟨_, .name hname⟩]
        refine .of_halts ?_ (.token _ rest hsplit.symm
          ⟨[sample .name], _, _, _, rfl, hgap, .name rfl⟩ (invites_expression _ _) hsame)
        rw [← hsame ctx rest hctx, hsplit]

/-! ## Expressions -/

private theorem suffixes_foresees_of_stops (hctx : ctx.fault = none) (tree : Tree)
    (h : Stops tokens) :
    Foresees (fun ctx tokens => Read.plain (suffixes ctx tree tokens))
      (fun used result => used = [] ∧ result = tree) Stops ctx tokens := by
  refine .of_unread hctx ⟨rfl, rfl⟩ h fun ctx' rest' hctx' hhead => ?_
  have hstops : Stops rest' := by
    rw [Stops, hhead]
    exact h
  exact suffixes_plain_of_stops hctx' tree hstops

/-- The three procedures for expressions foresee one token on inputs of bounded length. -/
structure ExpressionsForesee (bound : Nat) : Prop where
  expression : ∀ (ctx : Context) (tokens : List Token), ctx.fault = none → tokens.length < bound →
    Foresees (fun ctx tokens => Taken.plain (expression ctx tokens)) Expression Stops ctx tokens
  suffixes : ∀ (ctx : Context) (tree : Tree) (tokens : List Token), ctx.fault = none →
    tokens.length < bound →
    Foresees (fun ctx tokens => Read.plain (suffixes ctx tree tokens)) (Suffix tree) Stops ctx
      tokens
  arguments : ∀ (ctx : Context) (tokens : List Token), ctx.fault = none → tokens.length < bound →
    Foresees (fun ctx tokens => Read.plain (arguments ctx tokens)) Arguments (fun _ => True) ctx
      tokens

private theorem expression_foresees_step (hctx : ctx.fault = none) {bound : Nat}
    (ih : ExpressionsForesee bound) (tokens : List Token) (hlength : tokens.length < bound + 1) :
    Foresees (fun ctx tokens => Taken.plain (expression ctx tokens)) Expression Stops ctx
      tokens := by
  refine .congr ?_ hctx fun ctx' tokens' _ _ => expression_plain ctx' tokens'
  refine (factor_foresees hctx tokens).bind ?_ ?_
  · rintro _ leaf ⟨gap, token, rfl, hgap, hfactor⟩
    exact ⟨[], leaf, expression_of_leaf hgap hfactor .nil⟩
  · rintro leaf _ rest hleaf - ⟨gap, token, rfl, hgap, hfactor⟩ -
    have hrest : rest.length < bound := by
      have h := Taken.length_lt hleaf
      omega
    refine (ih.suffixes ctx leaf rest hctx hrest).mono ?_ (fun _ h => h)
    intro suffix tree hsuffix
    exact expression_of_leaf hgap hfactor hsuffix

private theorem suffixes_foresees_step (hctx : ctx.fault = none) {bound : Nat}
    (ih : ExpressionsForesee bound) (tree : Tree) (tokens : List Token)
    (hlength : tokens.length < bound + 1) :
    Foresees (fun ctx tokens => Read.plain (suffixes ctx tree tokens)) (Suffix tree) Stops ctx
      tokens := by
  by_cases hstops : Stops tokens
  · refine (suffixes_foresees_of_stops hctx tree hstops).mono ?_ (fun _ h => h)
    rintro _ _ ⟨rfl, rfl⟩
    exact .nil
  cases tokens with
  | nil => exact absurd stops_nil hstops
  | cons token rest =>
      have hrest : rest.length < bound := Nat.lt_of_succ_lt_succ hlength
      have hread := fun ctx (hctx : Context.fault ctx = none) => suffixes_plain_cons hctx tree token
      apply Foresees.cons
      by_cases hassign : token.kind = .assign
      · refine .congr ?_ hctx fun ctx' rest' hctx' _ =>
          (hread ctx' hctx' rest').trans (if_pos hassign)
        refine (ih.expression ctx rest hctx hrest).bind ?_ ?_
        · intro used value hvalue
          exact ⟨[], _, by rw [List.append_nil]; exact .assign hassign hvalue⟩
        · intro value used left _ _ hvalue hleft
          refine (suffixes_foresees_of_stops hctx _ hleft).mono ?_ (fun _ h => h)
          rintro _ _ ⟨rfl, rfl⟩
          rw [List.append_nil]
          exact .assign hassign hvalue
      · have hparen : token.kind = .leftParen := by
          by_contra hparen
          exact hstops (stops_cons.2 ⟨hassign, hparen⟩)
        have hinside := Nat.lt_of_le_of_lt (length_dropWhile_newlines rest) hrest
        refine .congr ?_ hctx fun ctx' rest' hctx' _ =>
          (hread ctx' hctx' rest').trans ((if_neg hassign).trans (if_pos hparen))
        refine Foresees.bind ((ih.arguments ctx _ hctx hinside).skipped hctx (fun _ _ _ => rfl)
          fun _ _ _ => arguments_newlines_append) ?_ ?_
        · intro used values hvalues
          exact ⟨[sample .rightParen], _, .call hparen hvalues rfl .nil⟩
        intro values used left _ hleft hvalues _
        refine (expect_foresees .rightParen "Unclosed argument list" left).bind ?_ ?_
        · rintro _ closing ⟨rfl, hclosing⟩
          exact ⟨[], _, .call hparen hvalues hclosing .nil⟩
        · rintro closing _ last - hlast ⟨rfl, hclosing⟩ -
          have hbound : last.length < bound := by
            have h := congrArg List.length hleft
            simp only [hlast, List.length_append, List.length_cons] at h
            omega
          refine (ih.suffixes ctx _ last hctx hbound).mono ?_ (fun _ h => h)
          intro others result hothers
          have h := Suffix.call hparen hvalues hclosing hothers
          simpa using h

private theorem argumentsAfter_of_not_comma (ctx : Context) (first : Tree)
    (h : ∀ token ∈ tokens.head?, token.kind ≠ .comma) :
    argumentsAfter ctx first tokens = .ok ([first], tokens) := by
  cases tokens with
  | nil => rfl
  | cons token rest => exact if_neg (h token rfl)

private theorem argumentsAfter_foresees (hctx : ctx.fault = none) {bound : Nat}
    (ih : ExpressionsForesee bound) (first : Tree) (tokens : List Token)
    (hlength : tokens.length < bound) :
    Foresees (fun ctx tokens => argumentsAfter ctx first tokens)
      (fun used values => ∃ others, values = first :: others ∧ MoreArguments used others)
      (fun _ => True) ctx tokens := by
  by_cases hend : ∀ token ∈ tokens.head?, token.kind ≠ .comma
  · refine .of_unread hctx ⟨[], rfl, .nil⟩ trivial fun ctx' rest' _ hhead => ?_
    exact argumentsAfter_of_not_comma ctx' first (by rw [hhead]; exact hend)
  cases tokens with
  | nil => exact absurd (by simp) hend
  | cons comma rest =>
      have hcomma : comma.kind = .comma := by simpa using hend
      have hinside : (rest.dropWhile isNewline).length < bound :=
        Nat.lt_of_le_of_lt (length_dropWhile_newlines rest) (Nat.lt_of_succ_lt hlength)
      have hmore : ∀ {inside : List Token} {others : List Tree}, Arguments inside others →
          MoreArguments (comma :: inside) others :=
        fun h => moreArguments_of_comma hcomma newlines_nil h
      apply Foresees.cons
      refine .congr ?_ hctx fun ctx' rest' _ _ => if_pos hcomma
      refine Foresees.bind ((ih.arguments ctx _ hctx hinside).skipped hctx (fun _ _ _ => rfl)
        fun _ _ _ => arguments_newlines_append) ?_ ?_
      · intro used others hothers
        exact ⟨[], _, others, rfl, by rw [List.append_nil]; exact hmore hothers⟩
      · intro others used last _ _ hothers _
        exact foresees_ok ⟨others, rfl, by rw [List.append_nil]; exact hmore hothers⟩ trivial

private theorem arguments_plain_of_closed (hctx : ctx.fault = none)
    (h : ∀ token ∈ tokens.head?, token.kind = .rightParen) :
    Read.plain (arguments ctx tokens) = .ok ([], tokens) := by
  cases tokens with
  | nil => exact arguments_plain_nil hctx
  | cons token rest => rw [arguments_plain_cons hctx, if_pos (h token rfl)]

private theorem arguments_foresees_step (hctx : ctx.fault = none) {bound : Nat}
    (ih : ExpressionsForesee bound) (tokens : List Token) (hlength : tokens.length < bound + 1) :
    Foresees (fun ctx tokens => Read.plain (arguments ctx tokens)) Arguments (fun _ => True) ctx
      tokens := by
  by_cases hend : ∀ token ∈ tokens.head?, token.kind = .rightParen
  · refine .of_unread hctx (.nil newlines_nil) trivial fun ctx' rest' hctx' hhead => ?_
    exact arguments_plain_of_closed hctx' (by rw [hhead]; exact hend)
  cases tokens with
  | nil => exact absurd (by simp) hend
  | cons token rest =>
      have hparen : token.kind ≠ .rightParen := by simpa using hend
      have hstep : Foresees (fun ctx tokens => Taken.plain (expression ctx tokens) >>= fun read =>
          argumentsAfter ctx read.1 (read.2.dropWhile isNewline)) Arguments (fun _ => True) ctx
          (token :: rest) := by
        refine (expression_foresees_step hctx ih (token :: rest) hlength).bind ?_ ?_
        · intro used first hfirst
          have h := Arguments.cons newlines_nil hfirst newlines_nil .nil
          exact ⟨[], [first], by simpa using h⟩
        · intro first used left hleft _ hfirst _
          have hbound : (left.dropWhile isNewline).length < bound := by
            have h := Taken.length_lt hleft
            have hdrop := length_dropWhile_newlines left
            omega
          refine (argumentsAfter_foresees hctx ih first _ hbound).skipped hctx
            (fun _ _ _ => rfl) ?_
          rintro gap inner _ hgap ⟨others, rfl, hothers⟩
          exact .cons newlines_nil hfirst hgap hothers
      refine hstep.congr hctx fun ctx' tokens' hctx' hhead => ?_
      obtain ⟨more, rfl⟩ := List.head?_eq_some_iff.1 hhead
      exact (arguments_plain_cons hctx' token more).trans (if_neg hparen)

private theorem expressionsForesee (bound : Nat) : ExpressionsForesee bound := by
  induction bound with
  | zero =>
      exact ⟨fun _ _ _ h => absurd h (Nat.not_lt_zero _), fun _ _ _ _ h =>
        absurd h (Nat.not_lt_zero _), fun _ _ _ h => absurd h (Nat.not_lt_zero _)⟩
  | succ bound ih =>
      exact ⟨fun _ tokens hctx => expression_foresees_step hctx ih tokens,
        fun _ tree tokens hctx => suffixes_foresees_step hctx ih tree tokens,
        fun _ tokens hctx => arguments_foresees_step hctx ih tokens⟩

theorem expression_foresees (hctx : ctx.fault = none) (tokens : List Token) :
    Foresees (fun ctx tokens => Taken.plain (expression ctx tokens)) Expression Stops ctx tokens :=
  (expressionsForesee (tokens.length + 1)).expression ctx tokens hctx (Nat.lt_succ_self _)

/-! ## Statements -/

structure StatementsForesee (bound : Nat) : Prop where
  bareStatement : ∀ (ctx : Context) (tokens : List Token), ctx.fault = none →
    tokens.length < bound →
    Foresees (fun ctx tokens => Taken.plain (bareStatement ctx tokens)) Spaced (fun _ => True) ctx
      tokens
  statements : ∀ (ctx : Context) (tokens : List Token), ctx.fault = none → tokens.length < bound →
    Foresees (fun ctx tokens => Read.plain (statements ctx tokens)) Statements Closes ctx tokens

private theorem statementsAfter_foresees (hctx : ctx.fault = none) {bound : Nat}
    (ih : StatementsForesee bound) (tokens : List Token) (hlength : tokens.length < bound) :
    Foresees statementsAfter MoreStatements Closes ctx tokens := by
  by_cases hcloses : Closes tokens
  · refine .of_unread hctx .nil hcloses fun ctx' rest' hctx' hhead => ?_
    exact statementsAfter_closes hctx' (by rw [Closes, hhead]; exact hcloses)
  cases tokens with
  | nil => exact absurd (by simp [Closes]) hcloses
  | cons token rest =>
      have hcurly : token.kind ≠ .rightCurly := by simpa [Closes] using hcloses
      by_cases hend : token.kind = .semicolon ∨ token.kind = .newline
      · have hseparator : Separator [token] := by
          rcases hend with hkind | hkind
          · exact .semicolon hkind newlines_nil
          · exact .newline hkind newlines_nil
        apply Foresees.cons
        refine .congr ?_ hctx fun ctx' rest' hctx' _ =>
          statementsAfter_separator hctx' hseparator rest'
        exact (ih.statements ctx rest hctx (Nat.lt_of_succ_lt hlength)).mono
          (fun _ _ h => moreStatements_of_separator hseparator h) (fun _ h => h)
      · have hread : ∀ ctx' rest', ctx'.fault = none →
            statementsAfter ctx' (token :: rest') = .error (unexpected token
              [Token.Kind.newline.label] "Statements are terminated by ';' or a newline") := by
          intro ctx' rest' hctx'
          rw [statementsAfter, terminator_plain_cons hctx', if_neg hend, if_neg hcurly]
          rfl
        refine .of_halts (hread ctx rest hctx) (.token [] rest rfl ⟨[], [], .nil⟩ ?_ hread)
        intro kind hkind other hother
        rw [Token.Kind.label_inj (List.mem_singleton.1 hkind)] at hother
        exact ⟨[], [], .trailing (.newline hother newlines_nil)⟩

private theorem bareStatement_foresees_cons (hctx : ctx.fault = none) {bound : Nat}
    (ih : StatementsForesee bound) (token : Token) (rest : List Token)
    (hkind : token.kind ≠ .newline) (hlength : rest.length < bound) :
    Foresees (fun ctx tokens => Taken.plain (bareStatement ctx tokens)) Statement (fun _ => True)
      ctx (token :: rest) := by
  have hread := fun ctx (hctx : Context.fault ctx = none) rest =>
    bareStatement_plain hctx (token :: rest)
  simp only [dropWhile_newlines_cons hkind] at hread
  by_cases hvar : token.kind = .var
  · have hname : Foresees (fun ctx rest => Taken.plain
        (expect ctx .name "Expected a variable name after 'var'" (rest.dropWhile isNewline)))
        (fun used name => ∃ gap, used = gap ++ [name] ∧ Newlines gap ∧ name.kind = .name)
        (fun _ => True) ctx rest := by
      refine (expect_foresees _ _ _).skipped hctx (fun _ _ _ => rfl) ?_
      rintro gap _ name hgap ⟨rfl, hname⟩
      exact ⟨gap, rfl, hgap, hname⟩
    apply Foresees.cons
    refine .congr ?_ hctx fun ctx' rest' hctx' _ => (hread ctx' hctx' rest').trans (if_pos hvar)
    refine hname.bind ?_ ?_
    · rintro _ name ⟨gap, rfl, hgap, hname⟩
      have hequals : (sample .assign).kind = .assign := rfl
      have h := Statement.declaration hvar hgap hname hequals expression_sample
      exact ⟨[sample .assign, sample .name], _, by simpa using h⟩
    rintro name _ atAssign - - ⟨gap, rfl, hgap, hname⟩ -
    dsimp only
    refine (expect_foresees _ _ _).bind ?_ ?_
    · rintro _ equals ⟨rfl, hequals⟩
      have h := Statement.declaration hvar hgap hname hequals expression_sample
      exact ⟨[sample .name], _, by simpa using h⟩
    rintro equals _ atValue - - ⟨rfl, hequals⟩ -
    refine (expression_foresees hctx atValue).bind ?_ ?_
    · intro used value hvalue
      have h := Statement.declaration hvar hgap hname hequals hvalue
      exact ⟨[], _, by simpa using h⟩
    · intro value used left _ _ hvalue _
      have h := Statement.declaration hvar hgap hname hequals hvalue
      dsimp only
      exact foresees_ok (by simpa using h) trivial
  by_cases hcurly : token.kind = .leftCurly
  · apply Foresees.cons
    refine .congr ?_ hctx fun ctx' rest' hctx' _ =>
      (hread ctx' hctx' rest').trans ((if_neg hvar).trans (if_pos hcurly))
    refine (ih.statements ctx rest hctx hlength).bind ?_ ?_
    · intro used body hbody
      exact ⟨[sample .rightCurly], _, .block hcurly hbody rfl⟩
    intro body used atClose _ _ hbody _
    dsimp only
    refine (expect_foresees _ _ _).bind ?_ ?_
    · rintro _ closing ⟨rfl, hclosing⟩
      exact ⟨[], _, .block hcurly hbody hclosing⟩
    · rintro closing _ left - - ⟨rfl, hclosing⟩ -
      exact foresees_ok (.block hcurly hbody hclosing) trivial
  by_cases hif : token.kind = .if_
  · apply Foresees.cons
    refine .congr ?_ hctx fun ctx' rest' hctx' _ => (hread ctx' hctx' rest').trans
      ((if_neg hvar).trans ((if_neg hcurly).trans (if_pos hif)))
    refine (expression_foresees hctx rest).bind ?_ ?_
    · intro used condition hcondition
      exact ⟨[sample .name], _,
        .conditional hif hcondition newlines_nil (.expression expression_sample)⟩
    intro condition test atBody _ hsplit htest _
    have hbody : atBody.length < bound := by
      have h := congrArg List.length hsplit
      rw [List.length_append] at h
      omega
    dsimp only
    refine (ih.bareStatement ctx atBody hctx hbody).bind ?_ ?_
    · rintro _ body ⟨gap, inner, rfl, hgap, hinner⟩
      exact ⟨[], _, by rw [List.append_nil]; exact .conditional hif htest hgap hinner⟩
    · rintro body _ left - - ⟨gap, inner, rfl, hgap, hinner⟩ -
      dsimp only
      exact foresees_ok (by rw [List.append_nil]; exact .conditional hif htest hgap hinner) trivial
  by_cases hmarker : token.kind = .debugPrint
  · apply Foresees.cons
    refine .congr ?_ hctx fun ctx' rest' hctx' _ => (hread ctx' hctx' rest').trans
      ((if_neg hvar).trans ((if_neg hcurly).trans ((if_neg hif).trans (if_pos hmarker))))
    refine (expression_foresees hctx rest).bind ?_ ?_
    · intro used operand hoperand
      exact ⟨[], _, by rw [List.append_nil]; exact .debugPrint hmarker hoperand⟩
    · intro operand used left _ _ hoperand _
      dsimp only
      exact foresees_ok (by rw [List.append_nil]; exact .debugPrint hmarker hoperand) trivial
  · refine .congr ((expression_foresees hctx (token :: rest)).mono (fun _ _ => .expression)
      (fun _ _ => trivial)) hctx ?_
    intro ctx' tokens' hctx' hhead
    obtain ⟨more, rfl⟩ := List.head?_eq_some_iff.1 hhead
    exact (hread ctx' hctx' more).trans ((if_neg hvar).trans ((if_neg hcurly).trans
      ((if_neg hif).trans (if_neg hmarker))))

private theorem bareStatement_foresees_step (hctx : ctx.fault = none) {bound : Nat}
    (ih : StatementsForesee bound) (tokens : List Token) (hlength : tokens.length < bound + 1) :
    Foresees (fun ctx tokens => Taken.plain (bareStatement ctx tokens)) Spaced (fun _ => True) ctx
      tokens := by
  have hdrop := length_dropWhile_newlines tokens
  have hnot := List.head?_dropWhile_not isNewline tokens
  suffices h : Foresees (fun ctx tokens => Taken.plain (bareStatement ctx tokens)) Statement
      (fun _ => True) ctx (tokens.dropWhile isNewline) from
    h.skipped hctx (fun ctx' tokens' hctx' => (bareStatement_plain_dropWhile hctx' tokens').symm)
      fun gap inner tree hgap hinner => ⟨gap, inner, rfl, hgap, hinner⟩
  cases hrest : tokens.dropWhile isNewline with
  | nil =>
      have hread : Taken.plain (bareStatement ctx []) = .error (ctx.ended ["statement"] "") := by
        rw [bareStatement_plain hctx]
        rfl
      exact .of_halts hread (.ended ⟨[sample .name], _, .expression expression_sample⟩
        (invites_statement _ _))
  | cons token rest =>
      rw [hrest] at hnot hdrop
      have hkind : token.kind ≠ .newline := by simpa [isNewline] using hnot
      refine bareStatement_foresees_cons hctx ih token rest hkind ?_
      rw [List.length_cons] at hdrop
      omega

private theorem statements_plain_cons (hctx : ctx.fault = none) {token : Token}
    (hnewline : token.kind ≠ .newline) (hcurly : token.kind ≠ .rightCurly) (rest : List Token) :
    Read.plain (statements ctx (token :: rest)) = (do
      let (tree, atEnd) ← Taken.plain (bareStatement ctx (token :: rest))
      let (trees, left) ← statementsAfter ctx atEnd
      return (tree :: trees, left)) := by
  rw [statements_plain hctx, dropWhile_newlines_cons hnewline]
  dsimp only
  rw [if_neg hcurly, statement_plain]
  cases Taken.plain (bareStatement ctx (token :: rest)) with
  | error d => rfl
  | ok read =>
      obtain ⟨tree, atEnd⟩ := read
      simp only [ok_bind, statementsAfter]
      cases Left.plain (terminator ctx atEnd) <;> rfl

private theorem statements_foresees_step (hctx : ctx.fault = none) {bound : Nat}
    (ih : StatementsForesee bound) (tokens : List Token) (hlength : tokens.length < bound + 1) :
    Foresees (fun ctx tokens => Read.plain (statements ctx tokens)) Statements Closes ctx
      tokens := by
  have hdrop := length_dropWhile_newlines tokens
  have hnot := List.head?_dropWhile_not isNewline tokens
  suffices h : Foresees (fun ctx tokens => Read.plain (statements ctx tokens)) Statements Closes
      ctx (tokens.dropWhile isNewline) from
    h.skipped hctx (fun ctx' tokens' hctx' => (statements_plain_dropWhile hctx' tokens').symm)
      fun gap inner trees => statements_newlines_append
  by_cases hcloses : Closes (tokens.dropWhile isNewline)
  · refine .of_unread hctx (.nil newlines_nil) hcloses fun ctx' rest' hctx' hhead => ?_
    exact statements_plain_of_closes hctx' (by rw [Closes, hhead]; exact hcloses)
  cases hrest : tokens.dropWhile isNewline with
  | nil =>
      rw [hrest] at hcloses
      exact absurd (by simp [Closes]) hcloses
  | cons token rest =>
      rw [hrest] at hnot hdrop hcloses
      have hnewline : token.kind ≠ .newline := by simpa [isNewline] using hnot
      have hcurly : token.kind ≠ .rightCurly := by simpa [Closes] using hcloses
      have hstep : Foresees (fun ctx tokens => do
          let (tree, atEnd) ← Taken.plain (bareStatement ctx tokens)
          let (trees, left) ← statementsAfter ctx atEnd
          return (tree :: trees, left)) Statements Closes ctx (token :: rest) := by
        refine (bareStatement_foresees_step hctx ih (token :: rest) (by omega)).bind ?_ ?_
        · rintro _ tree ⟨gap, inner, rfl, hgap, hinner⟩
          have h := Statements.cons hgap hinner .nil
          exact ⟨[], [tree], by simpa using h⟩
        rintro tree _ atEnd htree - ⟨gap, inner, rfl, hgap, hinner⟩ -
        have hbound : atEnd.length < bound := by
          have h := Taken.length_lt htree
          omega
        refine (statementsAfter_foresees hctx ih atEnd hbound).bind ?_ ?_
        · intro used trees htrees
          have h := Statements.cons hgap hinner htrees
          exact ⟨[], tree :: trees, by simpa using h⟩
        · intro trees used left _ _ htrees hleft
          have h := Statements.cons hgap hinner htrees
          exact foresees_ok (by simpa using h) hleft
      refine hstep.congr hctx fun ctx' tokens' hctx' hhead => ?_
      obtain ⟨more, rfl⟩ := List.head?_eq_some_iff.1 hhead
      exact statements_plain_cons hctx' hnewline hcurly more

private theorem statementsForesee (bound : Nat) : StatementsForesee bound := by
  induction bound with
  | zero =>
      exact ⟨fun _ _ _ h => absurd h (Nat.not_lt_zero _),
        fun _ _ _ h => absurd h (Nat.not_lt_zero _)⟩
  | succ bound ih =>
      exact ⟨fun _ tokens hctx => bareStatement_foresees_step hctx ih tokens,
        fun _ tokens hctx => statements_foresees_step hctx ih tokens⟩

private theorem statements_foresees (hctx : ctx.fault = none) (tokens : List Token) :
    Foresees (fun ctx tokens => Read.plain (statements ctx tokens)) Statements Closes ctx tokens :=
  (statementsForesee (tokens.length + 1)).statements ctx tokens hctx (Nat.lt_succ_self _)

/-! ## Programs -/

/-- A whole program, read by a procedure that leaves nothing. -/
def whole (ctx : Context) (tokens : List Token) : Except Diagnostic (List Tree × List Token) := do
  let (trees, rest) ← Read.plain (statements ctx tokens)
  match rest with
  | [] => .ok (trees, [])
  | token :: _ => .error (unexpected token ["statement"] "'\x7d' without a matching '\x7b'")

theorem program_error_iff (file : String) (tokens : List Token) (d : Diagnostic) :
    (TokenStream.ofList tokens).program file = .error d ↔
      whole (.ofStream file (.ofList tokens)) tokens = .error d := by
  rw [program_plain file rfl, whole, show (TokenStream.ofList tokens).tokens = tokens from rfl]
  cases Read.plain (statements (.ofStream file (.ofList tokens)) tokens) with
  | error other => simp
  | ok read =>
      obtain ⟨trees, rest⟩ := read
      cases rest <;> simp

theorem whole_foresees (hctx : ctx.fault = none) (tokens : List Token) :
    Foresees whole Statements (fun _ => True) ctx tokens := by
  refine (statements_foresees hctx tokens).bind ?_ ?_
  · intro used trees htrees
    exact ⟨[], trees, by rwa [List.append_nil]⟩
  · intro trees used rest _ _ htrees _
    rw [← List.append_nil used] at htrees
    cases rest with
    | nil =>
        refine .of_unread hctx htrees trivial fun ctx' rest' _ hhead => ?_
        rw [List.head?_eq_none_iff.1 hhead]
    | cons token rest =>
        refine .of_halts rfl (.token [] rest rfl ⟨[], trees, htrees⟩ ?_ fun _ _ _ => rfl)
        exact invites_statement _ _

/-- Some program that is accepted starts with the tokens. -/
def Viable (file : String) (before : List Token) : Prop :=
  ∃ more trees, (TokenStream.ofList (before ++ more)).program file = .ok trees

/-- Any token of an expected sort can stand next in some program that is accepted. -/
def Welcomes (file : String) (before : List Token) (expected : List String) : Prop :=
  ∀ kind : Token.Kind, kind.label ∈ expected → ∀ token : Token, token.kind = kind →
    Viable file (before ++ [token])

theorem viable_iff_completable (file : String) (before : List Token) :
    Viable file before ↔ Completable Statements before := by
  simp only [Viable, Completable, program_eq_ok_iff]

/-- The parser halts at the earliest token at which it can.  A token that is refused is the first
one with which no accepted program goes on, whatever stands behind it; the end of the input is
refused where the input is no program but starts one. -/
theorem program_halts_earliest (file : String) (tokens : List Token) (d : Diagnostic)
    (h : (TokenStream.ofList tokens).program file = .error d) :
    ∃ expected hint,
      (∃ before token after, tokens = before ++ token :: after ∧
        d = unexpected token expected hint ∧
        Viable file before ∧ ¬ Viable file (before ++ [token]) ∧
        (∀ others, (TokenStream.ofList (before ++ token :: others)).program file = .error d) ∧
        Welcomes file before expected) ∨
      (d = (Context.ofStream file (.ofList tokens)).ended expected hint ∧
        Viable file tokens ∧ (∀ trees, (TokenStream.ofList tokens).program file ≠ .ok trees) ∧
        Welcomes file tokens expected) := by
  have hctx : (Context.ofStream file (.ofList tokens)).fault = none := rfl
  have hforesees := whole_foresees hctx tokens
  unfold Foresees at hforesees
  rw [(program_error_iff file tokens d).1 h] at hforesees
  simp only [Welcomes, viable_iff_completable]
  cases hforesees with
  | @token before after token expected hint htokens hbefore hinvites hsame =>
      have hrefused : ∀ others,
          (TokenStream.ofList (before ++ token :: others)).program file =
            .error (unexpected token expected hint) :=
        fun others => (program_error_iff file _ _).2 (hsame _ others rfl)
      refine ⟨expected, hint, .inl ⟨before, token, after, htokens, rfl, hbefore, ?_, hrefused,
        hinvites⟩⟩
      rw [← viable_iff_completable file]
      rintro ⟨more, trees, haccepted⟩
      rw [List.append_assoc, List.singleton_append, hrefused] at haccepted
      cases haccepted
  | @ended expected hint hused hinvites =>
      refine ⟨expected, hint, .inr ⟨rfl, hused, fun trees haccepted => ?_, hinvites⟩⟩
      rw [h] at haccepted
      cases haccepted

/-- The call `f(a b`, whose arguments can only go on with a comma or end. -/
theorem program_halts_earliest_arguments :
    let tokens := [sample .name, sample .leftParen, sample .name, sample .name]
    let d := unexpected (sample .name) [Token.Kind.rightParen.label] "Unclosed argument list"
    (TokenStream.ofList tokens).program "<input>" = .error d ∧
      ∃ expected hint,
        (∃ before token after, tokens = before ++ token :: after ∧
          d = unexpected token expected hint ∧
          Viable "<input>" before ∧ ¬ Viable "<input>" (before ++ [token]) ∧
          (∀ others,
            (TokenStream.ofList (before ++ token :: others)).program "<input>" = .error d) ∧
          Welcomes "<input>" before expected) ∨
        (d = (Context.ofStream "<input>" (.ofList tokens)).ended expected hint ∧
          Viable "<input>" tokens ∧
          (∀ trees, (TokenStream.ofList tokens).program "<input>" ≠ .ok trees) ∧
          Welcomes "<input>" tokens expected) := by
  intro tokens d
  have h : (TokenStream.ofList tokens).program "<input>" = .error d := by
    cbv
  exact ⟨h, program_halts_earliest "<input>" tokens d h⟩

end Parser

end Scriptlet
