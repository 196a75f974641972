import Scriptlet.Proofs.Syntax.Equations
import Scriptlet.Proofs.Syntax.Grammar
/-!
# What the parser reads is derivable

Every procedure of the parser either consumes a piece of its input that the
grammar derives, with the very tree that it returns, or stops with a fault of
the two syntactic kinds.  The claims for the mutually recursive procedures are
proved together, by induction on the length of the input.
-/

namespace Scriptlet.Parser

open Grammar

def Syntactic (d : Diagnostic) : Prop :=
  d.fault.kind = .unexpectedToken ∨ d.fault.kind = .unexpectedEnd

theorem syntactic_unexpected (token : Token) (expected : List String) (hint : String) :
    Syntactic (unexpected token expected hint) :=
  Or.inl rfl

theorem syntactic_ended {ctx : Context} (hctx : ctx.fault = none) (expected : List String)
    (hint : String) : Syntactic (ctx.ended expected hint) := by
  right
  simp only [Context.ended, hctx]
  rfl

/-- A result reads `tokens` when it consumes a piece of them that `Derived`
relates to the value and leaves what `Follow` allows, or fails syntactically. -/
def Reads {α : Type} (tokens : List Token) (Derived : List Token → α → Prop)
    (Follow : List Token → Prop) (result : Except Diagnostic (α × List Token)) : Prop :=
  match result with
  | .ok (value, rest) => ∃ used, tokens = used ++ rest ∧ Derived used value ∧ Follow rest
  | .error d => Syntactic d

theorem Reads.bind {α β : Type} {tokens : List Token} {Derived : List Token → α → Prop}
    {Follow : List Token → Prop} {first : Except Diagnostic (α × List Token)}
    {Derived' : List Token → β → Prop} {Follow' : List Token → Prop}
    {next : α × List Token → Except Diagnostic (β × List Token)}
    (hfirst : Reads tokens Derived Follow first)
    (hnext : ∀ value used rest, first = .ok (value, rest) → tokens = used ++ rest →
      Derived used value → Follow rest →
      Reads rest (fun more result => Derived' (used ++ more) result) Follow'
        (next (value, rest))) :
    Reads tokens Derived' Follow' (first >>= next) := by
  match first, hfirst with
  | .error d, hfirst => exact hfirst
  | .ok (value, rest), ⟨used, htokens, hderived, hfollow⟩ =>
      have h := hnext value used rest rfl htokens hderived hfollow
      change Reads tokens Derived' Follow' (next (value, rest))
      generalize next (value, rest) = result at h
      match result, h with
      | .error d, h => exact h
      | .ok (result, left), ⟨more, hrest, hderived', hfollow'⟩ =>
          refine ⟨used ++ more, ?_, hderived', hfollow'⟩
          rw [htokens, hrest, List.append_assoc]

theorem Reads.mono {α : Type} {tokens : List Token} {Derived Derived' : List Token → α → Prop}
    {Follow Follow' : List Token → Prop} {result : Except Diagnostic (α × List Token)}
    (h : Reads tokens Derived Follow result)
    (hderived : ∀ used value, Derived used value → Derived' used value)
    (hfollow : ∀ rest, Follow rest → Follow' rest) :
    Reads tokens Derived' Follow' result := by
  match result, h with
  | .error d, h => exact h
  | .ok (value, rest), ⟨used, htokens, hused, hrest⟩ =>
      exact ⟨used, htokens, hderived used value hused, hfollow rest hrest⟩

theorem Reads.cons {α : Type} {token : Token} {rest : List Token}
    {Derived : List Token → α → Prop} {Follow : List Token → Prop}
    {result : Except Diagnostic (α × List Token)}
    (h : Reads rest (fun used value => Derived (token :: used) value) Follow result) :
    Reads (token :: rest) Derived Follow result := by
  match result, h with
  | .error d, h => exact h
  | .ok (value, left), ⟨used, hrest, hused, hleft⟩ =>
      exact ⟨token :: used, by rw [hrest, List.cons_append], hused, hleft⟩

/-! ## Single tokens -/

theorem newlines_takeWhile (tokens : List Token) : Newlines (tokens.takeWhile isNewline) := by
  intro token htoken
  simpa [isNewline] using List.all_eq_true.1 List.all_takeWhile token htoken

theorem expect_reads {ctx : Context} (hctx : ctx.fault = none) (kind : Token.Kind)
    (hint : String) (tokens : List Token) :
    Reads tokens (fun used token => used = [token] ∧ token.kind = kind) (fun _ => True)
      (Taken.plain (expect ctx kind hint tokens)) := by
  cases tokens with
  | nil => exact syntactic_ended hctx _ _
  | cons token rest =>
      rw [expect_plain_cons]
      split
      · next hkind => exact ⟨[token], rfl, ⟨rfl, hkind⟩, trivial⟩
      · exact syntactic_unexpected _ _ _

theorem factor_of_literalKind? {token : Token} {kind : Primitive.Kind}
    (h : literalKind? token.kind = some kind) : Factor token (.literal token kind) := by
  generalize hkind : token.kind = tokenKind at h
  cases tokenKind <;> simp only [literalKind?, Option.some.injEq, reduceCtorEq] at h
  · subst h
    exact .truth hkind
  · subst h
    exact .number hkind
  · subst h
    exact .text hkind

private theorem factor_reads {ctx : Context} (hctx : ctx.fault = none) (tokens : List Token) :
    Reads tokens
      (fun used leaf => ∃ gap token, used = gap ++ [token] ∧ Newlines gap ∧ Factor token leaf)
      (fun _ => True) (Taken.plain (factor ctx tokens)) := by
  rw [factor_plain hctx]
  have hsplit := List.takeWhile_append_dropWhile (p := isNewline) (l := tokens)
  cases hrest : tokens.dropWhile isNewline with
  | nil => exact syntactic_ended hctx _ _
  | cons token rest =>
      rw [hrest] at hsplit
      have htokens : tokens = (tokens.takeWhile isNewline ++ [token]) ++ rest := by
        rw [List.append_assoc]
        exact hsplit.symm
      dsimp only
      cases hliteral : literalKind? token.kind with
      | some kind =>
          exact ⟨_, htokens, ⟨_, token, rfl, newlines_takeWhile tokens,
            factor_of_literalKind? hliteral⟩, trivial⟩
      | none =>
          dsimp only
          split
          · next hname =>
              exact ⟨_, htokens, ⟨_, token, rfl, newlines_takeWhile tokens, .name hname⟩, trivial⟩
          · exact syntactic_unexpected _ _ _

/-! ## Expressions -/

theorem arguments_newlines_append {gap inside : List Token} {values : List Tree}
    (hgap : Newlines gap) (h : Arguments inside values) : Arguments (gap ++ inside) values := by
  cases h with
  | nil hinside => exact .nil (newlines_append.2 ⟨hgap, hinside⟩)
  | cons hinside hfirst hafter hothers =>
      rw [← List.append_assoc]
      exact .cons (newlines_append.2 ⟨hgap, hinside⟩) hfirst hafter hothers

/-- A list of arguments behind a comma continues the list before the comma. -/
theorem moreArguments_of_comma {comma : Token} {gap inside : List Token} {values : List Tree}
    (hcomma : comma.kind = .comma) (hgap : Newlines gap) (h : Arguments inside values) :
    MoreArguments (comma :: (gap ++ inside)) values := by
  cases h with
  | nil hinside => exact .trailing hcomma (newlines_append.2 ⟨hgap, hinside⟩)
  | cons hinside hfirst hafter hothers =>
      rw [← List.append_assoc]
      exact .cons hcomma (newlines_append.2 ⟨hgap, hinside⟩) hfirst hafter hothers

theorem expression_of_leaf {gap suffix : List Token} {token : Token} {leaf tree : Tree}
    (hgap : Newlines gap) (hfactor : Factor token leaf) (hsuffix : Suffix leaf suffix tree) :
    Expression ((gap ++ [token]) ++ suffix) tree := by
  rw [List.append_assoc]
  exact .intro hgap hfactor hsuffix

/-- Behind an expression nothing is left for the loop over suffixes to read. -/
theorem suffixes_plain_of_stops {ctx : Context} (hctx : ctx.fault = none) (tree : Tree)
    {tokens : List Token} (h : Stops tokens) :
    Read.plain (suffixes ctx tree tokens) = .ok (tree, tokens) := by
  cases tokens with
  | nil => exact suffixes_plain_nil hctx tree
  | cons token rest =>
      obtain ⟨hassign, hparen⟩ := stops_cons.1 h
      rw [suffixes_plain_cons hctx, if_neg hassign, if_neg hparen]

/-- What the three procedures for expressions read, on inputs of bounded length. -/
structure ExpressionsRead (ctx : Context) (bound : Nat) : Prop where
  expression : ∀ tokens : List Token, tokens.length ≤ bound →
    Reads tokens Expression Stops (Taken.plain (expression ctx tokens))
  suffixes : ∀ (tree : Tree) (tokens : List Token), tokens.length ≤ bound →
    Reads tokens (Suffix tree) Stops (Read.plain (suffixes ctx tree tokens))
  arguments : ∀ tokens : List Token, tokens.length ≤ bound →
    Reads tokens Arguments (fun _ => True) (Read.plain (arguments ctx tokens))

theorem length_dropWhile_newlines (tokens : List Token) :
    (tokens.dropWhile isNewline).length ≤ tokens.length :=
  (List.dropWhile_suffix isNewline).length_le

/-- Newlines that were skipped belong to what was read behind them. -/
theorem Reads.skipped {α : Type} {tokens : List Token} {Derived : List Token → α → Prop}
    {Follow : List Token → Prop} {result : Except Diagnostic (α × List Token)}
    (h : Reads (tokens.dropWhile isNewline) Derived Follow result) :
    Reads tokens
      (fun used value => ∃ gap inner, used = gap ++ inner ∧ Newlines gap ∧ Derived inner value)
      Follow result := by
  match result, h with
  | .error d, h => exact h
  | .ok (value, rest), ⟨used, htokens, hused, hrest⟩ =>
      refine ⟨tokens.takeWhile isNewline ++ used, ?_,
        ⟨_, used, rfl, newlines_takeWhile tokens, hused⟩, hrest⟩
      rw [List.append_assoc, ← htokens, List.takeWhile_append_dropWhile]

private theorem suffixes_reads_step {ctx : Context} (hctx : ctx.fault = none) {bound : Nat}
    (ih : ExpressionsRead ctx bound) (tree : Tree) (token : Token) (rest : List Token)
    (hlength : rest.length ≤ bound) :
    Reads (token :: rest) (Suffix tree) Stops
      (Read.plain (suffixes ctx tree (token :: rest))) := by
  rw [suffixes_plain_cons hctx]
  split
  · next hassign =>
      refine ((ih.expression _ hlength).bind ?_).cons
      intro value used left _ _ hvalue hstops
      dsimp only
      rw [suffixes_plain_of_stops hctx _ hstops]
      have h : Suffix tree (token :: used) (.assign tree value token) := .assign hassign hvalue
      exact ⟨[], rfl, by simpa using h, hstops⟩
  split
  · next hparen =>
      have hinside := Nat.le_trans (length_dropWhile_newlines rest) hlength
      refine ((ih.arguments _ hinside).skipped.bind ?_).cons
      rintro values _ left - hleft ⟨gap, inside, rfl, hgap, hvalues⟩ -
      refine (expect_reads hctx _ _ _).bind ?_
      rintro closing _ last - hlast ⟨rfl, hclosing⟩ -
      have hbound : last.length ≤ bound := by
        have h := congrArg List.length hleft
        simp only [hlast, List.length_append, List.length_cons] at h
        omega
      refine (ih.suffixes _ _ hbound).mono ?_ (fun _ h => h)
      intro others result hothers
      have h := Suffix.call hparen (arguments_newlines_append hgap hvalues) hclosing hothers
      simpa using h
  · next hassign hparen =>
      exact ⟨[], rfl, .nil, stops_cons.2 ⟨hassign, hparen⟩⟩

private theorem argumentsAfter_reads {ctx : Context} {bound : Nat} (ih : ExpressionsRead ctx bound)
    (first : Tree) (left : List Token) (hlength : left.length ≤ bound) :
    Reads left (fun used values => ∃ others, values = first :: others ∧ MoreArguments used others)
      (fun _ => True) (argumentsAfter ctx first left) := by
  cases left with
  | nil => exact ⟨[], rfl, ⟨[], rfl, .nil⟩, trivial⟩
  | cons next afterNext =>
      rw [argumentsAfter]
      split
      · next hcomma =>
          have hbound : (afterNext.dropWhile isNewline).length ≤ bound := by
            have h := length_dropWhile_newlines afterNext
            simp only [List.length_cons] at hlength
            omega
          have hrest := (ih.arguments _ hbound).skipped
          generalize Read.plain (arguments ctx (afterNext.dropWhile isNewline)) = result at hrest
          cases result with
          | error d => exact hrest
          | ok read =>
              obtain ⟨used, htokens, ⟨gap, inside, hused, hgap, hothers⟩, -⟩ := hrest
              subst hused
              refine ⟨next :: (gap ++ inside), ?_, ⟨read.1, rfl, ?_⟩, trivial⟩
              · rw [htokens, List.cons_append]
              · exact moreArguments_of_comma hcomma hgap hothers
      · exact ⟨[], rfl, ⟨[], rfl, .nil⟩, trivial⟩

private theorem expression_reads_step {ctx : Context} (hctx : ctx.fault = none) {bound : Nat}
    (ih : ExpressionsRead ctx bound) (tokens : List Token) (hlength : tokens.length ≤ bound + 1) :
    Reads tokens Expression Stops (Taken.plain (expression ctx tokens)) := by
  rw [expression_plain]
  refine (factor_reads hctx tokens).bind ?_
  rintro leaf _ rest hleaf - ⟨gap, token, rfl, hgap, hfactor⟩ -
  have hrest : rest.length ≤ bound := by
    have h := Taken.length_lt hleaf
    omega
  refine (ih.suffixes leaf rest hrest).mono ?_ (fun _ h => h)
  intro suffix tree hsuffix
  exact expression_of_leaf hgap hfactor hsuffix

private theorem arguments_reads_step {ctx : Context} (hctx : ctx.fault = none) {bound : Nat}
    (ih : ExpressionsRead ctx bound) (token : Token) (rest : List Token)
    (hlength : rest.length ≤ bound) :
    Reads (token :: rest) Arguments (fun _ => True)
      (Read.plain (arguments ctx (token :: rest))) := by
  rw [arguments_plain_cons hctx]
  split
  · exact ⟨[], rfl, .nil newlines_nil, trivial⟩
  · refine (expression_reads_step hctx ih (token :: rest) (Nat.succ_le_succ hlength)).bind ?_
    intro first used left hfirst _ hused _
    have hleft : (left.dropWhile isNewline).length ≤ bound := by
      have h := Taken.length_lt hfirst
      have hdrop := length_dropWhile_newlines left
      simp only [List.length_cons] at h
      omega
    refine (argumentsAfter_reads ih first _ hleft).skipped.mono ?_ (fun _ h => h)
    rintro _ _ ⟨after, others, rfl, hafter, values, rfl, hothers⟩
    exact .cons newlines_nil hused hafter hothers

private theorem expressionsRead {ctx : Context} (hctx : ctx.fault = none) (bound : Nat) :
    ExpressionsRead ctx bound := by
  induction bound with
  | zero =>
      refine ⟨?_, ?_, ?_⟩
      · intro tokens hlength
        obtain rfl := List.eq_nil_of_length_eq_zero (Nat.le_zero.1 hlength)
        rw [expression_plain, factor_plain hctx]
        exact syntactic_ended hctx _ _
      · intro tree tokens hlength
        obtain rfl := List.eq_nil_of_length_eq_zero (Nat.le_zero.1 hlength)
        rw [suffixes_plain_nil hctx]
        exact ⟨[], rfl, .nil, stops_nil⟩
      · intro tokens hlength
        obtain rfl := List.eq_nil_of_length_eq_zero (Nat.le_zero.1 hlength)
        rw [arguments_plain_nil hctx]
        exact ⟨[], rfl, .nil newlines_nil, trivial⟩
  | succ bound ih =>
      refine ⟨fun tokens hlength => expression_reads_step hctx ih tokens hlength, ?_, ?_⟩
      · intro tree tokens hlength
        cases tokens with
        | nil => exact ih.suffixes tree [] (Nat.zero_le _)
        | cons token rest =>
            exact suffixes_reads_step hctx ih tree token rest (Nat.le_of_succ_le_succ hlength)
      · intro tokens hlength
        cases tokens with
        | nil => exact ih.arguments [] (Nat.zero_le _)
        | cons token rest =>
            exact arguments_reads_step hctx ih token rest (Nat.le_of_succ_le_succ hlength)

theorem expression_reads {ctx : Context} (hctx : ctx.fault = none) (tokens : List Token) :
    Reads tokens Expression Stops (Taken.plain (expression ctx tokens)) :=
  (expressionsRead hctx tokens.length).expression tokens (Nat.le_refl _)

/-! ## Statements -/

def Closes (tokens : List Token) : Prop :=
  ∀ token ∈ tokens.head?, token.kind = .rightCurly

theorem separator_append {separator gap : List Token} (h : Separator separator)
    (hgap : Newlines gap) : Separator (separator ++ gap) := by
  cases h with
  | semicolon hkind hrest => exact .semicolon hkind (newlines_append.2 ⟨hrest, hgap⟩)
  | newline hkind hrest => exact .newline hkind (newlines_append.2 ⟨hrest, hgap⟩)

/-- Statements behind a separator continue the list before it. -/
theorem moreStatements_of_separator {separator inside : List Token} {trees : List Tree}
    (hseparator : Separator separator) (h : Statements inside trees) :
    MoreStatements (separator ++ inside) trees := by
  cases h with
  | nil hgap => exact .trailing (separator_append hseparator hgap)
  | cons hgap hfirst hothers =>
      rw [← List.append_assoc]
      exact .cons (separator_append hseparator hgap) hfirst hothers

theorem statements_newlines_append {gap inside : List Token} {trees : List Tree}
    (hgap : Newlines gap) (h : Statements inside trees) : Statements (gap ++ inside) trees := by
  cases h with
  | nil hinside => exact .nil (newlines_append.2 ⟨hgap, hinside⟩)
  | cons hinside hfirst hothers =>
      rw [← List.append_assoc]
      exact .cons (newlines_append.2 ⟨hgap, hinside⟩) hfirst hothers

def Spaced (tokens : List Token) (tree : Tree) : Prop :=
  ∃ gap inner, tokens = gap ++ inner ∧ Newlines gap ∧ Statement inner tree

structure StatementsRead (ctx : Context) (bound : Nat) : Prop where
  bareStatement : ∀ tokens : List Token, tokens.length ≤ bound →
    Reads tokens Spaced (fun _ => True) (Taken.plain (bareStatement ctx tokens))
  statements : ∀ tokens : List Token, tokens.length ≤ bound →
    Reads tokens Statements Closes (Read.plain (statements ctx tokens))

private theorem terminator_cases {ctx : Context} (hctx : ctx.fault = none) (tokens : List Token) :
    (∃ d, Left.plain (terminator ctx tokens) = .error d ∧ Syntactic d) ∨
      (Closes tokens ∧ Left.plain (terminator ctx tokens) = .ok tokens) ∨
      ∃ separator rest, Separator separator ∧ tokens = separator ++ rest ∧
        Left.plain (terminator ctx tokens) = .ok rest := by
  cases tokens with
  | nil =>
      exact Or.inr (Or.inl ⟨by simp [Closes], terminator_plain_nil hctx⟩)
  | cons token rest =>
      rw [terminator_plain_cons hctx]
      split
      · next hkind =>
          refine Or.inr (Or.inr ⟨token :: rest.takeWhile isNewline, _, ?_, ?_, rfl⟩)
          · rcases hkind with hkind | hkind
            · exact .semicolon hkind (newlines_takeWhile rest)
            · exact .newline hkind (newlines_takeWhile rest)
          · rw [List.cons_append, List.takeWhile_append_dropWhile]
      split
      · next hkind => exact Or.inr (Or.inl ⟨by simp [Closes, hkind], rfl⟩)
      · exact Or.inl ⟨_, rfl, syntactic_unexpected _ _ _⟩

theorem statement_cases {ctx : Context} (hctx : ctx.fault = none) {tokens : List Token}
    (hbare : Reads tokens Spaced (fun _ => True) (Taken.plain (bareStatement ctx tokens))) :
    (∃ d, Taken.plain (statement ctx tokens) = .error d ∧ Syntactic d) ∨
      ∃ tree used rest, Taken.plain (statement ctx tokens) = .ok (tree, rest) ∧ Spaced used tree ∧
        (tokens = used ++ rest ∧ Closes rest ∨
          ∃ separator, Separator separator ∧ tokens = used ++ (separator ++ rest)) := by
  rw [statement_plain]
  generalize Taken.plain (bareStatement ctx tokens) = result at hbare
  match result, hbare with
  | .error d, hbare => exact Or.inl ⟨d, rfl, hbare⟩
  | .ok (tree, atEnd), ⟨used, htokens, hused, _⟩ =>
      simp only [ok_bind]
      rcases terminator_cases hctx atEnd with
        ⟨d, hd, hsyntactic⟩ | ⟨hcloses, hend⟩ | ⟨separator, rest, hseparator, hsplit, hend⟩
      · exact Or.inl ⟨d, by rw [hd]; rfl, hsyntactic⟩
      · exact Or.inr ⟨tree, used, atEnd, by rw [hend]; rfl, hused, Or.inl ⟨htokens, hcloses⟩⟩
      · refine Or.inr ⟨tree, used, rest, by rw [hend]; rfl, hused,
          Or.inr ⟨separator, hseparator, ?_⟩⟩
        rw [htokens, hsplit]

theorem statements_plain_of_closes {ctx : Context} (hctx : ctx.fault = none)
    {tokens : List Token} (h : Closes tokens) :
    Read.plain (statements ctx tokens) = .ok ([], tokens) := by
  rw [statements_plain hctx]
  cases tokens with
  | nil => rfl
  | cons token rest =>
      have hkind : token.kind = .rightCurly := h token (by simp)
      rw [List.dropWhile_cons, if_neg (by simp [isNewline, hkind])]
      dsimp only
      rw [if_pos hkind]

private theorem bareStatement_reads_step {ctx : Context} (hctx : ctx.fault = none) {bound : Nat}
    (ih : StatementsRead ctx bound) (tokens : List Token)
    (hlength : tokens.length ≤ bound + 1) :
    Reads tokens Spaced (fun _ => True) (Taken.plain (bareStatement ctx tokens)) := by
  rw [bareStatement_plain hctx]
  have hdrop := length_dropWhile_newlines tokens
  suffices h : Reads (tokens.dropWhile isNewline) Statement (fun _ => True) _ from h.skipped
  cases hrest : tokens.dropWhile isNewline with
  | nil => exact syntactic_ended hctx _ _
  | cons token rest =>
      have hbound : rest.length ≤ bound := by
        rw [hrest, List.length_cons] at hdrop
        omega
      dsimp only
      split
      · next hvar =>
          have hname := (expect_reads hctx .name "Expected a variable name after 'var'"
            (rest.dropWhile isNewline)).skipped
          refine (hname.bind ?_).cons
          rintro name _ atAssign - - ⟨gap, _, rfl, hgap, rfl, hname⟩ -
          refine (expect_reads hctx _ _ _).bind ?_
          rintro equals _ atValue - - ⟨rfl, hequals⟩ -
          refine (expression_reads hctx atValue).bind ?_
          intro value used left _ _ hvalue _
          have h := Statement.declaration hvar hgap hname hequals hvalue
          exact ⟨[], rfl, by simpa using h, trivial⟩
      split
      · next hcurly =>
          refine ((ih.statements rest hbound).bind ?_).cons
          intro body used atClose _ _ hbody _
          refine (expect_reads hctx _ _ _).bind ?_
          rintro closing _ left - - ⟨rfl, hclosing⟩ -
          have h := Statement.block hcurly hbody hclosing
          exact ⟨[], rfl, by simpa using h, trivial⟩
      split
      · next hif =>
          refine ((expression_reads hctx rest).bind ?_).cons
          intro condition test atBody _ hsplit htest _
          have hbody : atBody.length ≤ bound := by
            have h := congrArg List.length hsplit
            rw [List.length_append] at h
            omega
          refine (ih.bareStatement atBody hbody).bind ?_
          rintro body _ left - - ⟨gap, inner, rfl, hgap, hinner⟩ -
          have h := Statement.conditional hif htest hgap hinner
          exact ⟨[], rfl, by simpa using h, trivial⟩
      split
      · next hmarker =>
          refine ((expression_reads hctx rest).bind ?_).cons
          intro operand used left _ _ hoperand _
          have h := Statement.debugPrint hmarker hoperand
          exact ⟨[], rfl, by simpa using h, trivial⟩
      · exact (expression_reads hctx (token :: rest)).mono (fun _ _ => .expression)
          (fun _ _ => trivial)

private theorem statements_reads_step {ctx : Context} (hctx : ctx.fault = none) {bound : Nat}
    (ih : StatementsRead ctx bound) (tokens : List Token)
    (hlength : tokens.length ≤ bound + 1) :
    Reads tokens Statements Closes (Read.plain (statements ctx tokens)) := by
  rw [statements_plain hctx]
  have hdrop := length_dropWhile_newlines tokens
  suffices h : Reads (tokens.dropWhile isNewline) Statements Closes _ by
    refine h.skipped.mono ?_ (fun _ h => h)
    rintro _ trees ⟨gap, inner, rfl, hgap, hinner⟩
    exact statements_newlines_append hgap hinner
  cases hrest : tokens.dropWhile isNewline with
  | nil => exact ⟨[], rfl, .nil newlines_nil, by simp [Closes]⟩
  | cons token rest =>
      dsimp only
      split
      · next hcurly => exact ⟨[], rfl, .nil newlines_nil, by simp [Closes, hcurly]⟩
      · rw [hrest] at hdrop
        have hbare := bareStatement_reads_step hctx ih (token :: rest) (by omega)
        rcases statement_cases hctx hbare with
          ⟨d, hd, hsyntactic⟩ | ⟨tree, _, left, hstatement, ⟨gap, inner, rfl, hgap, hinner⟩, hend⟩
        · rw [hd]
          exact hsyntactic
        · have hleft : left.length ≤ bound := by
            have h := Taken.length_lt hstatement
            omega
          rw [hstatement, ok_bind]
          rcases hend with ⟨hsplit, hcloses⟩ | ⟨separator, hseparator, hsplit⟩
          · dsimp only
            rw [statements_plain_of_closes hctx hcloses]
            have h := Statements.cons hgap hinner .nil
            exact ⟨gap ++ inner, hsplit, by simpa using h, hcloses⟩
          · have hothers := ih.statements left hleft
            dsimp only
            generalize Read.plain (statements ctx left) = result at hothers
            match result, hothers with
            | .error d, hothers => exact hothers
            | .ok (others, last), ⟨used, hused, hstatements, hcloses⟩ =>
                refine ⟨gap ++ (inner ++ (separator ++ used)), ?_,
                  .cons hgap hinner (moreStatements_of_separator hseparator hstatements), hcloses⟩
                rw [hsplit, hused]
                simp only [List.append_assoc]

theorem statementsRead {ctx : Context} (hctx : ctx.fault = none) (bound : Nat) :
    StatementsRead ctx bound := by
  induction bound with
  | zero =>
      refine ⟨?_, ?_⟩
      · intro tokens hlength
        obtain rfl := List.eq_nil_of_length_eq_zero (Nat.le_zero.1 hlength)
        rw [bareStatement_plain hctx]
        exact syntactic_ended hctx _ _
      · intro tokens hlength
        obtain rfl := List.eq_nil_of_length_eq_zero (Nat.le_zero.1 hlength)
        rw [statements_plain hctx]
        exact ⟨[], rfl, .nil newlines_nil, by simp [Closes]⟩
  | succ bound ih =>
      exact ⟨bareStatement_reads_step hctx ih, statements_reads_step hctx ih⟩

theorem statements_reads {ctx : Context} (hctx : ctx.fault = none) (tokens : List Token) :
    Reads tokens Statements Closes (Read.plain (statements ctx tokens)) :=
  (statementsRead hctx tokens.length).statements tokens (Nat.le_refl _)

/-- A program that is accepted is derivable, and every other one is refused
with a syntactic fault. -/
theorem program_reads (file : String) (tokens : List Token) :
    match (TokenStream.ofList tokens).program file with
    | .ok trees => Statements tokens trees
    | .error d => Syntactic d := by
  have hctx : (Context.ofStream file (.ofList tokens)).fault = none := rfl
  have hreads := statements_reads hctx (TokenStream.ofList tokens).tokens
  rw [program_plain file rfl]
  generalize Read.plain (statements _ (TokenStream.ofList tokens).tokens) = result at hreads
  match result, hreads with
  | .error d, hreads => exact hreads
  | .ok (trees, []), ⟨used, hused, hstatements, _⟩ =>
      rw [List.append_nil] at hused
      subst hused
      exact hstatements
  | .ok (trees, token :: rest), _ => exact syntactic_unexpected _ _ _

end Scriptlet.Parser
