import Scriptlet.Tree.Parse
/-!
# Equations of the parser

The procedures of the parser return their rest together with a proof that it
is short enough.  Here the proofs are dropped and each procedure is described
by one equation between plain results, which is all that later proofs unfold.
-/

namespace Scriptlet

/-- Whether something is read that has a property can be told from what is read. -/
instance {α : Type} {p : α → Prop} [DecidablePred p] (outcome : Except Diagnostic α) :
    Decidable (∃ result, outcome = .ok result ∧ p result) :=
  match outcome with
  | .ok result => decidable_of_iff (p result) (by simp)
  | .error _ => isFalse (by simp)

end Scriptlet

namespace Scriptlet.Parser

def Left.plain {tokens : List Token} (result : Except Diagnostic (Left tokens)) :
    Except Diagnostic (List Token) :=
  result.map Left.rest

/-- What was read and what is left, without the proof that it is short. -/
def Read.plain {α : Type} {tokens : List Token} (result : Except Diagnostic (Read α tokens)) :
    Except Diagnostic (α × List Token) :=
  result.map fun read => (read.value, read.rest)

def Taken.plain {α : Type} {tokens : List Token} (result : Except Diagnostic (Taken α tokens)) :
    Except Diagnostic (α × List Token) :=
  result.map fun taken => (taken.value, taken.rest)

@[simp] theorem Left.plain_ok {tokens : List Token} (left : Left tokens) :
    Left.plain (.ok left) = .ok left.rest := rfl

@[simp] theorem Left.plain_error {tokens : List Token} (d : Diagnostic) :
    Left.plain (.error d : Except Diagnostic (Left tokens)) = .error d := rfl

@[simp] theorem Read.plain_ok {α : Type} {tokens : List Token} (read : Read α tokens) :
    Read.plain (.ok read) = .ok (read.value, read.rest) := rfl

@[simp] theorem Read.plain_error {α : Type} {tokens : List Token} (d : Diagnostic) :
    Read.plain (.error d : Except Diagnostic (Read α tokens)) = .error d := rfl

@[simp] theorem Taken.plain_ok {α : Type} {tokens : List Token} (taken : Taken α tokens) :
    Taken.plain (.ok taken) = .ok (taken.value, taken.rest) := rfl

@[simp] theorem Taken.plain_error {α : Type} {tokens : List Token} (d : Diagnostic) :
    Taken.plain (.error d : Except Diagnostic (Taken α tokens)) = .error d := rfl

theorem Taken.length_lt {α : Type} {tokens rest : List Token}
    {result : Except Diagnostic (Taken α tokens)} {value : α}
    (h : Taken.plain result = .ok (value, rest)) : rest.length < tokens.length := by
  cases result with
  | error d => simp at h
  | ok taken =>
      simp only [plain_ok, Except.ok.injEq, Prod.mk.injEq] at h
      rw [← h.2]
      exact taken.lt

@[simp] theorem ok_bind {ε α β : Type} (a : α) (f : α → Except ε β) :
    (Except.ok a >>= f) = f a := rfl

@[simp] theorem error_bind {ε α β : Type} (e : ε) (f : α → Except ε β) :
    (Except.error e >>= f) = .error e := rfl

theorem mayEnd_clean {α : Type} {ctx : Context} (hctx : ctx.fault = none) (result : α) :
    ctx.mayEnd result = .ok result := by
  simp [Context.mayEnd, hctx]

/-! ## Single tokens -/

def isNewline (token : Token) : Bool :=
  token.kind = .newline

private theorem skipNewlines_plain {ctx : Context} (hctx : ctx.fault = none) (tokens : List Token) :
    Left.plain (skipNewlines ctx tokens) = .ok (tokens.dropWhile isNewline) := by
  induction tokens with
  | nil => simp [skipNewlines, mayEnd_clean hctx]
  | cons token rest ih =>
      rw [skipNewlines, List.dropWhile_cons]
      by_cases hkind : token.kind = .newline
      · rw [if_pos hkind, if_pos (by simpa [isNewline] using hkind), ← ih]
        cases skipNewlines ctx rest <;> rfl
      · rw [if_neg hkind, if_neg (by simpa [isNewline] using hkind)]
        rfl

theorem skipNewlines_ok {ctx : Context} (hctx : ctx.fault = none) (tokens : List Token) :
    ∃ hle, skipNewlines ctx tokens = .ok ⟨tokens.dropWhile isNewline, hle⟩ := by
  have hskip := skipNewlines_plain hctx tokens
  cases hs : skipNewlines ctx tokens with
  | error d => simp [hs] at hskip
  | ok left =>
      obtain ⟨left, hle⟩ := left
      simp only [hs, Left.plain_ok, Except.ok.injEq] at hskip
      subst hskip
      exact ⟨hle, rfl⟩

theorem expect_plain_cons (ctx : Context) (kind : Token.Kind) (hint : String) (token : Token)
    (rest : List Token) :
    Taken.plain (expect ctx kind hint (token :: rest)) =
      if token.kind = kind then .ok (token, rest)
      else .error (unexpected token [kind.label] hint) := by
  rw [expect]
  split <;> rfl

theorem factor_plain {ctx : Context} (hctx : ctx.fault = none) (tokens : List Token) :
    Taken.plain (factor ctx tokens) =
      match tokens.dropWhile isNewline with
      | [] => .error (ctx.ended ["expression"] "")
      | token :: rest =>
        match literalKind? token.kind with
        | some kind => .ok (.literal token kind, rest)
        | none =>
          if token.kind = .name then .ok (.reference token, rest)
          else .error (unexpected token ["expression"] "") := by
  obtain ⟨hle, hskip⟩ := skipNewlines_ok hctx tokens
  rw [factor, hskip, ok_bind]
  generalize tokens.dropWhile isNewline = left at hle
  cases left with
  | nil => rfl
  | cons token rest =>
      dsimp only
      cases literalKind? token.kind with
      | some kind => rfl
      | none =>
          dsimp only
          split <;> rfl

theorem terminator_plain_nil {ctx : Context} (hctx : ctx.fault = none) :
    Left.plain (terminator ctx []) = .ok [] := by
  rw [terminator, mayEnd_clean hctx]
  rfl

theorem terminator_plain_cons {ctx : Context} (hctx : ctx.fault = none) (token : Token)
    (rest : List Token) :
    Left.plain (terminator ctx (token :: rest)) =
      if token.kind = .semicolon ∨ token.kind = .newline then
        .ok (rest.dropWhile isNewline)
      else if token.kind = .rightCurly then .ok (token :: rest)
      else .error (unexpected token [Token.Kind.newline.label]
        "Statements are terminated by ';' or a newline") := by
  rw [terminator]
  split
  · rw [← skipNewlines_plain hctx rest]
    cases skipNewlines ctx rest <;> rfl
  · split <;> rfl

/-! ## Expressions -/

theorem expression_plain (ctx : Context) (tokens : List Token) :
    Taken.plain (expression ctx tokens) = (do
      let (first, afterFirst) ← Taken.plain (factor ctx tokens)
      Read.plain (suffixes ctx first afterFirst)) := by
  rw [expression]
  cases factor ctx tokens with
  | error d => rfl
  | ok first =>
      obtain ⟨first, afterFirst, _⟩ := first
      simp only [ok_bind, Taken.plain_ok]
      cases suffixes ctx first afterFirst <;> rfl

theorem suffixes_plain_nil {ctx : Context} (hctx : ctx.fault = none) (tree : Tree) :
    Read.plain (suffixes ctx tree []) = .ok (tree, []) := by
  rw [suffixes, mayEnd_clean hctx]
  rfl

theorem suffixes_plain_cons {ctx : Context} (hctx : ctx.fault = none) (tree : Tree)
    (token : Token) (rest : List Token) :
    Read.plain (suffixes ctx tree (token :: rest)) =
      if token.kind = .assign then do
        let (value, afterValue) ← Taken.plain (expression ctx rest)
        Read.plain (suffixes ctx (.assign tree value token) afterValue)
      else if token.kind = .leftParen then do
        let (values, afterValues) ← Read.plain (arguments ctx (rest.dropWhile isNewline))
        let (_, afterCall) ←
          Taken.plain (expect ctx .rightParen "Unclosed argument list" afterValues)
        Read.plain (suffixes ctx (.call tree values token) afterCall)
      else .ok (tree, token :: rest) := by
  rw [suffixes]
  split
  · cases expression ctx rest with
    | error d => rfl
    | ok value =>
        obtain ⟨value, afterValue, _⟩ := value
        simp only [ok_bind, Taken.plain_ok]
        cases suffixes ctx (.assign tree value token) afterValue <;> rfl
  · split
    · obtain ⟨hle, hskip⟩ := skipNewlines_ok hctx rest
      rw [hskip, ok_bind]
      dsimp only
      cases arguments ctx (rest.dropWhile isNewline) with
      | error d => rfl
      | ok values =>
          obtain ⟨values, afterValues, _⟩ := values
          simp only [ok_bind, Read.plain_ok]
          cases expect ctx .rightParen "Unclosed argument list" afterValues with
          | error d => rfl
          | ok closing =>
              obtain ⟨_, afterCall, _⟩ := closing
              simp only [ok_bind, Taken.plain_ok]
              cases suffixes ctx (.call tree values token) afterCall <;> rfl
    · rfl

theorem arguments_plain_nil {ctx : Context} (hctx : ctx.fault = none) :
    Read.plain (arguments ctx []) = .ok ([], []) := by
  rw [arguments, mayEnd_clean hctx]
  rfl

/-- The arguments from the one that was just read on, up to what stands behind
it: the list goes on only behind a comma. -/
def argumentsAfter (ctx : Context) (first : Tree) (left : List Token) :
    Except Diagnostic (List Tree × List Token) :=
  match left with
  | [] => .ok ([first], [])
  | next :: afterNext =>
    if next.kind = .comma then do
      let (others, left) ← Read.plain (arguments ctx (afterNext.dropWhile isNewline))
      return (first :: others, left)
    else .ok ([first], next :: afterNext)

theorem arguments_plain_cons {ctx : Context} (hctx : ctx.fault = none) (token : Token)
    (rest : List Token) :
    Read.plain (arguments ctx (token :: rest)) =
      if token.kind = .rightParen then .ok ([], token :: rest)
      else (do
        let (first, afterFirst) ← Taken.plain (expression ctx (token :: rest))
        argumentsAfter ctx first (afterFirst.dropWhile isNewline)) := by
  rw [arguments]
  split
  · rfl
  · cases expression ctx (token :: rest) with
    | error d => rfl
    | ok first =>
        obtain ⟨first, afterFirst, _⟩ := first
        simp only [ok_bind, Taken.plain_ok]
        obtain ⟨hle, hskip⟩ := skipNewlines_ok hctx afterFirst
        rw [hskip, ok_bind]
        generalize afterFirst.dropWhile isNewline = left at hle
        cases left with
        | nil =>
            dsimp only
            rw [mayEnd_clean hctx]
            rfl
        | cons next afterNext =>
            dsimp only [argumentsAfter]
            split
            · obtain ⟨hle', hinside⟩ := skipNewlines_ok hctx afterNext
              rw [hinside, ok_bind]
              dsimp only
              cases arguments ctx (afterNext.dropWhile isNewline) <;> rfl
            · rfl

/-! ## Statements -/

theorem statements_plain {ctx : Context} (hctx : ctx.fault = none) (tokens : List Token) :
    Read.plain (statements ctx tokens) =
      match tokens.dropWhile isNewline with
      | [] => .ok ([], [])
      | token :: rest =>
        if token.kind = .rightCurly then .ok ([], token :: rest)
        else do
          let (first, afterFirst) ← Taken.plain (statement ctx (token :: rest))
          let (others, left) ← Read.plain (statements ctx afterFirst)
          return (first :: others, left) := by
  obtain ⟨hle, hskip⟩ := skipNewlines_ok hctx tokens
  rw [statements, hskip, ok_bind]
  generalize tokens.dropWhile isNewline = left at hle
  cases left with
  | nil =>
      dsimp only
      rw [mayEnd_clean hctx]
      rfl
  | cons token rest =>
      dsimp only
      split
      · rfl
      · cases statement ctx (token :: rest) with
        | error d => rfl
        | ok first =>
            obtain ⟨first, afterFirst, _⟩ := first
            simp only [ok_bind, Taken.plain_ok]
            cases statements ctx afterFirst <;> rfl

/-- Behind newlines, the loop of a block does what the loop of a program does: the one skips the
newlines in front of a statement that the other has skipped behind the statement before. -/
theorem blockStatements_plain {ctx : Context} (hctx : ctx.fault = none) (tokens : List Token) :
    Read.plain (blockStatements ctx (tokens.dropWhile isNewline)) =
      Read.plain (statements ctx tokens) := by
  induction hlength : tokens.length using Nat.strongRecOn generalizing tokens with
  | _ n ih =>
      have hle : (tokens.dropWhile isNewline).length ≤ tokens.length :=
        (List.dropWhile_suffix isNewline).length_le
      rw [statements_plain hctx]
      cases hdrop : tokens.dropWhile isNewline with
      | nil =>
          rw [blockStatements, mayEnd_clean hctx]
          rfl
      | cons token rest =>
          rw [hdrop] at hle
          rw [blockStatements]
          dsimp only
          split
          · rfl
          · cases statement ctx (token :: rest) with
            | error d => rfl
            | ok first =>
                obtain ⟨first, afterFirst, hFirst⟩ := first
                have hothers := ih afterFirst.length (by omega) afterFirst rfl
                obtain ⟨_, hinside⟩ := skipNewlines_ok hctx afterFirst
                simp only [ok_bind, Taken.plain_ok]
                rw [← hothers, hinside, ok_bind]
                dsimp only
                cases blockStatements ctx (afterFirst.dropWhile isNewline) <;> rfl

theorem bareStatement_plain {ctx : Context} (hctx : ctx.fault = none) (tokens : List Token) :
    Taken.plain (bareStatement ctx tokens) =
      match tokens.dropWhile isNewline with
      | [] => .error (ctx.ended ["statement"] "")
      | token :: rest =>
        if token.kind = .var then do
          let (name, atAssign) ← Taken.plain
            (expect ctx .name "Expected a variable name after 'var'" (rest.dropWhile isNewline))
          let (_, atValue) ← Taken.plain
            (expect ctx .assign "Expected an assignment statement ('=')" atAssign)
          let (value, left) ← Taken.plain (expression ctx atValue)
          return (.declare name value, left)
        else if token.kind = .leftCurly then do
          let (body, atClose) ← Read.plain (statements ctx rest)
          let (_, left) ← Taken.plain (expect ctx .rightCurly "Unclosed block" atClose)
          return (.block body (some token), left)
        else if token.kind = .if_ then do
          let (condition, atBody) ← Taken.plain (expression ctx rest)
          let (body, left) ← Taken.plain (bareStatement ctx atBody)
          return (.conditional condition body token, left)
        else if token.kind = .debugPrint then do
          let (operand, left) ← Taken.plain (expression ctx rest)
          return (.debugPrint operand token, left)
        else Taken.plain (expression ctx (token :: rest)) := by
  obtain ⟨hle, hskip⟩ := skipNewlines_ok hctx tokens
  rw [bareStatement, hskip, ok_bind]
  generalize tokens.dropWhile isNewline = left at hle
  cases left with
  | nil => rfl
  | cons token rest =>
      dsimp only
      split
      · obtain ⟨hle', hname⟩ := skipNewlines_ok hctx rest
        rw [hname, ok_bind]
        dsimp only
        cases expect ctx .name "Expected a variable name after 'var'"
            (rest.dropWhile isNewline) with
        | error d => rfl
        | ok name =>
            obtain ⟨name, atAssign, _⟩ := name
            simp only [ok_bind, Taken.plain_ok]
            cases expect ctx .assign "Expected an assignment statement ('=')" atAssign with
            | error d => rfl
            | ok equals =>
                obtain ⟨_, atValue, _⟩ := equals
                simp only [ok_bind, Taken.plain_ok]
                cases expression ctx atValue <;> rfl
      split
      · obtain ⟨_, hinside⟩ := skipNewlines_ok hctx rest
        rw [hinside, ok_bind, ← blockStatements_plain hctx]
        dsimp only
        cases blockStatements ctx (rest.dropWhile isNewline) with
        | error d => rfl
        | ok body =>
            obtain ⟨body, atClose, _⟩ := body
            simp only [ok_bind, Read.plain_ok]
            cases expect ctx .rightCurly "Unclosed block" atClose <;> rfl
      split
      · cases expression ctx rest with
        | error d => rfl
        | ok condition =>
            obtain ⟨condition, atBody, _⟩ := condition
            simp only [ok_bind, Taken.plain_ok]
            cases bareStatement ctx atBody <;> rfl
      split
      · cases expression ctx rest <;> rfl
      · cases expression ctx (token :: rest) <;> rfl

theorem statement_plain (ctx : Context) (tokens : List Token) :
    Taken.plain (statement ctx tokens) = (do
      let (tree, atEnd) ← Taken.plain (bareStatement ctx tokens)
      let left ← Left.plain (terminator ctx atEnd)
      return (tree, left)) := by
  rw [statement]
  cases bareStatement ctx tokens with
  | error d => rfl
  | ok tree =>
      obtain ⟨tree, atEnd, _⟩ := tree
      simp only [ok_bind, Taken.plain_ok]
      cases terminator ctx atEnd <;> rfl

theorem program_plain (file : String) {stream : TokenStream} (hstream : stream.fault = none) :
    stream.program file = (do
      let (trees, rest) ← Read.plain (statements (.ofStream file stream) stream.tokens)
      match rest with
      | [] => .ok trees
      | token :: _ =>
        .error (unexpected token ["statement"] "'\x7d' without a matching '\x7b'")) := by
  have hctx : (Context.ofStream file stream).fault = none := hstream
  rw [TokenStream.program]
  cases statements (.ofStream file stream) stream.tokens with
  | error d => rfl
  | ok read =>
      obtain ⟨trees, rest, _⟩ := read
      simp only [ok_bind, Read.plain_ok]
      cases rest with
      | nil => exact mayEnd_clean hctx trees
      | cons token rest => rfl

end Scriptlet.Parser

namespace Scriptlet.TokenStream

open Scriptlet.Parser (Read.plain Taken.plain)

variable {stream : TokenStream} {file : String}

/-- A stream is a program if it ends without a fault and its statements use it up. -/
theorem program_ok_iff {trees : List Tree} :
    stream.program file = .ok trees ↔ stream.fault = none ∧
      Read.plain (Parser.statements (.ofStream file stream) stream.tokens) = .ok (trees, []) := by
  rw [program]
  match Parser.statements (.ofStream file stream) stream.tokens with
  | .error d => simp [bind, Except.bind]
  | .ok ⟨trees, [], _⟩ =>
      cases hfault : stream.fault <;>
        simp [bind, Except.bind, Parser.Context.mayEnd, Parser.Context.ofStream, hfault]
  | .ok ⟨trees, token :: rest, _⟩ => simp [bind, Except.bind]

/-- A stream is one statement if it ends without a fault and the statement uses it up. -/
theorem statement_ok_iff {tree : Tree} :
    stream.statement file = .ok tree ↔ stream.fault = none ∧
      Taken.plain (Parser.statement (.ofStream file stream) stream.tokens) = .ok (tree, []) := by
  rw [statement]
  match Parser.statement (.ofStream file stream) stream.tokens with
  | .error d => simp [bind, Except.bind]
  | .ok ⟨tree, [], _⟩ =>
      cases hfault : stream.fault <;>
        simp [bind, Except.bind, Parser.Context.mayEnd, Parser.Context.ofStream, hfault]
  | .ok ⟨tree, token :: rest, _⟩ => simp [bind, Except.bind]

end Scriptlet.TokenStream
