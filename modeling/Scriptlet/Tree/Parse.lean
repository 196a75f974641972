import Scriptlet.Token.Scan
import Scriptlet.Tree
/-!
# Parsing

A recursive-descent parser over a token stream, with one token of lookahead.  Statements end with a
semicolon, a newline, the closing brace of their block or the end of the input.  Newlines are
skipped where an expression or a statement has to follow, and inside argument lists.

Every procedure returns the tokens that it leaves, with the proof that they are fewer.
-/

namespace Scriptlet.Parser

/-- What stays fixed during a parse: the file that is read, its last token, and the fault that the
stream of tokens ends in. -/
structure Context where
  file : String
  last : Option Token
  fault : Option Diagnostic
deriving Inhabited

def Context.ofStream (file : String) (stream : TokenStream) : Context where
  file := file
  last := stream.tokens.getLast?
  fault := stream.fault

def Context.endSpan (ctx : Context) : Span :=
  match ctx.last with
  | none => Span.point ctx.file 1 1
  | some token => Span.point ctx.file token.line (token.column + token.spelling.length)

def Context.ended (ctx : Context) (expected : List String) (hint : String) : Diagnostic :=
  match ctx.fault with
  | some diagnostic => diagnostic
  | none => (Diagnostic.of (.unexpectedEnd expected) ctx.endSpan).withHint hint

/-- The result of a look beyond the last token, where the input may end. -/
def Context.mayEnd (ctx : Context) (result : α) : Except Diagnostic α :=
  match ctx.fault with
  | some diagnostic => .error diagnostic
  | none => .ok result

def unexpected (token : Token) (expected : List String) (hint : String) : Diagnostic :=
  (Diagnostic.of (.unexpectedToken token.describe expected) token.span).withHint hint

/-- Tokens that are left of `tokens`, possibly all of them. -/
structure Left (tokens : List Token) where
  rest : List Token
  le : rest.length ≤ tokens.length

/-- Something read that may have taken no token of `tokens`. -/
structure Read (α : Type) (tokens : List Token) where
  value : α
  rest : List Token
  le : rest.length ≤ tokens.length

/-- Something read that took at least one token of `tokens`. -/
structure Taken (α : Type) (tokens : List Token) where
  value : α
  rest : List Token
  lt : rest.length < tokens.length

def skipNewlines (ctx : Context) : (tokens : List Token) → Except Diagnostic (Left tokens)
  | [] => ctx.mayEnd ⟨[], Nat.le_refl _⟩
  | token :: rest =>
    if token.kind = .newline then do
      let ⟨left, h⟩ ← skipNewlines ctx rest
      return ⟨left, Nat.le_succ_of_le h⟩
    else .ok ⟨token :: rest, Nat.le_refl _⟩

def expect (ctx : Context) (kind : Token.Kind) (hint : String) :
    (tokens : List Token) → Except Diagnostic (Taken Token tokens)
  | [] => .error (ctx.ended [kind.label] hint)
  | token :: rest =>
    if token.kind = kind then .ok ⟨token, rest, Nat.lt_succ_self _⟩
    else .error (unexpected token [kind.label] hint)

/-- The sort of value that a literal token spells. -/
def literalKind? : Token.Kind → Option Primitive.Kind
  | .number => some .integer
  | .truth => some .truth
  | .text => some .text
  | _ => none

/-- A literal or a name, the innermost part of every expression. -/
def factor (ctx : Context) (tokens : List Token) : Except Diagnostic (Taken Tree tokens) := do
  let ⟨left, h⟩ ← skipNewlines ctx tokens
  match left, h with
  | [], _ => .error (ctx.ended ["expression"] "")
  | token :: rest, h =>
    match literalKind? token.kind with
    | some kind => .ok ⟨.literal token kind, rest, h⟩
    | none =>
      if token.kind = .name then .ok ⟨.reference token, rest, h⟩
      else .error (unexpected token ["expression"] "")

/-- The end of a statement.  A closing brace is left for the block that it ends. -/
def terminator (ctx : Context) : (tokens : List Token) → Except Diagnostic (Left tokens)
  | [] => ctx.mayEnd ⟨[], Nat.le_refl _⟩
  | token :: rest =>
    if token.kind = .semicolon ∨ token.kind = .newline then do
      let ⟨left, h⟩ ← skipNewlines ctx rest
      return ⟨left, Nat.le_succ_of_le h⟩
    else if token.kind = .rightCurly then .ok ⟨token :: rest, Nat.le_refl _⟩
    else
      .error (unexpected token [Token.Kind.newline.label]
        "Statements are terminated by ';' or a newline")

mutual

/-- An expression: a factor with the assignments and calls that follow it. -/
def expression (ctx : Context) (tokens : List Token) : Except Diagnostic (Taken Tree tokens) := do
  let ⟨first, afterFirst, hFirst⟩ ← factor ctx tokens
  let ⟨tree, rest, hRest⟩ ← suffixes ctx first afterFirst
  return ⟨tree, rest, by omega⟩
termination_by 8 * tokens.length

def suffixes (ctx : Context) (tree : Tree) (tokens : List Token) :
    Except Diagnostic (Read Tree tokens) :=
  match tokens with
  | [] => ctx.mayEnd ⟨tree, [], Nat.le_refl _⟩
  | token :: rest =>
    if token.kind = .assign then do
      let ⟨value, afterValue, hValue⟩ ← expression ctx rest
      let ⟨whole, left, hLeft⟩ ← suffixes ctx (.assign tree value token) afterValue
      return ⟨whole, left, by simp only [List.length_cons]; omega⟩
    else if token.kind = .leftParen then do
      let ⟨inside, hInside⟩ ← skipNewlines ctx rest
      let ⟨values, afterValues, hValues⟩ ← arguments ctx inside
      let ⟨_, afterCall, hCall⟩ ← expect ctx .rightParen "Unclosed argument list" afterValues
      let ⟨whole, left, hLeft⟩ ← suffixes ctx (.call tree values token) afterCall
      return ⟨whole, left, by simp only [List.length_cons]; omega⟩
    else .ok ⟨tree, token :: rest, Nat.le_refl _⟩
termination_by 8 * tokens.length + 1

/-- Expressions between commas, up to a closing parenthesis; the last may be followed by a comma. -/
def arguments (ctx : Context) (tokens : List Token) :
    Except Diagnostic (Read (List Tree) tokens) :=
  match tokens with
  | [] => ctx.mayEnd ⟨[], [], Nat.le_refl _⟩
  | token :: rest =>
    if token.kind = .rightParen then .ok ⟨[], token :: rest, Nat.le_refl _⟩
    else do
      let ⟨first, afterFirst, hFirst⟩ ← expression ctx (token :: rest)
      let ⟨left, hLeft⟩ ← skipNewlines ctx afterFirst
      match left, hLeft with
      | [], _ => ctx.mayEnd ⟨[first], [], Nat.zero_le _⟩
      | next :: afterNext, hLeft =>
        if next.kind = .comma then do
          let ⟨inside, hInside⟩ ← skipNewlines ctx afterNext
          let ⟨others, left, hOthers⟩ ← arguments ctx inside
          return ⟨first :: others, left, by simp only [List.length_cons] at *; omega⟩
        else .ok ⟨[first], next :: afterNext, by omega⟩
termination_by 8 * tokens.length + 1
decreasing_by all_goals (simp only [List.length_cons] at *; omega)

def bareStatement (ctx : Context) (tokens : List Token) :
    Except Diagnostic (Taken Tree tokens) := do
  let ⟨left, hLeft⟩ ← skipNewlines ctx tokens
  match left, hLeft with
  | [], _ => .error (ctx.ended ["statement"] "")
  | token :: rest, hLeft =>
    if token.kind = .var then do
      let ⟨atName, hAtName⟩ ← skipNewlines ctx rest
      let ⟨name, atAssign, hAtAssign⟩ ←
        expect ctx .name "Expected a variable name after 'var'" atName
      let ⟨_, atValue, hAtValue⟩ ←
        expect ctx .assign "Expected an assignment statement ('=')" atAssign
      let ⟨value, left, hValue⟩ ← expression ctx atValue
      return ⟨.declare name value, left, by simp only [List.length_cons] at hLeft; omega⟩
    else if token.kind = .leftCurly then do
      let ⟨inside, hInside⟩ ← skipNewlines ctx rest
      let ⟨body, atClose, hClose⟩ ← blockStatements ctx inside
      let ⟨_, left, hEnd⟩ ← expect ctx .rightCurly "Unclosed block" atClose
      return ⟨.block body (some token), left, by simp only [List.length_cons] at hLeft; omega⟩
    else if token.kind = .if_ then do
      let ⟨condition, atBody, hBody⟩ ← expression ctx rest
      let ⟨body, left, hEnd⟩ ← bareStatement ctx atBody
      return ⟨.conditional condition body token, left, by
        simp only [List.length_cons] at hLeft; omega⟩
    else if token.kind = .debugPrint then do
      let ⟨operand, left, hEnd⟩ ← expression ctx rest
      return ⟨.debugPrint operand token, left, by simp only [List.length_cons] at hLeft; omega⟩
    else do
      let ⟨tree, left, hEnd⟩ ← expression ctx (token :: rest)
      return ⟨tree, left, by omega⟩
termination_by 8 * tokens.length + 2
decreasing_by all_goals (simp only [List.length_cons] at *; omega)

def statement (ctx : Context) (tokens : List Token) : Except Diagnostic (Taken Tree tokens) := do
  let ⟨tree, atEnd, hEnd⟩ ← bareStatement ctx tokens
  let ⟨left, hLeft⟩ ← terminator ctx atEnd
  return ⟨tree, left, by omega⟩
termination_by 8 * tokens.length + 3

/-- Statements up to a closing brace or the end of the input.  Newlines are skipped in front of every
statement. -/
def statements (ctx : Context) (tokens : List Token) :
    Except Diagnostic (Read (List Tree) tokens) := do
  let ⟨left, hLeft⟩ ← skipNewlines ctx tokens
  match left, hLeft with
  | [], _ => ctx.mayEnd ⟨[], [], Nat.zero_le _⟩
  | token :: rest, hLeft =>
    if token.kind = .rightCurly then .ok ⟨[], token :: rest, hLeft⟩
    else do
      let ⟨first, afterFirst, hFirst⟩ ← statement ctx (token :: rest)
      let ⟨others, left, hOthers⟩ ← statements ctx afterFirst
      return ⟨first :: others, left, by omega⟩
termination_by 8 * tokens.length + 4
decreasing_by all_goals (simp only [List.length_cons] at *; omega)

/-- Statements up to the closing brace of a block, with no newline in front of the first one.
Newlines behind a statement are skipped before the brace is looked for. -/
def blockStatements (ctx : Context) (tokens : List Token) :
    Except Diagnostic (Read (List Tree) tokens) :=
  match tokens with
  | [] => ctx.mayEnd ⟨[], [], Nat.le_refl _⟩
  | token :: rest =>
    if token.kind = .rightCurly then .ok ⟨[], token :: rest, Nat.le_refl _⟩
    else do
      let ⟨first, afterFirst, hFirst⟩ ← statement ctx (token :: rest)
      let ⟨inside, hInside⟩ ← skipNewlines ctx afterFirst
      let ⟨others, left, hOthers⟩ ← blockStatements ctx inside
      return ⟨first :: others, left, by omega⟩
termination_by 8 * tokens.length + 4
decreasing_by all_goals (simp only [List.length_cons] at *; omega)

end

/-- Statements one after the other until the input is used up: those read, and the fault that
stopped the reading. -/
def eachStatement (ctx : Context) (tokens : List Token) : List Tree × Option Diagnostic :=
  match tokens with
  | [] => ([], ctx.fault)
  | token :: rest =>
    match statement ctx (token :: rest) with
    | .error diagnostic => ([], some diagnostic)
    | .ok ⟨tree, left, _hLeft⟩ =>
      let (trees, fault) := eachStatement ctx left
      (tree :: trees, fault)
termination_by tokens.length
decreasing_by exact _hLeft

end Scriptlet.Parser

namespace Scriptlet.TokenStream

def program (file : String) (stream : TokenStream) : Except Diagnostic (List Tree) := do
  let ctx := Parser.Context.ofStream file stream
  let ⟨trees, rest, _⟩ ← Parser.statements ctx stream.tokens
  match rest with
  | [] => ctx.mayEnd trees
  | token :: _ =>
    .error (Parser.unexpected token ["statement"] "'\x7d' without a matching '\x7b'")

/-- A whole program as one block. -/
def block (file : String) (stream : TokenStream) : Except Diagnostic Tree := do
  return .block (← stream.program file) none

def statement (file : String) (stream : TokenStream) : Except Diagnostic Tree := do
  let ctx := Parser.Context.ofStream file stream
  let ⟨tree, rest, _⟩ ← Parser.statement ctx stream.tokens
  match rest with
  | [] => ctx.mayEnd tree
  | token :: _ => .error (Parser.unexpected token ["end of input"] "")

/-- The statements that can be read one after the other, and the fault that stopped the reading. -/
def each (file : String) (stream : TokenStream) : List Tree × Option Diagnostic :=
  Parser.eachStatement (Parser.Context.ofStream file stream) stream.tokens

end Scriptlet.TokenStream

namespace Scriptlet

def parseProgram (source file : String) : Except Diagnostic (List Tree) :=
  (TokenStream.scan source file).program file

end Scriptlet
