import Scriptlet.Span
/-!
# Tokens

The words that a program is made of, each with the text it denotes, the lexeme it was read from and
the place where it stands.
-/

namespace Scriptlet

inductive Token.Kind where
  | var
  | if_
  | truth
  | name
  | number
  | text
  | assign
  | semicolon
  | leftCurly
  | rightCurly
  | leftParen
  | rightParen
  | comma
  | debugPrint
  | newline
deriving DecidableEq, Repr, Inhabited

namespace Token.Kind

def label : Token.Kind → String
  | var => "'var'"
  | if_ => "'if'"
  | truth => "truth literal"
  | name => "name"
  | number => "integer literal"
  | text => "text literal"
  | assign => "'='"
  | semicolon => "';'"
  | leftCurly => "'\x7b'"
  | rightCurly => "'\x7d'"
  | leftParen => "'('"
  | rightParen => "')'"
  | comma => "','"
  | debugPrint => "':'"
  | newline => "newline"

/-- Tokens whose sort does not fix their lexeme. -/
def isOpen : Token.Kind → Bool
  | name | number | text | truth => true
  | _ => false

def all : List Token.Kind :=
  [var, if_, truth, name, number, text, assign, semicolon, leftCurly, rightCurly, leftParen,
    rightParen, comma, debugPrint, newline]

end Token.Kind

structure Token where
  kind : Token.Kind
  /-- The text that the token denotes: of a text literal, its content. -/
  text : String
  line : Int
  column : Int
  /-- The slice of the source that the token was read from. -/
  lexeme : String
  file : String
deriving DecidableEq, Repr, Inhabited

namespace Token

/-- The span that a token covers; `file`, unless empty, overrides its own. -/
def spanIn (token : Token) (file : String) : Span :=
  .ofLexeme (if file = "" then token.file else file) token.line token.column token.lexeme

def span (token : Token) : Span :=
  token.spanIn ""

/-- The lexeme, or the text of a token that has none. -/
def spelling (token : Token) : String :=
  if token.lexeme = "" then token.text else token.lexeme

def describe (token : Token) : String :=
  if token.kind.isOpen then token.kind.label ++ " " ++ Text.quoted token.spelling
  else token.kind.label

def render (token : Token) : String :=
  token.describe ++ " at " ++ Numeral.text token.line ++ ":" ++ Numeral.text token.column

end Token

end Scriptlet
