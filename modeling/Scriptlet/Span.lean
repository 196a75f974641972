import Scriptlet.Numeral
/-!
# Source spans

A span names a file and the lines and columns where a piece of source starts and ends.  Lines and
columns count from one; zero stands for an unknown place.
-/

namespace Scriptlet

structure Span where
  file : String
  line : Int
  column : Int
  endLine : Int
  endColumn : Int
deriving DecidableEq, Repr, Inhabited

namespace Span

/-- A span whose missing end is its start. -/
def between (file : String) (line column endLine endColumn : Int) : Span where
  file := file
  line := line
  column := column
  endLine := if endLine = 0 then line else endLine
  endColumn := if endColumn = 0 then column else endColumn

def point (file : String) (line column : Int) : Span :=
  between file line column 0 0

/-- The span of something that has no known place. -/
def unknown : Span :=
  point "" 0 0

def ofLexeme (file : String) (line column : Int) (lexeme : String) : Span :=
  between file line column line (column + (lexeme.length - 1 : Nat))

/-- Writes the file and those of line and column that are known. -/
def render (span : Span) : String :=
  if span.file = "" ∧ span.line = 0 then "<unknown location>"
  else
    let file := if span.file = "" then [] else [span.file]
    let line := if 0 < span.line then [Numeral.text span.line] else []
    let column := if 0 < span.line ∧ 0 < span.column then [Numeral.text span.column] else []
    ":".intercalate (file ++ line ++ column)

end Span

end Scriptlet
