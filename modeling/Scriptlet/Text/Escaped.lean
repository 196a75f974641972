/-!
# Escaped text

Inside a text literal a backslash escapes the double quote and itself.  Where a literal has to stay
on one line, the newline is escaped as well.
-/

namespace Scriptlet.Text

/-- How a character stands inside a text literal. -/
def escapedChar (c : Char) : List Char :=
  if c = '\\' ∨ c = '"' then ['\\', c] else [c]

/-- How a character stands inside a text literal of one line. -/
def escapedLineChar (c : Char) : List Char :=
  if c = '\n' then ['\\', 'n'] else escapedChar c

def literal (text : String) : String :=
  String.ofList ('"' :: text.toList.flatMap escapedChar ++ ['"'])

/-- A text between double quotes, on one line. -/
def lineLiteral (text : String) : String :=
  String.ofList ('"' :: text.toList.flatMap escapedLineChar ++ ['"'])

end Scriptlet.Text
