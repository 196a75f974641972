import Scriptlet.Fault
import Scriptlet.HostError
import Scriptlet.Span
/-!
# Diagnostics

A diagnostic is a fault at a place, with the notes, the hint and the source line that go with it.
It is shown as one line in the customary `place: severity: message [code]` form, followed by the
source line with a caret, the notes and the hint.
-/

namespace Scriptlet

/-- A remark attached to a diagnostic. -/
structure Note where
  message : String
  span : Option Span
  label : String
deriving DecidableEq, Repr, Inhabited

def Note.render (note : Note) : String :=
  let place := match note.span with
    | some span => span.render ++ ": "
    | none => ""
  let label := if note.label = "" then "" else note.label ++ ": "
  place ++ label ++ note.message

/-- A fault at a place. -/
structure Diagnostic where
  fault : Fault
  span : Span
  code : Code
  severity : Severity
  notes : List Note
  hint : String
  sourceLine : String
  /-- The host error that led to the fault. -/
  cause : Option HostError
deriving DecidableEq, Repr, Inhabited

namespace Diagnostic

/-- The diagnostic of a fault at a place, with the code, severity and advice of its kind. -/
def of (fault : Fault) (span : Span) : Diagnostic where
  fault := fault
  span := span
  code := fault.kind.code
  severity := fault.kind.code.severity
  notes := []
  hint := fault.advice
  sourceLine := ""
  cause := none

def placeless (fault : Fault) : Diagnostic :=
  of fault Span.unknown

def message (d : Diagnostic) : String :=
  d.fault.message

def addNote (d : Diagnostic) (message : String) (span : Option Span) (label : String) :
    Diagnostic :=
  { d with notes := d.notes ++ [⟨message, span, label⟩] }

def withHint (d : Diagnostic) (hint : String) : Diagnostic :=
  { d with hint := hint }

def withSource (d : Diagnostic) (line : String) : Diagnostic :=
  { d with sourceLine := line }

def withCause (d : Diagnostic) (cause : HostError) : Diagnostic :=
  { d with cause := some cause }

def margin : String := "    "

/-- The line of carets under the source line, if the column is known. -/
def caretLine? (span : Span) : Option String :=
  if 0 < span.column then
    let start := (span.column - 1).toNat
    let width := max 1 (span.endColumn - span.column + 1).toNat
    some (margin ++ String.ofList (List.replicate start ' ' ++ List.replicate width '^'))
  else none

def lines (d : Diagnostic) : List String :=
  let head := d.span.render ++ ": " ++ d.severity.label ++ ": " ++ d.message ++ " [" ++
    d.code.render ++ "]"
  let source :=
    if d.sourceLine = "" then []
    else (margin ++ d.sourceLine) :: (caretLine? d.span).toList
  let hint := if d.hint = "" then [] else ["hint: " ++ d.hint]
  head :: source ++ d.notes.map Note.render ++ hint

def render (d : Diagnostic) : String :=
  "\n".intercalate d.lines

end Diagnostic

/-- What ends a piece of work: a fault of the program, or an error outside the language. -/
inductive Failure where
  | fault (diagnostic : Diagnostic)
  | host (error : HostError)
deriving DecidableEq, Repr, Inhabited

def Failure.located (fault : Fault) (span : Span) : Failure :=
  .fault (Diagnostic.of fault span)

def Failure.placeless (fault : Fault) : Failure :=
  .fault (Diagnostic.placeless fault)

end Scriptlet
