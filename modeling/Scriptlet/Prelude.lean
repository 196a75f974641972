import Scriptlet.Behaviour
/-!
# The prelude

The native functions that a session offers from the start, and sessions ready for use.
-/

namespace Scriptlet

/-- A native function together with the signature under which it is registered. -/
structure NativeFunction where
  name : String
  arguments : List String
  result : Option String
  description : String
  behaviour : Behaviour

/-- The functions that write their argument to the session's output. -/
def prelude : List NativeFunction :=
  [{ name := "print"
     arguments := [Primitive.Kind.text.label]
     result := none
     description := "Write a text value to the debug stream"
     behaviour := .writeText },
   { name := "print_int"
     arguments := [Primitive.Kind.integer.label]
     result := none
     description := "Write an integer to the debug stream"
     behaviour := .writeInteger }]

namespace Session

def install : List NativeFunction → Act (Session Behaviour) Unit
  | [] => return ()
  | function :: functions => do
    let _ ← Behaviour.register function.name function.arguments function.result function.behaviour
    install functions

/-- A session with the given settings, which have to make sense. -/
def start (settings : Settings) : Except Failure (Session Behaviour) :=
  match settings.problems with
  | [] =>
    let functions := if settings.prelude then prelude else []
    match install functions |>.run (initial settings) with
    | (.ok (), session) => .ok session
    | (.error failure, _) => .error failure
  | problems => .error (.host (.invalidSettings problems))

end Session

end Scriptlet
