import Scriptlet.Diagnostic
import Scriptlet.Primitive
/-!
# Values

A value is a payload with an identity.  Values never change; two variables that share one refer to
the same identity.  The type of handles stands for what the host needs to run a native function.
-/

namespace Scriptlet

/-- The identity of a value.  Number zero belongs to the one value that statements yield. -/
structure ValueId where
  number : Nat
deriving DecidableEq, Repr, Inhabited

/-- What a value holds; `ν` is the type of handles of native functions. -/
inductive Payload (ν : Type) where
  | nothing
  | primitive (value : Primitive)
  /-- A native function; `result` is the sort of its result, if it has one. -/
  | native (name : String) (handle : ν) (result : Option Primitive.Kind)
deriving Inhabited

namespace Payload

variable {ν : Type}

def kind? : Payload ν → Option Primitive.Kind
  | primitive value => some value.kind
  | nothing | native .. => none

def isNothing : Payload ν → Bool
  | nothing => true
  | primitive _ | native .. => false

def render : Payload ν → Except Numeral.Error String
  | nothing => .ok "nothing"
  | primitive value => value.render
  | native name _ _ => .ok ("native <" ++ name ++ ">")

/-- The plain datum of a payload; a function has none. -/
def datum? : Payload ν → Option Datum
  | nothing => some .null
  | primitive value => some value.datum
  | native .. => none

/-- The payload of a datum of the host.  Containers are no values. -/
def ofDatum : Datum → Except Failure (Payload ν)
  | .null | .nothing => .ok nothing
  | .truth value => .ok (primitive (.truth value))
  | .integer value => .ok (primitive (.integer value))
  | .decimal value => .ok (primitive (.decimal value))
  | .text value => .ok (primitive (.text value))
  | datum =>
    .error (.placeless (.internal ("cannot convert " ++ datum.typeName ++ " to a value")))

end Payload

structure Value (ν : Type) where
  id : ValueId
  payload : Payload ν
deriving Inhabited

/-- The value that statements yield. -/
def Value.nothing {ν : Type} : Value ν where
  id := ⟨0⟩
  payload := .nothing

end Scriptlet
