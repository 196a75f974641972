import Scriptlet.Datum
/-!
# Errors outside the language

Not every error is a fault of a program.  Numerals may be too long to convert, an embedding program
may hand over trees or settings that make no sense, and its functions may fail on their own.
-/

namespace Scriptlet

inductive HostError.Kind where
  | value
  | type
  | index
  | attribute
  | zeroDivision
  | overflow
  | depth
  | other
deriving DecidableEq, Repr, Inhabited

/-- An error that is not a fault of the program being run. -/
inductive HostError where
  | numeral (error : Numeral.Error)
  /-- A foreign node among the statements to analyse, to run or to dump. -/
  | foreignStatement (sort : String)
  | foreignAnnotated (sort : String)
  | foreignDump (sort : String)
  /-- A foreign node was asked for its place. -/
  | noPlace (sort : String)
  | invalidSettings (problems : List String)
  | nonPrimitiveResult (name type : String)
  | indexOutOfRange
  /-- A host function met data of a type that it cannot handle. -/
  | unsupportedOperands (left right : String)
  | notAText (position : Nat) (type : String)
  | noLength (type : String)
  | tooLargeForDecimal
  /-- There is no text to evaluate. -/
  | noSource
  | nestedTooDeep
  /-- A host function failed of its own accord. -/
  | raised (kind : HostError.Kind) (message : String)
deriving DecidableEq, Repr, Inhabited

namespace HostError

def kind : HostError → Kind
  | numeral _ | invalidSettings _ | nonPrimitiveResult .. => .value
  | foreignStatement _ | foreignAnnotated _ | foreignDump _ | unsupportedOperands ..
  | notAText .. | noLength _ | noSource => .type
  | tooLargeForDecimal => .overflow
  | noPlace _ => .attribute
  | indexOutOfRange => .index
  | nestedTooDeep => .depth
  | raised kind _ => kind

def message : HostError → String
  | numeral error => error.message
  | foreignStatement sort => "Unknown syntax node type: " ++ sort
  | foreignAnnotated sort => "Unknown annotated node type: " ++ sort
  | foreignDump sort => "Cannot dump " ++ sort
  | noPlace sort => "'" ++ sort ++ "' object has no attribute 'token'"
  | invalidSettings problems =>
    "Invalid interpreter configuration: " ++ "; ".intercalate problems
  | nonPrimitiveResult name type =>
    "native function '" ++ name ++ "' must return a primitive type, not '" ++ type ++ "'"
  | indexOutOfRange => "list index out of range"
  | unsupportedOperands left right =>
    "unsupported operand type(s) for +: '" ++ left ++ "' and '" ++ right ++ "'"
  | notAText position type =>
    s!"sequence item {position}: expected str instance, " ++ type ++ " found"
  | noLength type => "object of type '" ++ type ++ "' has no len()"
  | tooLargeForDecimal => "int too large to convert to float"
  | noSource => "expected string or buffer"
  | nestedTooDeep => "maximum recursion depth exceeded"
  | raised _ message => message

end HostError

end Scriptlet
