import Scriptlet.Numeral
/-!
# Fault codes

Every fault has a code: a series, a number, the category and phase that it belongs to, and the
severity that it has unless stated otherwise.
-/

namespace Scriptlet

/-- Whether a fault is an ordinary one or a breach of the language's own invariants. -/
inductive Severity where
  | fatal
  | error
deriving DecidableEq, Repr, Inhabited

def Severity.label : Severity → String
  | fatal => "fatal"
  | error => "error"

/-- The stage that a fault arises in. -/
inductive Phase where
  | lexical
  | grammatical
  | semantic
  | runtime
  | internal
deriving DecidableEq, Repr, Inhabited

def Phase.label : Phase → String
  | lexical => "lexical"
  | grammatical => "syntax"
  | semantic => "semantic"
  | runtime => "runtime"
  | internal => "internal"

inductive Category where
  | invalidCharacter
  | unterminatedText
  | unexpectedToken
  | unexpectedEnd
  | typeMismatch
  | notCallable
  | undefinedSymbol
  | redefinedSymbol
  | arityMismatch
  | invalidTarget
  | missingValue
  | execution
  | internal
  | unboundValue
  | brokenInvariant
deriving DecidableEq, Repr, Inhabited

def Category.label : Category → String
  | invalidCharacter => "INVALID_CHARACTER"
  | unterminatedText => "UNTERMINATED_STRING"
  | unexpectedToken => "UNEXPECTED_TOKEN"
  | unexpectedEnd => "UNEXPECTED_EOF"
  | typeMismatch => "TYPE_MISMATCH"
  | notCallable => "NOT_CALLABLE"
  | undefinedSymbol => "UNDEFINED_SYMBOL"
  | redefinedSymbol => "REDEFINED_SYMBOL"
  | arityMismatch => "ARITY_MISMATCH"
  | invalidTarget => "INVALID_ASSIGNMENT_TARGET"
  | missingValue => "MISSING_VALUE"
  | execution => "EXECUTION_ERROR"
  | internal => "INTERNAL_ERROR"
  | unboundValue => "UNBOUND_VALUE"
  | brokenInvariant => "INVARIANT_BROKEN"

structure Code where
  series : String
  number : Int
  category : Category
  phase : Phase
  severity : Severity
deriving DecidableEq, Repr, Inhabited

namespace Code

/-- The series and the number, the latter with four characters at least. -/
def render (code : Code) : String :=
  code.series ++ "-" ++ Numeral.padded 4 code.number

def describe (code : Code) : String :=
  "ErrorCode(" ++ Text.quoted code.render ++ ", " ++ code.category.label ++ ")"

/-- Two codes are the same when series and number agree. -/
def same (a b : Code) : Bool :=
  a.series = b.series && a.number = b.number

/-- The prime by which numbers are hashed. -/
def hashModulus : Nat := Nat.pow 2 61 - 1

/-- The residue by which a number is hashed: numbers agree modulo a Mersenne prime, the sign kept,
and minus one shares the residue of minus two. -/
def residue (number : Int) : Int :=
  let r := Int.tmod number hashModulus
  if r = -1 then -2 else r

def sameHash (a b : Code) : Bool :=
  a.series = b.series && residue a.number = residue b.number

/-- A code of the language's own series. -/
def own (number : Int) (category : Category) (phase : Phase) (severity : Severity) : Code where
  series := "ODO"
  number := number
  category := category
  phase := phase
  severity := severity

def invalidCharacter : Code := own 1 .invalidCharacter .lexical .error
def unterminatedText : Code := own 2 .unterminatedText .lexical .error
def unexpectedToken : Code := own 1000 .unexpectedToken .grammatical .error
def unexpectedEnd : Code := own 1002 .unexpectedEnd .grammatical .error
def typeMismatch : Code := own 2000 .typeMismatch .semantic .error
def notCallable : Code := own 2001 .notCallable .semantic .error
def undefinedSymbol : Code := own 3000 .undefinedSymbol .semantic .error
def redefinedSymbol : Code := own 3001 .redefinedSymbol .semantic .error
def arityMismatch : Code := own 3100 .arityMismatch .semantic .error
def invalidTarget : Code := own 3101 .invalidTarget .semantic .error
def missingValue : Code := own 3102 .missingValue .semantic .error
def execution : Code := own 5000 .execution .runtime .error
def internal : Code := own 9000 .internal .internal .fatal
def unboundValue : Code := own 9001 .unboundValue .internal .fatal
def scopeStack : Code := own 9002 .brokenInvariant .internal .fatal

/-- All codes of the language, under the names that the catalogue gives them. -/
def catalogue : List (String × Code) :=
  [("INVALID_CHARACTER", invalidCharacter), ("UNTERMINATED_STRING", unterminatedText),
    ("UNEXPECTED_TOKEN", unexpectedToken), ("UNEXPECTED_EOF", unexpectedEnd),
    ("TYPE_MISMATCH", typeMismatch), ("NOT_CALLABLE", notCallable),
    ("UNDEFINED_SYMBOL", undefinedSymbol), ("REDEFINED_SYMBOL", redefinedSymbol),
    ("ARITY_MISMATCH", arityMismatch), ("INVALID_ASSIGNMENT_TARGET", invalidTarget),
    ("MISSING_VALUE", missingValue), ("EXECUTION_ERROR", execution),
    ("INTERNAL_ERROR", internal), ("UNBOUND_VALUE", unboundValue), ("SCOPE_STACK", scopeStack)]

end Code

end Scriptlet
