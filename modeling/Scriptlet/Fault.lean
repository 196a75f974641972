import Scriptlet.Fault.Code
/-!
# Faults

The causes for which a program is refused or stopped, with the wording of each.  Faults form a
hierarchy of kinds: general ones, one per phase, carry a message of their own, and the special ones
below them carry what their message is made of.
-/

namespace Scriptlet

/-- A cause for which a program is refused or stopped. -/
inductive Fault where
  | general (message : String)
  | lexical (message character : String)
  | invalidCharacter (character : String)
  | unterminatedText (quote : String)
  | grammatical (message : String) (expected : List String) (got : String)
  | unexpectedToken (got : String) (expected : List String)
  | unexpectedEnd (expected : List String)
  | semantic (message : String)
  | typing (message expected actual : String)
  | typeMismatch (expected actual context : String)
  | notCallable (callee actual : String)
  | scoping (message symbol : String)
  | undefinedSymbol (name sort : String)
  | redefinedSymbol (name sort : String)
  | binding (message : String)
  | arityMismatch (name : String) (expected actual : Int)
  | invalidTarget (target : String)
  | missingValue (context : String)
  | execution (message : String)
  | internal (message : String)
  | unboundValue (name : String)
  | scopeStack (message : String)
deriving DecidableEq, Repr, Inhabited

inductive Fault.Kind where
  | general
  | lexical
  | invalidCharacter
  | unterminatedText
  | grammatical
  | unexpectedToken
  | unexpectedEnd
  | semantic
  | typing
  | typeMismatch
  | notCallable
  | scoping
  | undefinedSymbol
  | redefinedSymbol
  | binding
  | arityMismatch
  | invalidTarget
  | missingValue
  | execution
  | internal
  | unboundValue
  | scopeStack
deriving DecidableEq, Repr, Inhabited

namespace Fault

/-- The kind that a kind is a special case of; only the most general one has none. -/
def Kind.parent? : Kind → Option Kind
  | .general => none
  | .lexical | .grammatical | .semantic | .execution | .internal => some .general
  | .invalidCharacter | .unterminatedText => some .lexical
  | .unexpectedToken | .unexpectedEnd => some .grammatical
  | .typing | .scoping | .binding => some .semantic
  | .typeMismatch | .notCallable => some .typing
  | .undefinedSymbol | .redefinedSymbol => some .scoping
  | .arityMismatch | .invalidTarget | .missingValue => some .binding
  | .unboundValue | .scopeStack => some .internal

/-- All kinds, from general to special. -/
def Kind.all : List Kind :=
  [.general, .lexical, .invalidCharacter, .unterminatedText, .grammatical, .unexpectedToken,
    .unexpectedEnd, .semantic, .typing, .typeMismatch, .notCallable, .scoping, .undefinedSymbol,
    .redefinedSymbol, .binding, .arityMismatch, .invalidTarget, .missingValue, .execution,
    .internal, .unboundValue, .scopeStack]

def kind : Fault → Kind
  | general .. => .general
  | lexical .. => .lexical
  | invalidCharacter .. => .invalidCharacter
  | unterminatedText .. => .unterminatedText
  | grammatical .. => .grammatical
  | unexpectedToken .. => .unexpectedToken
  | unexpectedEnd .. => .unexpectedEnd
  | semantic .. => .semantic
  | typing .. => .typing
  | typeMismatch .. => .typeMismatch
  | notCallable .. => .notCallable
  | scoping .. => .scoping
  | undefinedSymbol .. => .undefinedSymbol
  | redefinedSymbol .. => .redefinedSymbol
  | binding .. => .binding
  | arityMismatch .. => .arityMismatch
  | invalidTarget .. => .invalidTarget
  | missingValue .. => .missingValue
  | execution .. => .execution
  | internal .. => .internal
  | unboundValue .. => .unboundValue
  | scopeStack .. => .scopeStack

def Kind.code : Kind → Code
  | .general | .internal => Code.internal
  | .lexical | .invalidCharacter => Code.invalidCharacter
  | .unterminatedText => Code.unterminatedText
  | .grammatical | .unexpectedToken => Code.unexpectedToken
  | .unexpectedEnd => Code.unexpectedEnd
  | .semantic | .typing | .typeMismatch => Code.typeMismatch
  | .notCallable => Code.notCallable
  | .scoping | .undefinedSymbol => Code.undefinedSymbol
  | .redefinedSymbol => Code.redefinedSymbol
  | .binding | .missingValue => Code.missingValue
  | .arityMismatch => Code.arityMismatch
  | .invalidTarget => Code.invalidTarget
  | .execution => Code.execution
  | .unboundValue => Code.unboundValue
  | .scopeStack => Code.scopeStack

/-- How a character that starts no token is shown: by its number when it does not print. -/
def describeCharacter (character : String) : String :=
  match character.toList with
  | [c] =>
    if Text.isPrintable c then Text.quoted character
    else "U+" ++ String.ofList ((Text.hexDigits 4 c.toNat).map Char.toUpper)
  | _ => Text.quoted character

/-- What was expected instead; of several alternatives at most `shown` are listed. -/
def describeExpected (shown : Nat) : List String → String
  | [] => ""
  | [only] => ", expected " ++ only
  | several => ", expected one of: " ++ ", ".intercalate (several.take shown)

def message : Fault → String
  | general message | semantic message | binding message | execution message => message
  | lexical message _ => message
  | invalidCharacter character => "Unexpected character " ++ describeCharacter character
  | unterminatedText quote => "Unterminated text literal (missing closing " ++ quote ++ ")"
  | grammatical message _ _ => message
  | unexpectedToken got expected => "Unexpected token " ++ got ++ describeExpected 5 expected
  | unexpectedEnd expected =>
    "Unexpected end of input" ++ describeExpected expected.length expected
  | typing message _ _ => message
  | typeMismatch expected actual context =>
    let place := if context = "" then "" else " in " ++ context
    "Type mismatch" ++ place ++ ": expected '" ++ expected ++ "', got '" ++ actual ++ "'"
  | notCallable callee actual =>
    let reason := if actual = "" then "" else " (its type is '" ++ actual ++ "')"
    "'" ++ callee ++ "' is not callable" ++ reason
  | scoping message _ => message
  | undefinedSymbol name sort => "Unknown " ++ sort ++ " '" ++ name ++ "'"
  | redefinedSymbol name sort =>
    "Redeclaration of " ++ sort ++ " '" ++ name ++ "' in the same scope"
  | arityMismatch name expected actual =>
    "'" ++ name ++ "' expects " ++ Numeral.text expected ++ " argument(s), got " ++
      Numeral.text actual
  | invalidTarget target => "Cannot assign to " ++ target ++ "; only variables are assignable"
  | missingValue context => context ++ " must be an expression that produces a value"
  | internal message | scopeStack message => "Internal error: " ++ message
  | unboundValue name => "Internal error: symbol '" ++ name ++ "' has no bound value"

def advice : Fault → String
  | unterminatedText _ => "Add the closing quote character"
  | redefinedSymbol .. => "Names may only be redeclared in a nested block"
  | _ => ""

end Fault

end Scriptlet
