import Scriptlet.Primitive
/-!
# Symbols

What names denote.  Types are symbols too: a variable refers to its type by identity, and function
types are built from the identities of their parts.
-/

namespace Scriptlet

/-- The identity of a symbol.  Number zero belongs to no symbol. -/
structure SymbolId where
  number : Nat
deriving DecidableEq, Repr, Inhabited

def SymbolId.absent : SymbolId := ⟨0⟩

/-- What a symbol stands for. -/
inductive Symbol.Variant where
  | primitive
  | var (type : SymbolId)
  /-- A function type; without a result, calls are statements. -/
  | function (arguments : List SymbolId) (result : Option SymbolId)
  | native (type : SymbolId)
deriving DecidableEq, Repr, Inhabited

namespace Symbol.Variant

def isType : Symbol.Variant → Bool
  | primitive | function .. => true
  | var _ | native _ => false

/-- The type of the values that a symbol denotes; a type denotes no value. -/
def type? : Symbol.Variant → Option SymbolId
  | var type | native type => some type
  | primitive | function .. => none

/-- What messages call such a symbol. -/
def sort : Symbol.Variant → String
  | primitive | function .. => "type"
  | native _ => "native function"
  | var _ => "variable"

end Symbol.Variant

structure Symbol where
  id : SymbolId
  name : String
  variant : Symbol.Variant
deriving DecidableEq, Repr, Inhabited

namespace Primitive.Kind

def typeId : Primitive.Kind → SymbolId
  | integer => ⟨1⟩
  | decimal => ⟨2⟩
  | text => ⟨3⟩
  | truth => ⟨4⟩

def typeSymbol (kind : Primitive.Kind) : Symbol where
  id := kind.typeId
  name := kind.label
  variant := .primitive

end Primitive.Kind

/-- The structural name of a function type: its argument types between commas, then a colon and the
result type. -/
def functionTypeName (arguments : List String) (result : Option String) : String :=
  "<" ++ ",".intercalate arguments ++ ":" ++ result.getD "" ++ ">"

end Scriptlet
