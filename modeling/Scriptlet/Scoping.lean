import Scriptlet.Act
import Scriptlet.Scope
/-!
# Scoping

The forest of scopes together with a cursor on the scope in which names are declared and resolved.
Leaving a scope moves the cursor to the parent of the scope it stands on.
-/

namespace Scriptlet

inductive ScopeEvent where
  | entered (id : ScopeId) (scope : String)
  | left (id : ScopeId) (scope : String)
  | declared (sort name scope : String)
deriving DecidableEq, Repr, Inhabited

/-- The forest, the cursor, and what happened to them lately, the latest first. -/
structure Scoping where
  forest : Forest
  cursor : ScopeId
  log : List ScopeEvent
deriving DecidableEq, Repr, Inhabited

namespace Scoping

def initial : Scoping where
  forest := .initial
  cursor := Forest.globalId
  log := (Primitive.Kind.all.map fun kind =>
    ScopeEvent.declared "type" kind.label "global").reverse

def record (event : ScopeEvent) : Act Scoping Unit :=
  modify fun s => { s with log := event :: s.log }

def current : Act Scoping Scope := do
  let s ← get
  Act.ofExcept (s.forest.get s.cursor)

def enter (id : ScopeId) : Act Scoping Unit := do
  match (← get).forest.get? id with
  | none =>
    throw (.placeless (.scopeStack ("cannot enter unknown scope " ++ hiddenIdentity)))
  | some scope =>
    modify fun s => { s with cursor := id }
    record (.entered id scope.name)

/-- Moves the cursor to the parent of the scope that it stands on. -/
def leave : Act Scoping Unit := do
  let scope ← current
  match scope.parent with
  | none => throw (.placeless (.scopeStack "cannot leave the global scope"))
  | some parent =>
    record (.left scope.id scope.name)
    modify fun s => { s with cursor := parent }

def plant (name : String) (parent : Option ScopeId) : Act Scoping ScopeId := do
  let s ← get
  let (id, forest) ← Act.ofExcept (s.forest.plant name parent)
  set { s with forest := forest }
  return id

def insert (scope : Scope) (name : String) (variant : Symbol.Variant) (sort : String) :
    Act Scoping Symbol := do
  let s ← get
  let (symbol, forest) ← Act.ofExcept (s.forest.insert scope name variant sort)
  set { s with forest := forest }
  record (.declared sort name scope.name)
  return symbol

def resolve (name : String) : Act Scoping (Option Symbol) := do
  let s ← get
  Act.ofExcept (s.forest.lookup s.cursor name)

def resolveId (id : SymbolId) : Act Scoping (Option Symbol) := do
  let s ← get
  Act.ofExcept (s.forest.lookupId s.cursor id)

/-- Declares a name in the scope that the cursor stands on.  Names of outer scopes may be
shadowed. -/
def declare (name : String) (variant : Symbol.Variant) (span : Span) : Act Scoping Symbol := do
  let scope ← current
  match scope.find? name with
  | some existing =>
    throw (.fault ((Diagnostic.of (.redefinedSymbol name variant.sort) span).addNote
      ("'" ++ name ++ "' is already declared as a " ++ existing.variant.sort ++ " in the " ++
        scope.name ++ " scope") none "note"))
  | none => insert scope name variant variant.sort

def typeSymbol (id : SymbolId) : Act Scoping Symbol := do
  Act.ofExcept ((← get).forest.typeSymbol id)

def typeName (id : SymbolId) : Act Scoping String := do
  return (← typeSymbol id).name

def typeNamed (name : String) : Act Scoping Symbol := do
  let unknown : Failure := .placeless (.undefinedSymbol name "type")
  match (← get).forest.global.find? name with
  | none => throw unknown
  | some symbol => if symbol.variant.isType then return symbol else throw unknown

/-- The function type of a signature.  Types are interned by name, so that equal signatures share
one type. -/
def functionType (arguments : List SymbolId) (result : Option SymbolId) : Act Scoping Symbol := do
  let names ← arguments.mapM typeName
  let resultName ← result.mapM typeName
  let name := functionTypeName names resultName
  let scope := (← get).forest.global
  match scope.find? name with
  | some existing => return existing
  | none => insert scope name (.function arguments result) "type"

end Scoping

end Scriptlet
