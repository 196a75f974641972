import Scriptlet.Symbol
import Scriptlet.Diagnostic
/-!
# Scopes

A scope is a table of symbols with distinct names, in the order of their declaration.  Scopes form
a forest that only grows: a scope's parent was there before it, and nothing is ever removed.
-/

namespace Scriptlet

/-- The identity of a scope: its number in order of creation.  Number zero belongs to no scope. -/
structure ScopeId where
  number : Nat
deriving DecidableEq, Repr, Inhabited

def ScopeId.absent : ScopeId := ⟨0⟩

/-- One table of symbols. -/
structure Scope where
  id : ScopeId
  name : String
  parent : Option ScopeId
  symbols : List Symbol
deriving DecidableEq, Repr, Inhabited

namespace Scope

def find? (scope : Scope) (name : String) : Option Symbol :=
  scope.symbols.find? fun symbol => symbol.name = name

def get? (scope : Scope) (id : SymbolId) : Option Symbol :=
  scope.symbols.find? fun symbol => symbol.id = id

def push (scope : Scope) (symbol : Symbol) : Scope :=
  { scope with symbols := scope.symbols ++ [symbol] }

def describe (scope : Scope) : String :=
  "Scope(" ++ Text.quoted scope.name ++ s!", {scope.symbols.length} symbol(s))"

end Scope

/-- How identities are shown in messages. -/
def hiddenIdentity : String := "<id>"

/-- All scopes, the newest first, and the number of the next symbol. -/
structure Forest where
  scopes : List Scope
  nextSymbol : Nat
deriving DecidableEq, Repr, Inhabited

namespace Forest

/-- The scope of types and native functions, the root of every program's scopes. -/
def globalId : ScopeId := ⟨1⟩

/-- The scope of top-level declarations. -/
def replId : ScopeId := ⟨2⟩

def initial : Forest where
  scopes :=
    [⟨replId, "repl", some globalId, []⟩,
      ⟨globalId, "global", none, Primitive.Kind.all.map Primitive.Kind.typeSymbol⟩]
  nextSymbol := 5

def get? (forest : Forest) (id : ScopeId) : Option Scope :=
  forest.scopes.find? fun scope => scope.id = id

def contains (forest : Forest) (id : ScopeId) : Bool :=
  (forest.get? id).isSome

/-- The scope with the given identity, which has to exist. -/
def get (forest : Forest) (id : ScopeId) : Except Failure Scope :=
  match forest.get? id with
  | some scope => .ok scope
  | none => .error (.placeless (.scopeStack ("unknown scope " ++ hiddenIdentity)))

def global (forest : Forest) : Scope :=
  (forest.get? globalId).getD ⟨globalId, "global", none, []⟩

/-- A scope and its ancestors, among scopes of which the newest is first: the parent of each is
sought among the older ones. -/
def chainIn : List Scope → ScopeId → List Scope
  | [], _ => []
  | scope :: older, id =>
    if scope.id = id then
      match scope.parent with
      | none => [scope]
      | some parent => scope :: chainIn older parent
    else chainIn older id

def chain (forest : Forest) (id : ScopeId) : Except Failure (List Scope) := do
  let _ ← forest.get id
  return chainIn forest.scopes id

/-- The innermost symbol of the given name that is visible from a scope. -/
def lookup (forest : Forest) (id : ScopeId) (name : String) : Except Failure (Option Symbol) := do
  return (← forest.chain id).findSome? fun scope => scope.find? name

/-- The symbol of the given identity, if it is visible from a scope. -/
def lookupId (forest : Forest) (id : ScopeId) (symbol : SymbolId) :
    Except Failure (Option Symbol) := do
  return (← forest.chain id).findSome? fun scope => scope.get? symbol

/-- The type with the given identity.  Types live in the global scope. -/
def typeSymbol (forest : Forest) (id : SymbolId) : Except Failure Symbol :=
  match forest.global.get? id with
  | some symbol =>
    if symbol.variant.isType then .ok symbol
    else .error (.placeless (.scopeStack (hiddenIdentity ++ " is not a known type")))
  | none => .error (.placeless (.scopeStack (hiddenIdentity ++ " is not a known type")))

/-- The forest with a new scope, whose parent has to exist. -/
def plant (forest : Forest) (name : String) (parent : Option ScopeId) :
    Except Failure (ScopeId × Forest) :=
  let id : ScopeId := ⟨forest.scopes.length + 1⟩
  let grown : Forest := { forest with scopes := ⟨id, name, parent, []⟩ :: forest.scopes }
  match parent with
  | none => .ok (id, grown)
  | some known =>
    if forest.contains known then .ok (id, grown)
    else .error (.placeless (.scopeStack ("parent scope " ++ hiddenIdentity ++ " does not exist")))

/-- The forest with a new symbol in the given scope, in which its name has to be free; `sort` is
what a message calls the symbol. -/
def insert (forest : Forest) (scope : Scope) (name : String) (variant : Symbol.Variant)
    (sort : String) : Except Failure (Symbol × Forest) :=
  match scope.find? name with
  | some _ => .error (.placeless (.redefinedSymbol name sort))
  | none =>
    let symbol : Symbol := ⟨⟨forest.nextSymbol⟩, name, variant⟩
    .ok (symbol, {
      scopes := forest.scopes.map fun s => if s.id = scope.id then s.push symbol else s
      nextSymbol := forest.nextSymbol + 1 })

end Forest

end Scriptlet
