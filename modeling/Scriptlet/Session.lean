import Scriptlet.Annotated
import Scriptlet.Scoping
import Scriptlet.Value.Table
/-!
# Sessions

The state that lasts while programs are evaluated one after the other: the scopes, the stored
values, and which value each symbol is bound to.  A journal keeps what the session did.
-/

namespace Scriptlet

/-- The choices of an embedding program. -/
structure Settings where
  /-- The name of the source in diagnostics. -/
  sourceName : String
  /-- Collect garbage after every so many evaluations. -/
  collectEvery : Option Int
  prelude : Bool
deriving DecidableEq, Repr

namespace Settings

def standard : Settings where
  sourceName := "<input>"
  collectEvery := none
  prelude := false

def problems (settings : Settings) : List String :=
  let period := match settings.collectEvery with
    | some every => if every ≤ 0 then ["collect_every must be positive"] else []
    | none => []
  period ++ if settings.sourceName = "" then ["source_name must not be empty"] else []

end Settings

/-- What a session did. -/
inductive Event (ν : Type) where
  | scope (event : ScopeEvent)
  | parsed (statements : Nat)
  | bound (symbol : SymbolId) (value : ValueId)
  | registered (name type : String)
  | called (name : String) (handle : ν) (arguments : List (Value ν))
  | wrote (text : String)
  | evaluated (statements bindings values : Nat)
  | collected (removed kept : Nat)

/-- The state of a session; `ν` is the type of handles of native functions. -/
structure Session (ν : Type) where
  settings : Settings
  scoping : Scoping
  values : ValueTable ν
  /-- The value that each symbol is bound to, in the order of the first binding. -/
  bindings : List (SymbolId × ValueId)
  /-- How many evaluations have succeeded. -/
  evaluations : Nat
  nextValue : Nat
  /-- The labels that dumps have given so far. -/
  labels : Labels
  /-- What happened so far, the latest first. -/
  journal : List (Event ν)

namespace Session

variable {ν : Type} {α : Type}

/-- Moves what happened to the scopes into the journal. -/
def drain (session : Session ν) : Session ν :=
  { session with
    journal := session.scoping.log.map .scope ++ session.journal
    scoping := { session.scoping with log := [] } }

def initial (settings : Settings) : Session ν :=
  drain {
    settings := settings
    scoping := .initial
    values := .empty
    bindings := []
    evaluations := 0
    nextValue := 1
    labels := ⟨[]⟩
    journal := [] }

def onScopes (act : Act Scoping α) : Act (Session ν) α :=
  Act.zoom Session.scoping (fun session scoping => drain { session with scoping := scoping }) act

def record (event : Event ν) : Act (Session ν) Unit :=
  modify fun session => { session with journal := event :: session.journal }

def write (text : String) : Act (Session ν) Unit :=
  record (.wrote text)

def writeLine (text : String) : Act (Session ν) Unit :=
  write (text ++ "\n")

def fresh (payload : Payload ν) : Act (Session ν) (Value ν) :=
  modifyGet fun session =>
    (⟨⟨session.nextValue⟩, payload⟩, { session with nextValue := session.nextValue + 1 })

/-- The value of a datum: the one that statements yield if that is handed over, a new one
otherwise. -/
def receive : Datum → Act (Session ν) (Value ν)
  | .nothing => return .nothing
  | datum => do fresh (← Act.ofExcept (Payload.ofDatum datum))

def store (value : Value ν) : Act (Session ν) Unit :=
  modify fun session => { session with values := session.values.insert value }

def boundTo? (session : Session ν) (symbol : SymbolId) : Option ValueId :=
  session.bindings.lookup symbol

def rebind (bindings : List (SymbolId × ValueId)) (symbol : SymbolId) (value : ValueId) :
    List (SymbolId × ValueId) :=
  match bindings with
  | [] => [(symbol, value)]
  | (other, old) :: rest =>
    if other = symbol then (symbol, value) :: rest else (other, old) :: rebind rest symbol value

/-- Binds a symbol to a value and stores the value. -/
def bind (symbol : SymbolId) (value : Value ν) : Act (Session ν) Unit := do
  store value
  modify fun session => { session with bindings := rebind session.bindings symbol value.id }
  record (.bound symbol value.id)

/-- The stored value of the variable with the given name, as seen from the top level. -/
def lookup (name : String) : Act (Session ν) (Option (Value ν)) := do
  let session ← get
  let symbol ← Act.ofExcept (session.scoping.forest.lookup Forest.replId name)
  return symbol.bind fun symbol => (session.boundTo? symbol.id).bind session.values.get?

/-- Removes the values that no symbol is bound to; yields their number. -/
def collect : Act (Session ν) Nat := do
  let session ← get
  let live := session.bindings.map Prod.snd
  let kept := session.values.collect live
  let removed := session.values.garbage live
  set { session with values := kept }
  record (.collected removed kept.size)
  return removed

/-- Registers a native function in the scope that the cursor stands on.  Its type is interned before
its name is declared. -/
def register (name : String) (arguments : List String) (result : Option String) (handle : ν) :
    Act (Session ν) Symbol := do
  let argumentTypes ← onScopes (arguments.mapM Scoping.typeNamed)
  let kind ← match result with
    | none => pure none
    | some type =>
      match Primitive.Kind.named? type with
      | some kind => pure (some kind)
      | none => throw (.host (.nonPrimitiveResult name type))
  let resultType ← onScopes (kind.mapM fun kind => Scoping.typeNamed kind.label)
  let type ← onScopes
    (Scoping.functionType (argumentTypes.map Symbol.id) (resultType.map Symbol.id))
  let symbol ← onScopes (Scoping.declare name (.native type.id) Span.unknown)
  bind symbol.id (← fresh (.native name handle kind))
  record (.registered name type.name)
  return symbol

def labelling (work : Annotated.Labelling α) : Act (Session ν) α := do
  let session ← get
  let (outcome, labels) := work.run session.labels
  set { session with labels := labels }
  Act.ofHost outcome

end Session

end Scriptlet
