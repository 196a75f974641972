import Scriptlet.Session.Execute
/-!
# Behaviours of native functions

A small stock of host functions.  Some compute from their arguments, some fail, and some work on the
very session that called them, so that calls may nest.
-/

namespace Scriptlet

/-- What a native function does when it is called. -/
inductive Behaviour where
  /-- Hands over a datum, which becomes a new value at each call. -/
  | constant (datum : Datum)
  /-- Hands over a datum that becomes one value when the function is registered. -/
  | shared (datum : Datum)
  /-- Returns a value made earlier. -/
  | kept (id : ValueId) (content : Option Primitive)
  /-- Returns an argument itself; negative positions count from the end. -/
  | argument (index : Int)
  /-- Returns the plain datum of an argument, which becomes a new value. -/
  | plainArgument (index : Int)
  | sum
  | concatenation
  | negation
  /-- Compares the first two arguments. -/
  | equality
  | length
  | failure (outcome : Failure)
  /-- Evaluates a source in the calling session. -/
  | evaluation (source : String)
  /-- Registers another function in the calling session, whose type has to be a known one. -/
  | registration (name : String) (arguments : List String) (result : Option String)
      (behaviour : Behaviour)
  | collection
  /-- Shows the value of a top-level variable. -/
  | inspection (name : String)
  | message (text : String)
  /-- Writes its argument, a text, to the output. -/
  | writeText
  /-- Writes its argument, an integer, to the output. -/
  | writeInteger
deriving Inhabited

namespace Behaviour

/-- The argument at a position; negative positions count from the end. -/
def argumentAt {α : Type} (arguments : List α) (index : Int) : Except HostError α :=
  let position := if index < 0 then index + arguments.length else index
  match if position < 0 then none else arguments[position.toNat]? with
  | some value => .ok value
  | none => .error .indexOutOfRange

/-- The type of what the host sees of a payload. -/
def typeName {ν : Type} (payload : Payload ν) : String :=
  match payload.datum? with
  | some datum => datum.typeName
  | none => "function"

def toDecimal (n : Int) : Except HostError Float :=
  let x := Float.ofInt n
  if x.isInf then .error .tooLargeForDecimal else .ok x

/-- Adds a plain datum to a number.  Truths count as the integers zero and one. -/
def addTo (total : Datum) (item : Option Datum) : Except HostError Datum := do
  let refused : HostError :=
    .unsupportedOperands total.typeName ((item.map Datum.typeName).getD "function")
  match total, item with
  | .integer a, some (.integer b) => return .integer (a + b)
  | .integer a, some (.truth b) => return .integer (a + b.toInt)
  | .integer a, some (.decimal b) => return .decimal ((← toDecimal a) + b)
  | .decimal a, some (.integer b) => return .decimal (a + (← toDecimal b))
  | .decimal a, some (.truth b) => return .decimal (a + Float.ofInt b.toInt)
  | .decimal a, some (.decimal b) => return .decimal (a + b)
  | _, _ => throw refused

def total {ν : Type} (arguments : List (Value ν)) : Except HostError Datum :=
  arguments.foldlM (fun sum value => addTo sum value.payload.datum?) (.integer 0)

/-- The texts of the arguments, the first of which stands at `position`, one after the other. -/
def joined {ν : Type} (position : Nat) : List (Value ν) → Except HostError String
  | [] => .ok ""
  | value :: values =>
    match value.payload with
    | .primitive (.text text) => do return text ++ (← joined (position + 1) values)
    | payload => .error (.notAText position (typeName payload))

/-- Whether two arguments are equal; functions are equal only to themselves. -/
def equal {ν : Type} (a b : Value ν) : Bool :=
  match a.payload.datum?, b.payload.datum? with
  | some x, some y => x.equal y
  | none, none => a.id = b.id
  | _, _ => false

def isTrue {ν : Type} (value : Value ν) : Bool :=
  match value.payload.datum? with
  | some datum => datum.isTrue
  | none => true

def size {ν : Type} (value : Value ν) : Except HostError Nat :=
  match value.payload with
  | .primitive (.text text) => .ok text.length
  | payload => .error (.noLength (typeName payload))

/-- Whether calls are announced: all but those that only write their argument. -/
def isAnnounced : Behaviour → Bool
  | writeText | writeInteger => false
  | _ => true

def announce {ν : Type} (name : String) (arguments : List (Value ν)) :
    Except Numeral.Error String := do
  let shown ← arguments.mapM fun value => value.payload.render
  return name ++ "(" ++ ", ".intercalate shown ++ ")"

/-- The text that `writeText` writes. -/
def textOf {ν : Type} (value : Value ν) : Except HostError String :=
  match value.payload with
  | .primitive (.text text) => .ok text
  | payload => .error (.unsupportedOperands (typeName payload) Datum.textTypeName)

def shownOf {ν : Type} (value : Value ν) : Except HostError String :=
  match value.payload.datum? with
  | some datum => datum.shown.mapError .numeral
  | none => .ok "<function>"

/-- Makes the value that a function is to share. -/
def prepare : Behaviour → Act (Session Behaviour) Behaviour
  | shared datum => do
    let value ← Session.receive datum
    match value.payload with
    | .primitive content => return kept value.id (some content)
    | _ => return kept value.id none
  | behaviour => return behaviour

def register (name : String) (arguments : List String) (result : Option String)
    (behaviour : Behaviour) : Act (Session Behaviour) Symbol := do
  Session.register name arguments result (← prepare behaviour)

/-- The value that a kept identity and content stand for. -/
def keptValue (id : ValueId) (content : Option Primitive) : Value Behaviour where
  id := id
  payload := match content with
    | some value => .primitive value
    | none => .nothing

/-- Performs a behaviour; `inner` runs the functions that it calls in turn. -/
def perform (inner : Host Behaviour) (arguments : List (Value Behaviour)) :
    Behaviour → Act (Session Behaviour) (Reply Behaviour)
  | constant datum => return .datum datum
  | shared datum => do return .value (← Session.receive datum)
  | kept id content => return .value (keptValue id content)
  | argument index => do return .value (← Act.ofHost (argumentAt arguments index))
  | plainArgument index => do
    let value ← Act.ofHost (argumentAt arguments index)
    match value.payload.datum? with
    | some datum => return .datum datum
    | none => return .function
  | sum => do return .datum (← Act.ofHost (total arguments))
  | concatenation => do return .datum (.text (← Act.ofHost (joined 0 arguments)))
  | negation => do
    let value ← Act.ofHost (argumentAt arguments 0)
    return .datum (.truth (!isTrue value))
  | equality => do
    let a ← Act.ofHost (argumentAt arguments 0)
    let b ← Act.ofHost (argumentAt arguments 1)
    return .datum (.truth (equal a b))
  | length => do
    let value ← Act.ofHost (argumentAt arguments 0)
    return .datum (.integer (← Act.ofHost (size value)))
  | failure outcome => throw outcome
  | evaluation source => do return .value (← Session.evaluate inner .nothing source)
  | registration name types result behaviour => do
    let symbol ← register name types result behaviour
    let _ ← Session.onScopes (symbol.variant.type?.mapM Scoping.typeName)
    return .datum .null
  | collection => do return .datum (.integer (← Session.collect))
  | inspection name => do
    match ← Session.lookup name with
    | some value => return .datum (.text (← Act.ofNumeral value.payload.render))
    | none => return .datum .null
  | message text => do
    Session.writeLine text
    return .datum .null
  | writeText => do
    let value ← Act.ofHost (argumentAt arguments 0)
    Session.writeLine (← Act.ofHost (textOf value))
    return .datum .null
  | writeInteger => do
    let value ← Act.ofHost (argumentAt arguments 0)
    Session.writeLine (← Act.ofHost (shownOf value))
    return .datum .null

/-- The host that performs behaviours, in which calls nest at most `depth` deep.  A call that is
announced fails if its arguments cannot be shown. -/
def host : Nat → Host Behaviour
  | 0 => { invoke := fun _ _ => throw (.host .nestedTooDeep) }
  | depth + 1 => {
      invoke := fun behaviour arguments => do
        if behaviour.isAnnounced then
          let _ ← Act.ofNumeral (announce "" arguments)
        behaviour.perform (host depth) arguments }

/-- How deep calls may nest. -/
def depthLimit : Nat := 1000

def standardHost : Host Behaviour :=
  host depthLimit

/-- The calls among events, as they are announced, the latest event being the first. -/
def announced (journal : List (Event Behaviour)) : List String :=
  journal.reverse.filterMap fun event =>
    match event with
    | .called name behaviour arguments =>
      if behaviour.isAnnounced then (announce name arguments).toOption else none
    | _ => none

end Behaviour

end Scriptlet
