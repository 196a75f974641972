import Scriptlet.Annotated.Analysis
import Scriptlet.Decimal.Read
import Scriptlet.Session
import Scriptlet.Tree.Parse
/-!
# Execution

Annotated trees are executed against the cursor at which they were analysed: a block enters the very
scope that it bears, and a name is read through the chain of scopes above the cursor.  Native
functions are run by a host, which may work on the session itself.
-/

namespace Scriptlet

/-- What a native function returns: a value, a plain datum, or a function of the host. -/
inductive Reply (ν : Type) where
  | value (value : Value ν)
  | datum (datum : Datum)
  | function

/-- The host that runs native functions. -/
structure Host (ν : Type) where
  invoke : ν → List (Value ν) → Act (Session ν) (Reply ν)

namespace Session

variable {ν : Type}

/-- The value of a reply; a plain datum becomes a new value. -/
def ofReply : Reply ν → Act (Session ν) (Value ν)
  | .value value => return value
  | .datum datum => receive datum
  | .function => throw (.placeless (.internal "cannot convert function to a value"))

def literalValue (token : Token) (kind : Primitive.Kind) : Except Diagnostic Primitive :=
  let malformed := Diagnostic.of
    (.internal ("malformed " ++ kind.label ++ " literal " ++ Text.quoted token.text)) token.span
  match kind with
  | .integer =>
    match Numeral.read token.text with
    | .ok value => .ok (.integer value)
    | .error _ => .error malformed
  | .decimal =>
    match Decimal.read? token.text with
    | some value => .ok (.decimal value)
    | none => .error malformed
  | .truth =>
    if token.text = "true" then .ok (.truth true)
    else if token.text = "false" then .ok (.truth false)
    else .error malformed
  | .text => .ok (.text token.text)

def readVariable (id : SymbolId) (token : Token) : Act (Session ν) (Value ν) := do
  match ← onScopes (Scoping.resolveId id) with
  | none =>
    Act.fail (.internal ("symbol '" ++ token.text ++ "' is not visible from the current scope"))
      token.span
  | some symbol =>
    let session ← get
    match (session.boundTo? symbol.id).bind session.values.get? with
    | none => Act.fail (.unboundValue symbol.name) token.span
    | some value => return value

/-- Calls a native function with evaluated arguments.  Host errors become faults of execution, and
the result has to be of the declared sort. -/
def call (host : Host ν) (callee : Value ν) (arguments : List (Value ν)) (token : Token) :
    Act (Session ν) (Value ν) := do
  match callee.payload with
  | .native name handle result =>
    record (.called name handle arguments)
    match ← Act.attempt (host.invoke handle arguments) with
    | .error (.fault diagnostic) => throw (.fault diagnostic)
    | .error (.host error) =>
      throw (.fault ((Diagnostic.of
        (.execution ("native function '" ++ name ++ "' failed: " ++ error.message))
        token.span).withCause error))
    | .ok reply =>
      match result with
      | none => return .nothing
      | some kind =>
        let value ← ofReply reply
        if value.payload.kind? = some kind then do
          store value
          return value
        else do
          let shown ← Act.ofNumeral value.payload.render
          Act.fail (.internal ("native function '" ++ name ++ "' returned " ++ shown ++
            ", declared " ++ kind.label)) token.span
  | payload =>
    let shown ← Act.ofNumeral payload.render
    Act.fail (.internal ("cannot call " ++ shown)) token.span

/-- Whether a value lets the body of a conditional run. -/
def isTrue (value : Value ν) : Bool :=
  match value.payload with
  | .primitive (.truth true) => true
  | _ => false

mutual

def execute (host : Host ν) : Annotated → Act (Session ν) (Value ν)
  | .block statements scope _ => do
    onScopes (Scoping.enter scope)
    Act.closing (onScopes Scoping.leave) (executeAll host statements)
    return .nothing
  | .literal token kind => do
    fresh (.primitive (← Act.ofDiagnostic (literalValue token kind)))
  | .reference symbol token => readVariable symbol token
  | .declare symbol initializer _ => do
    bind symbol (← execute host initializer)
    return .nothing
  | .assign symbol value _ => do
    bind symbol (← execute host value)
    return .nothing
  | .call callee arguments token => do
    let function ← execute host callee
    match function.payload with
    | .native .. =>
      let values ← executeArguments host arguments
      call host function values token
    | _ => call host function [] token
  | .conditional condition body _ => do
    let test ← execute host condition
    if isTrue test then
      let _ ← execute host body
    return .nothing
  | .debugPrint operand _ => do
    let value ← execute host operand
    writeLine (← Act.ofNumeral value.payload.render)
    return .nothing
  | .foreign sort => throw (.host (.foreignAnnotated sort))

def executeAll (host : Host ν) : List Annotated → Act (Session ν) Unit
  | [] => return ()
  | node :: nodes => do
    let _ ← execute host node
    executeAll host nodes

def executeArguments (host : Host ν) : List Annotated → Act (Session ν) (List (Value ν))
  | [] => return []
  | node :: nodes => do
    let value ← execute host node
    return value :: (← executeArguments host nodes)

end

/-- Which trees of a statement are dumped before it runs. -/
structure Watch where
  syntaxTree : Bool
  annotatedTree : Bool
deriving DecidableEq, Repr, Inhabited

def Watch.nothing : Watch where
  syntaxTree := false
  annotatedTree := false

def observe (watch : Watch) (tree : Tree) (node : Annotated) : Act (Session ν) Unit := do
  if watch.syntaxTree then
    writeLine (← Act.ofHost (tree.dump .standard))
  if watch.annotatedTree then
    writeLine (← labelling (node.dump .standard))

/-- Analyses, dumps and executes statements one after the other; yields the value of the last one,
or `last` if there is none. -/
def runStatements (host : Host ν) (watch : Watch) (last : Value ν) :
    List Tree → Act (Session ν) (Value ν)
  | [] => return last
  | tree :: trees => do
    let analysed ← onScopes (Analysis.analyse tree)
    observe watch tree analysed.node
    let value ← execute host analysed.node
    runStatements host watch value trees

def collectIfDue : Act (Session ν) Unit := do
  let session ← get
  match session.settings.collectEvery with
  | some every =>
    if (session.evaluations : Int) % every = 0 then
      let _ ← collect
  | none => return ()

/-- Evaluates a source in the top-level scope.  The cursor is moved there before the first
statement and to the parent of where it stands after the last, even after a failure. -/
def evaluate (host : Host ν) (watch : Watch) (source : String) : Act (Session ν) (Value ν) := do
  let file := (← get).settings.sourceName
  let trees ← Act.ofDiagnostic (parseProgram source file)
  record (.parsed trees.length)
  onScopes (Scoping.enter Forest.replId)
  let value ← Act.closing (onScopes Scoping.leave) (runStatements host watch .nothing trees)
  modify fun session => { session with evaluations := session.evaluations + 1 }
  let session ← get
  record (.evaluated trees.length session.bindings.length session.values.size)
  collectIfDue
  return value

end Session

end Scriptlet
