import Scriptlet.CommandLine.Log
import Scriptlet.CommandLine.Options
import Scriptlet.Prelude
/-!
# The command line

Evaluates one source, or the lines of the input one after the other in a single session.  A fault
ends the evaluation of its source only; any other error ends the run.
-/

namespace Scriptlet.CommandLine

/-- Text on one of the two output channels. -/
inductive Output where
  | out (text : String)
  | err (text : String)
deriving DecidableEq, Repr, Inhabited

namespace Output

def outText (outputs : List Output) : String :=
  String.join (outputs.map fun
    | out text => text
    | err _ => "")

def errText (outputs : List Output) : String :=
  String.join (outputs.map fun
    | out _ => ""
    | err text => text)

def ofLogLine (verbosity : Nat) (line : LogLine) : List Output :=
  if line.level.isShown verbosity then [err line.render] else []

def ofEvent {ν : Type} (verbosity : Nat) : Event ν → List Output
  | .wrote text => [out text]
  | event => (LogLine.ofEvent? event).toList.flatMap (ofLogLine verbosity)

/-- What a journal shows, whose latest event is the first. -/
def ofJournal {ν : Type} (verbosity : Nat) (journal : List (Event ν)) : List Output :=
  journal.reverse.flatMap (ofEvent verbosity)

end Output

inductive Exit where
  | success
  /-- The source that was given has a fault. -/
  | fault
  /-- The arguments were refused, or an error came from outside the language. -/
  | failure
  | interrupted
deriving DecidableEq, Repr, Inhabited

def Exit.code : Exit → Nat
  | success => 0
  | fault => 1
  | failure => 2
  | interrupted => 130

def version : String := "odo 0.1.0"

def usage : String :=
  "usage: odo [-h] [--version] [-v] [-c CODE] [--dump-ast] [--dump-semantic]\n" ++
  "           [--no-prelude]\n"

def help : String :=
  usage ++
  "\nodo: a small statically-typed scripting language.\n" ++
  "\noptions:\n" ++
  "  -h, --help            show this help message and exit\n" ++
  "  --version             show program's version number and exit\n" ++
  "  -v, --verbose         Increase verbosity (-v info, -vv debug).\n" ++
  "  -c CODE, --command CODE\n" ++
  "                        Evaluate CODE and exit instead of reading stdin.\n" ++
  "  --dump-ast            Print each statement's syntax tree before it runs.\n" ++
  "  --dump-semantic       Print each statement's annotated tree before it runs.\n" ++
  "  --no-prelude          Do not register the built-in print functions.\n" ++
  "\nexamples:\n" ++
  "  odo\n" ++
  "  odo -c 'var x = 1; :x'\n" ++
  "  odo --dump-semantic -c 'if true \x7b var z = 5 \x7d'\n"

def banner : String := version ++ " (end input with Ctrl-D)\n"

def prompt : String := "odo> "

def Options.settings (options : Options) : Settings where
  sourceName := if options.command.isSome then "<command>" else "<stdin>"
  collectEvery := none
  prelude := options.prelude

def Options.watch (options : Options) : Session.Watch where
  syntaxTree := options.dumpTree
  annotatedTree := options.dumpAnnotated

/-- A session and the options that it runs under. -/
structure Console where
  options : Options
  session : Session Behaviour

/-- How the evaluation of a source ended. -/
inductive Verdict where
  | fine
  | faulty
  /-- An error from outside the language ended the run. -/
  | broken
deriving DecidableEq, Repr, Inhabited

namespace Console

def breakdown (message : String) : List Output :=
  [.err (LogLine.render ⟨.error, "odo", "Unhandled exception: " ++ message⟩)]

def ofFailure : Failure → List Output × Verdict
  | .fault diagnostic => ([.err (diagnostic.render ++ "\n")], .faulty)
  | .host error => (breakdown error.message, .broken)

/-- What is said about a result: statements say nothing. -/
def ofResult (value : Value Behaviour) : List Output × Verdict :=
  if value.payload.isNothing then ([], .fine)
  else
    match value.payload.render with
    | .ok shown => ([.out (shown ++ "\n")], .fine)
    | .error error => (breakdown error.message, .broken)

def start (options : Options) : List Output × Except Failure Console :=
  match Session.start options.settings with
  | .error failure => ((ofFailure failure).1, .error failure)
  | .ok session =>
    (Output.ofJournal options.verbosity session.journal, .ok ⟨options, session⟩)

/-- Evaluates a source: what is shown, the verdict, and the console afterwards. -/
def evaluate (console : Console) (source : String) : List Output × Verdict × Console :=
  let session := { console.session with journal := [] }
  let (outcome, after) :=
    (Session.evaluate Behaviour.standardHost console.options.watch source).run session
  let shown := Output.ofJournal console.options.verbosity after.journal
  let (said, verdict) := match outcome with
    | .ok value => ofResult value
    | .error failure => ofFailure failure
  (shown ++ said, verdict, { console with session := after })

/-- Evaluates a line of the input; a blank one is skipped. -/
def feed (console : Console) (line : String) : List Output × Verdict × Console :=
  if line.toList.all Text.isEdgeSpace then ([], .fine, console) else console.evaluate line

end Console

inductive InputEnd where
  | ended
  | interrupted
deriving DecidableEq, Repr, Inhabited

def finish (options : Options) (interactive : Bool) : InputEnd → List Output × Exit
  | .ended => (if interactive then [.out "\n"] else [], .success)
  | .interrupted =>
    (Output.ofLogLine options.verbosity ⟨.info, "odo", "Interrupted by user."⟩, .interrupted)

def prompting (interactive : Bool) : List Output :=
  if interactive then [.out prompt] else []

def loop (interactive : Bool) (inputEnd : InputEnd) :
    Console → List String → List Output × Exit
  | console, [] =>
    let (said, exit) := finish console.options interactive inputEnd
    (prompting interactive ++ said, exit)
  | console, line :: lines =>
    match console.feed line with
    | (shown, .broken, _) => (prompting interactive ++ shown, .failure)
    | (shown, _, after) =>
      let (rest, exit) := loop interactive inputEnd after lines
      (prompting interactive ++ shown ++ rest, exit)

/-- A text cut into lines, each with the newline that ends it. -/
def linesOf : List Char → List (List Char)
  | [] => []
  | c :: rest =>
    if c = '\n' then ['\n'] :: linesOf rest
    else
      match linesOf rest with
      | [] => [[c]]
      | line :: lines => (c :: line) :: lines

structure Invocation where
  arguments : List String
  input : String
  /-- Whether the input comes from a terminal. -/
  interactive : Bool
  inputEnd : InputEnd
deriving DecidableEq, Repr, Inhabited

def runSession (options : Options) (invocation : Invocation) : List Output × Exit :=
  match Console.start options with
  | (shown, .error _) => (shown, .failure)
  | (shown, .ok console) =>
    match options.command with
    | some .lost => (shown ++ Console.breakdown HostError.noSource.message, .failure)
    | some (.text source) =>
      match console.evaluate source with
      | (said, .fine, _) => (shown ++ said, .success)
      | (said, .faulty, _) => (shown ++ said, .fault)
      | (said, .broken, _) => (shown ++ said, .failure)
    | none =>
      let greeting := if invocation.interactive then [Output.out banner] else []
      let lines := (linesOf invocation.input.toList).map String.ofList
      let (said, exit) := loop invocation.interactive invocation.inputEnd console lines
      (shown ++ greeting ++ said, exit)

def run (invocation : Invocation) : List Output × Exit :=
  match Request.ofArguments invocation.arguments with
  | .help => ([.out help], .success)
  | .version => ([.out (version ++ "\n")], .success)
  | .refusal error => ([.err (usage ++ "odo: error: " ++ error.message ++ "\n")], .failure)
  | .run options => runSession options invocation

end Scriptlet.CommandLine
