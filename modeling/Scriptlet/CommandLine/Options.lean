import Scriptlet.Text.Digit
import Scriptlet.Text.Quoted
/-!
# Command-line options

Arguments are first told apart into options and plain words, and then acted upon from left to right.
Long options may be abbreviated while that is unambiguous; one-letter options may share a dash.
-/

namespace Scriptlet.CommandLine

inductive Switch where
  | help
  | version
  | verbose
  | command
  | dumpTree
  | dumpAnnotated
  | noPrelude
deriving DecidableEq, Repr, Inhabited

namespace Switch

def all : List Switch :=
  [help, version, verbose, command, dumpTree, dumpAnnotated, noPrelude]

def spellings : Switch → List String
  | help => ["-h", "--help"]
  | version => ["--version"]
  | verbose => ["-v", "--verbose"]
  | command => ["-c", "--command"]
  | dumpTree => ["--dump-ast"]
  | dumpAnnotated => ["--dump-semantic"]
  | noPrelude => ["--no-prelude"]

def takesArgument : Switch → Bool
  | command => true
  | _ => false

def table : List (String × Switch) :=
  all.flatMap fun switch => switch.spellings.map fun spelling => (spelling, switch)

def spelled? (spelling : String) : Option Switch :=
  table.lookup spelling

def short? (letter : Char) : Option Switch :=
  spelled? (String.ofList ['-', letter])

def label (switch : Switch) : String :=
  "/".intercalate switch.spellings

end Switch

/-- Why arguments are refused. -/
inductive UsageError where
  | ambiguous (argument : String) (candidates : List String)
  | ignoredArgument (switch : Switch) (argument : String)
  | missingArgument (switch : Switch)
  | unrecognized (arguments : List String)
deriving DecidableEq, Repr, Inhabited

def UsageError.message : UsageError → String
  | ambiguous argument candidates =>
    "ambiguous option: " ++ argument ++ " could match " ++ ", ".intercalate candidates
  | ignoredArgument switch argument =>
    "argument " ++ switch.label ++ ": ignored explicit argument " ++ Text.quoted argument
  | missingArgument switch => "argument " ++ switch.label ++ ": expected one argument"
  | unrecognized arguments => "unrecognized arguments: " ++ " ".intercalate arguments

/-- An argument, told apart. -/
inductive Word where
  | plain (text : String)
  /-- A one-letter option and what is attached to it. -/
  | short (switch : Switch) (attached : Option (List Char))
  /-- A long option and what is attached to it. -/
  | long (switch : Switch) (attached : Option (List Char))
  /-- What looks like an option but is none, and the mark that ends the options. -/
  | stray (text : String)
deriving DecidableEq, Repr, Inhabited

namespace Word

def cutAtEquals (chars : List Char) : List Char × Option (List Char) :=
  match chars.dropWhile (· != '=') with
  | _ :: value => (chars.takeWhile (· != '='), some value)
  | [] => (chars, none)

/-- Digits, perhaps with a newline at the end. -/
def areDigits (chars : List Char) : Bool :=
  let digits := if chars.getLast? = some '\n' then chars.dropLast else chars
  !digits.isEmpty && digits.all Text.isDecimalDigit

/-- Whether what follows a dash makes it a negative number. -/
def isNumber (chars : List Char) : Bool :=
  areDigits chars ||
    match chars.dropWhile Text.isDecimalDigit with
    | '.' :: fraction => areDigits fraction
    | _ => false

/-- An argument that starts with a dash but is no option: a plain word if it is a number or has a
space in it. -/
def unknown (argument : String) (tail : List Char) : Word :=
  if isNumber tail || tail.any (· == ' ') then plain argument else stray argument

/-- A long option, perhaps abbreviated. -/
def ofLong (argument : String) : Except UsageError Word :=
  let (name, value) := cutAtEquals argument.toList
  match Switch.spelled? (String.ofList name) with
  | some switch => .ok (long switch value)
  | none =>
    match Switch.table.filter fun entry => name.isPrefixOf entry.1.toList with
    | [] => .ok (unknown argument (argument.toList.drop 1))
    | [entry] => .ok (long entry.2 value)
    | entries => .error (.ambiguous argument (entries.map Prod.fst))

/-- What is attached to a letter: all that follows it, but for an equals sign right behind it. -/
def attachedTo : List Char → Option (List Char)
  | [] => none
  | '=' :: value => some value
  | tail => some tail

def ofArgument (argument : String) : Except UsageError Word :=
  match argument.toList with
  | '-' :: '-' :: _ => ofLong argument
  | '-' :: letter :: tail =>
    match Switch.short? letter with
    | some switch => .ok (short switch (attachedTo tail))
    | none => .ok (unknown argument (letter :: tail))
  | _ => .ok (plain argument)

/-- Tells arguments apart.  After two dashes everything is a plain word. -/
def ofArguments : List String → Except UsageError (List Word)
  | [] => .ok []
  | argument :: arguments =>
    if argument = "--" then .ok (stray argument :: arguments.map plain)
    else do
      let word ← ofArgument argument
      return word :: (← ofArguments arguments)

end Word

inductive Ending where
  /-- With an option that nothing is attached to. -/
  | bare (switch : Switch)
  | given (switch : Switch) (argument : String)
  | stray (text : String)
deriving DecidableEq, Repr, Inhabited

/-- Options without argument, and how their group ends. -/
structure Group where
  leading : List Switch
  ending : Ending
deriving DecidableEq, Repr, Inhabited

namespace Group

def attached (switch : Switch) (value : List Char) : Except UsageError Group :=
  if switch.takesArgument then .ok ⟨[], .given switch (String.ofList value)⟩
  else .error (.ignoredArgument switch (String.ofList value))

/-- One-letter options that share a dash: the first of them and the letters behind it.  What stands
behind an option with an argument is its argument. -/
def ofLetters (switch : Switch) : List Char → Except UsageError Group
  | [] => .ok ⟨[], .bare switch⟩
  | letter :: tail =>
    if switch.takesArgument then attached switch (letter :: tail)
    else
      match Switch.short? letter with
      | none => attached switch (letter :: tail)
      | some next => do
        let rest ← ofLetters next tail
        return { rest with leading := switch :: rest.leading }

def ofWord : Word → Except UsageError Group
  | .plain text | .stray text => .ok ⟨[], .stray text⟩
  | .short switch none | .long switch none => .ok ⟨[], .bare switch⟩
  | .short switch (some (letter :: tail)) => ofLetters switch (letter :: tail)
  | .short switch (some []) => attached switch []
  | .long switch (some value) => attached switch value

end Group

inductive GivenCode where
  | text (text : String)
  /-- Two dashes given as code only end the options, so that there is no code after all. -/
  | lost
deriving DecidableEq, Repr, Inhabited

def GivenCode.ofArgument (argument : String) : GivenCode :=
  if argument = "--" then lost else text argument

/-- What the options ask for. -/
structure Options where
  verbosity : Nat
  command : Option GivenCode
  dumpTree : Bool
  dumpAnnotated : Bool
  prelude : Bool
deriving DecidableEq, Repr, Inhabited

def Options.standard : Options where
  verbosity := 0
  command := none
  dumpTree := false
  dumpAnnotated := false
  prelude := true

/-- What arguments come to. -/
inductive Request where
  | run (options : Options)
  | help
  | version
  | refusal (error : UsageError)
deriving DecidableEq, Repr, Inhabited

/-- Acts upon options without argument, in order, until one of them settles the request. -/
def Options.applyAll (options : Options) : List Switch → Except Request Options
  | [] => .ok options
  | switch :: switches =>
    match switch with
    | .help => .error .help
    | .version => .error .version
    | .verbose => applyAll { options with verbosity := options.verbosity + 1 } switches
    | .dumpTree => applyAll { options with dumpTree := true } switches
    | .dumpAnnotated => applyAll { options with dumpAnnotated := true } switches
    | .noPrelude => applyAll { options with prelude := false } switches
    | .command => applyAll options switches

/-- Acts upon words from left to right; `left` holds those that nothing asked for. -/
def Request.ofWords (options : Options) (left : List String) : List Word → Request
  | [] => if left.isEmpty then .run options else .refusal (.unrecognized left)
  | word :: words =>
    match Group.ofWord word with
    | .error error => .refusal error
    | .ok ⟨leading, .stray text⟩ =>
      match options.applyAll leading with
      | .error request => request
      | .ok options => ofWords options (left ++ [text]) words
    | .ok ⟨leading, .given _ argument⟩ =>
      match options.applyAll leading with
      | .error request => request
      | .ok options => ofWords { options with command := some (.ofArgument argument) } left words
    | .ok ⟨leading, .bare last⟩ =>
      if last.takesArgument then
        match words with
        | .plain argument :: words =>
          match options.applyAll leading with
          | .error request => request
          | .ok options =>
            ofWords { options with command := some (.ofArgument argument) } left words
        | _ => .refusal (.missingArgument last)
      else
        match options.applyAll (leading ++ [last]) with
        | .error request => request
        | .ok options => ofWords options left words

def Request.ofArguments (arguments : List String) : Request :=
  match Word.ofArguments arguments with
  | .error error => .refusal error
  | .ok words => ofWords .standard [] words

end Scriptlet.CommandLine
