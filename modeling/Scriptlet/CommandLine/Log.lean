import Scriptlet.Session
/-!
# The log

What a session did, as lines for those who want to watch it.  Identities differ from run to run, so
lines show a mark in their place.
-/

namespace Scriptlet.CommandLine

inductive Level where
  | debug
  | info
  | error
deriving DecidableEq, Repr, Inhabited

namespace Level

/-- The level as it is written, five characters wide. -/
def label : Level → String
  | debug => "DEBUG"
  | info => "INFO "
  | error => "ERROR"

def isShown (verbosity : Nat) : Level → Bool
  | debug => 2 ≤ verbosity
  | info => 1 ≤ verbosity
  | error => true

end Level

structure LogLine where
  level : Level
  /-- The part of the program that the line comes from. -/
  origin : String
  text : String
deriving DecidableEq, Repr, Inhabited

def LogLine.render (line : LogLine) : String :=
  "[" ++ line.level.label ++ "] " ++ line.origin ++ ": " ++ line.text ++ "\n"

namespace LogLine

def ofScopeEvent : ScopeEvent → LogLine
  | .entered _ scope =>
    ⟨.debug, "odo.semantic", "Entered scope " ++ scope ++ " (" ++ hiddenIdentity ++ ")"⟩
  | .left _ scope =>
    ⟨.debug, "odo.semantic", "Left scope " ++ scope ++ " (" ++ hiddenIdentity ++ ")"⟩
  | .declared sort name scope =>
    ⟨.debug, "odo.symbols", "Declared " ++ sort ++ " '" ++ name ++ "' in scope " ++ scope⟩

/-- The line about an event; calls and output leave none. -/
def ofEvent? {ν : Type} : Event ν → Option LogLine
  | .scope event => some (ofScopeEvent event)
  | .parsed statements =>
    some ⟨.debug, "odo.parser", s!"Parsed {statements} top-level statement(s)"⟩
  | .bound .. =>
    some ⟨.debug, "odo.interpreter",
      "Bound symbol " ++ hiddenIdentity ++ " to value " ++ hiddenIdentity⟩
  | .registered name type =>
    some ⟨.debug, "odo.native", "Registered native function " ++ name ++ " " ++ type⟩
  | .evaluated statements bindings values =>
    some ⟨.info, "odo.interpreter",
      s!"Evaluated {statements} statement(s); {bindings} binding(s), {values} value(s)"⟩
  | .collected removed kept =>
    some ⟨.debug, "odo.values", s!"Collected {removed} value(s), {kept} remain"⟩
  | .called .. | .wrote _ => none

end LogLine

end Scriptlet.CommandLine
