import Scriptlet.CommandLine
/-!
# The program

Connects the command line to the standard channels.  Lines are read as they come, so that a session
at a terminal answers each before it asks for the next.
-/

namespace Scriptlet.CommandLine

def Output.put : Output → IO Unit
  | out text => do
    let channel ← IO.getStdout
    channel.putStr text
    channel.flush
  | err text => do
    let channel ← IO.getStderr
    channel.putStr text

/-- Reads and evaluates lines until the input ends or an error ends the run. -/
partial def converse (interactive : Bool) (console : Console) : IO Exit := do
  (prompting interactive).forM Output.put
  let line ← (← IO.getStdin).getLine
  if line.isEmpty then
    let (said, exit) := finish console.options interactive .ended
    said.forM Output.put
    return exit
  else
    match console.feed line with
    | (shown, .broken, _) =>
      shown.forM Output.put
      return .failure
    | (shown, _, after) =>
      shown.forM Output.put
      converse interactive after

/-- Runs a session on the lines of the standard input. -/
def runInteractively (options : Options) : IO Exit := do
  let (shown, console) := Console.start options
  shown.forM Output.put
  match console with
  | .error _ => return .failure
  | .ok console =>
    let interactive ← (← IO.getStdin).isTty
    if interactive then
      (Output.out banner).put
    converse interactive console

end Scriptlet.CommandLine

open Scriptlet.CommandLine in
def main (arguments : List String) : IO UInt32 := do
  match Request.ofArguments arguments with
  | .run options =>
    if options.command.isNone then
      return (← runInteractively options).code.toUInt32
  | _ => pure ()
  let (shown, exit) := run { arguments, input := "", interactive := false, inputEnd := .ended }
  shown.forM Output.put
  return exit.code.toUInt32
