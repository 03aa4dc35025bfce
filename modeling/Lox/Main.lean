/-
This file is the program: it hands the arguments, the script and the standard
input to the command line, and prints and writes what that answers.
-/

import Lox.CommandLine
import Std.Time.DateTime.Timestamp

open Lox

/-- The text of a file, if it can be read. -/
def readScript (path : String) : IO (Option String) := do
  try
    return some (← IO.FS.readFile path)
  catch _ =>
    return none

/-- The script that a request names. -/
def requestedScript (request : CommandLine.Request) : IO (Option String) :=
  match request with
  | .run invocation =>
    match invocation.script with
    | some script => readScript (CommandLine.normalizePath script)
    | none => return none
  | _ => return none

/-- Runs the program with the given arguments. -/
def main (arguments : List String) : IO UInt32 := do
  let request := CommandLine.request arguments
  let script ← requestedScript request
  let input ← (← IO.getStdin).readToEnd
  let now ← Std.Time.Timestamp.now
  let seconds := now.toSecondsSinceUnixEpoch.val
  let result :=
    CommandLine.perform Session.ampleFuel request (fun _ => script) input (fun _ => seconds)
  IO.print result.out
  IO.eprint result.err
  if let some (name, text) := result.debugFile then
    IO.FS.writeFile name text
  return result.exit.toUInt32
