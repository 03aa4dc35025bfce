/-
This file runs source texts on a machine, one after the other. A source with a
static error is reported and not run; a source that runs goes on to its end,
to a return outside all functions, or to a runtime error.
-/

import Lox.Evaluation
import Lox.Syntax.Program

namespace Lox

/-- How the run of a source text ends. -/
inductive Ending where
  | completed
  | rejected
  | failed (error : RuntimeError)
  | unfinished

namespace Session

/-- More fuel than any run uses in a human lifetime, `2 ^ 62`. -/
def ampleFuel : Nat := 4611686018427387904

/-- Runs statements in the global scope up to the first that returns. A runtime error is noted
and printed. -/
def interpret (fuel : Nat) (statements : List Stmt) (machine : Machine) : Ending × Machine :=
  match Run.untilReturn (execute fuel globalScope) statements machine with
  | (.value _, machine) => (.completed, machine)
  | (.error error, machine) =>
    (.failed error, (machine.record (.failed error)).print error.text)
  | (.outOfFuel, machine) => (.unfinished, machine)

/-- Parses a scanned source and runs it if it has no syntax errors. -/
def runScanned (fuel : Nat) (stream : TokenStream) (machine : Machine) : Ending × Machine :=
  let program := Program.ofStream stream
  let machine := machine.print (Diagnostic.texts program.diagnostics)
  let machine := machine.record (.parsed program.statements.length)
  if program.clean then interpret fuel program.statements machine
  else (.rejected, machine)

/-- Scans a source text, and parses and runs it if it has no lexical errors. -/
def runSource (fuel : Nat) (source : String) (machine : Machine) : Ending × Machine :=
  let scan := Lexer.scan source
  let machine := machine.print (Diagnostic.texts scan.diagnostics)
  let machine := machine.record (.scanned scan.stream.toList.length)
  if scan.clean then runScanned fuel scan.stream machine
  else (.rejected, machine)

end Session

end Lox
