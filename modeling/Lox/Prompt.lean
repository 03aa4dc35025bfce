/-
This file is the interactive prompt. It reads the lines of the console that the
programs themselves read from, and runs each as a source of its own on one
machine.
-/

import Lox.Session

namespace Lox.Prompt

/-- What is printed before a line is read. -/
def sign : String := "> "

/-- The line that ends the prompt. -/
def farewell : String := "EOF"

/-- Prints the prompt and reads a line. -/
def readLine (machine : Machine) : Option Console.Line × Machine :=
  let machine := machine.print sign
  let (line, console) := machine.inputs.console.next
  (line, { machine with inputs := { machine.inputs with console } })

/-- Reads and runs lines, at most as many as the bound says, up to the farewell, the end of the
input or a runtime error. Blank lines are skipped. -/
def loop (fuel : Nat) : Nat → Machine → Ending × Machine
  | 0, machine => (.unfinished, machine)
  | bound + 1, machine =>
    match readLine machine with
    | (none, machine) => (.completed, machine.print "\n")
    | (some line, machine) =>
      if line.text = farewell then
        (.completed, machine.print "\n")
      else if Text.isBlankText line.text then
        loop fuel bound machine
      else
        match Session.runSource fuel line.text machine with
        | (.failed error, machine) => (.failed error, machine)
        | (.unfinished, machine) => (.unfinished, machine)
        | (_, machine) => loop fuel bound machine

/-- Runs the prompt to its end. Every turn but the last takes a line, so the number of lines
bounds the turns. -/
def run (fuel : Nat) (machine : Machine) : Ending × Machine :=
  loop fuel (machine.inputs.console.pending.length + 1) machine

end Lox.Prompt
