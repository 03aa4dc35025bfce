/-
This file is the text a program reads: a console that hands out its lines one
after the other.
-/

import Lox.Text.Lines
import Lox.Value

namespace Lox

/-- A line of a console. Only the last one can lack its newline. -/
structure Console.Line where
  text : String
  terminated : Bool
  deriving DecidableEq

/-- The lines that have not been read yet. -/
structure Console where
  pending : List Console.Line
  deriving DecidableEq

namespace Console

/-- The lines of a text. What follows the last newline is a line if it is not empty. -/
def linesOf (pieces : List (List Char)) : List Line :=
  match pieces with
  | [] => []
  | [last] => if last.isEmpty then [] else [⟨String.ofList last, false⟩]
  | piece :: rest => ⟨String.ofList piece, true⟩ :: linesOf rest

/-- A console on a text. -/
def ofText (text : String) : Console := ⟨linesOf (Text.pieces '\n' text.toList)⟩

/-- The next line, if one is left, and the console behind it. -/
def next (console : Console) : Option Line × Console :=
  match console.pending with
  | [] => (none, console)
  | line :: rest => (some line, ⟨rest⟩)

/-- What a program gets for a line: its text without quotation marks, and nothing for a line
without newline or at the end. -/
def answer : Option Line → String
  | none => ""
  | some line => if line.terminated then Value.withoutQuotes line.text else ""

theorem quote_notMem_answer (line : Option Line) : '"' ∉ (answer line).toList := by
  cases line with
  | none => simp [answer]
  | some line =>
    simp only [answer]
    split
    · exact Value.quote_notMem_withoutQuotes line.text
    · simp

/-- Reads a line for the program. -/
def readLine (console : Console) : String × Console :=
  let (line, rest) := console.next
  (answer line, rest)

end Console

/-- What a program takes in from outside: its console, and a clock whose readings are numbered. -/
structure Inputs where
  console : Console
  clock : Nat → Int
  ticks : Nat

namespace Inputs

/-- Inputs before anything was read. -/
def start (text : String) (clock : Nat → Int) : Inputs := ⟨.ofText text, clock, 0⟩

end Inputs

end Lox
