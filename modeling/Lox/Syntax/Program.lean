/-
This file parses whole sources: all declarations up to the end, with the
diagnostics of those that had to be given up.
-/

import Lox.Syntax.Statement
import Lox.Token.Lexer

namespace Lox

namespace Parser

/-- All declarations up to the end, for token lists shorter than the bound. -/
def declarations (bound : Nat) : Parser (List Stmt) :=
  repeatUntil atEnd (declaration bound) bound

end Parser

/-- The statements of a source that could be parsed, and what was wrong with the others. -/
structure Program where
  statements : List Stmt
  diagnostics : List Diagnostic

namespace Program

/-- Parses a token stream. The bound is never used up. -/
def ofStream (stream : TokenStream) : Program :=
  match Parser.declarations (stream.tokens.length + 1) stream.tokens with
  | .done statements _ reports =>
    { statements, diagnostics := reports.map (Report.diagnostic stream.eof.line) }
  | .failed _ reports =>
    { statements := [], diagnostics := reports.map (Report.diagnostic stream.eof.line) }
  | .starved => { statements := [], diagnostics := [] }

/-- The program has no error. -/
def clean (program : Program) : Bool := program.diagnostics.isEmpty

end Program

end Lox
