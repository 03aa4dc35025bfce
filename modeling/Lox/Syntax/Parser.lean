/-
This file is the kit that the productions of the grammar are built from.

A parser takes the tokens in front of it, without the end of the source, and
either makes a value of the first of them or fails. Errors are reported as they
are found, and a parser that fails has reported why; some errors are reported
without failing. Recursion is bounded by a number that the callers choose
larger than the number of tokens, and a parser whose bound is used up is
starved.
-/

import Lox.Diagnostic
import Lox.Syntax

namespace Lox

/-- A syntax error and the token it was found at, which is none at the end of the source. -/
structure Report where
  found : Option Token
  error : SyntaxError
  deriving DecidableEq

/-- The diagnostic of a report in a source that ends on the given line. -/
def Report.diagnostic (lastLine : Nat) (report : Report) : Diagnostic :=
  match report.found with
  | some token => .atToken token report.error
  | none => .atEnd lastLine report.error

/-- What a parser makes of the tokens in front of it: a value and the tokens behind it, a failure
at the tokens reached, or nothing because its bound was used up. -/
inductive Parse (α : Type) where
  | done (value : α) (rest : List Token) (reports : List Report)
  | failed (rest : List Token) (reports : List Report)
  | starved

/-- The outcome with earlier reports in front of its own. -/
def Parse.after {α : Type} (earlier : List Report) : Parse α → Parse α
  | .done value rest reports => .done value rest (earlier ++ reports)
  | .failed rest reports => .failed rest (earlier ++ reports)
  | .starved => .starved

/-- A parser of values. -/
def Parser (α : Type) : Type := List Token → Parse α

namespace Parser

open Token (Kind)

variable {α β : Type}

/-! ### Sequences -/

/-- Takes no token. -/
protected def pure (value : α) : Parser α := fun tokens => .done value tokens []

/-- One parser after the other. -/
protected def bind (first : Parser α) (next : α → Parser β) : Parser β := fun tokens =>
  match first tokens with
  | .done value rest reports => (next value rest).after reports
  | .failed rest reports => .failed rest reports
  | .starved => .starved

instance : Monad Parser where
  pure := Parser.pure
  bind := Parser.bind

theorem pure_apply (value : α) (tokens : List Token) :
    (pure value : Parser α) tokens = .done value tokens [] := rfl

/-- After a value the next parser goes on behind it, and the reports of both are kept. -/
theorem bind_of_done {first : Parser α} {next : α → Parser β} {tokens rest : List Token}
    {value : α} {reports : List Report} (parsed : first tokens = .done value rest reports) :
    (first >>= next) tokens = (next value rest).after reports := by
  show Parser.bind first next tokens = _
  rw [Parser.bind, parsed]

/-- A failure ends the whole. -/
theorem bind_of_failed {first : Parser α} {next : α → Parser β} {tokens rest : List Token}
    {reports : List Report} (parsed : first tokens = .failed rest reports) :
    (first >>= next) tokens = .failed rest reports := by
  show Parser.bind first next tokens = _
  rw [Parser.bind, parsed]

/-- A starved parser starves the whole. -/
theorem bind_of_starved {first : Parser α} {next : α → Parser β} {tokens : List Token}
    (parsed : first tokens = .starved) : (first >>= next) tokens = .starved := by
  show Parser.bind first next tokens = _
  rw [Parser.bind, parsed]

/-! ### Single tokens -/

/-- No token is left. -/
def atEnd : Parser Bool := fun tokens => .done tokens.isEmpty tokens []

/-- The next token is of the given kind. -/
def nextIs (kind : Kind) : Parser Bool := fun tokens =>
  .done (tokens.head?.any fun token => token.kind = kind) tokens []

/-- Takes the next token if it is of one of the given kinds. -/
def accept (kinds : List Kind) : Parser (Option Token) := fun tokens =>
  match tokens with
  | [] => .done none [] []
  | token :: rest =>
    if token.kind ∈ kinds then .done (some token) rest [] else .done none tokens []

theorem accept_nil (kinds : List Kind) : accept kinds [] = .done none [] [] := rfl

theorem accept_of_mem {kinds : List Kind} {token : Token} (rest : List Token)
    (member : token.kind ∈ kinds) :
    accept kinds (token :: rest) = .done (some token) rest [] :=
  if_pos member

theorem accept_of_notMem {kinds : List Kind} {token : Token} (rest : List Token)
    (absent : token.kind ∉ kinds) :
    accept kinds (token :: rest) = .done none (token :: rest) [] :=
  if_neg absent

/-- Fails with an error at the next token. -/
def fail (error : SyntaxError) : Parser α := fun tokens =>
  .failed tokens [⟨tokens.head?, error⟩]

/-- Fails with an error at a token taken before. -/
def failAt (token : Token) (error : SyntaxError) : Parser α := fun tokens =>
  .failed tokens [⟨some token, error⟩]

/-- Reports an error at the next token and goes on. -/
def warn (error : SyntaxError) : Parser Unit := fun tokens =>
  .done () tokens [⟨tokens.head?, error⟩]

/-- Ends a parser whose bound is used up. -/
def starve : Parser α := fun _ => .starved

/-- Takes the next token, which must be of the given kind. -/
def expect (kind : Kind) (error : SyntaxError) : Parser Token := do
  match ← accept [kind] with
  | some token => return token
  | none => fail error

/-! ### Lists -/

/-- One or more items with commas between them, of which some were taken before. Each item beyond
the limit is reported. -/
def commaSeparated (excess : SyntaxError) (item : Parser α) : Nat → Nat → Parser (List α)
  | 0, _ => starve
  | bound + 1, taken => do
    if argumentLimit ≤ taken then warn excess
    let first ← item
    match ← accept [.comma] with
    | none => return [first]
    | some _ => return first :: (← commaSeparated excess item bound (taken + 1))

/-- The items in front of a closing parenthesis. -/
def listed (bound : Nat) (excess : SyntaxError) (item : Parser α) : Parser (List α) := do
  if ← nextIs .rightParen then return []
  else commaSeparated excess item bound 0

/-- The items up to where the stop condition holds; an item that was given up leaves no value. -/
def repeatUntil (stop : Parser Bool) (item : Parser (Option α)) : Nat → Parser (List α)
  | 0 => starve
  | bound + 1 => do
    if ← stop then return []
    else
      let first ← item
      let others ← repeatUntil stop item bound
      return first.toList ++ others

/-! ### Recovery -/

/-- The kinds that begin a statement where parsing goes on after an error. -/
def resumingKinds : List Kind := [.fun, .var, .for, .if, .while, .print, .return]

/-- The tokens from which parsing goes on after an error: at least one is dropped, and then all up
to the first semicolon or in front of the first keyword that begins a statement. -/
def synchronize : List Token → List Token
  | [] => []
  | token :: rest =>
    if token.kind = .semicolon ∨ rest.head?.any (fun next => next.kind ∈ resumingKinds) then rest
    else synchronize rest

/-- Unless nothing is left, something is dropped. -/
theorem length_synchronize_lt (token : Token) (rest : List Token) :
    (synchronize (token :: rest)).length < (token :: rest).length := by
  induction rest generalizing token with
  | nil => simp [synchronize]
  | cons next rest inductionHypothesis =>
    rw [synchronize]
    split
    · simp
    · exact Nat.lt_succ_of_lt (inductionHypothesis next)

/-- Gives up what the parser failed to parse and goes on at the next statement. -/
def recover (parser : Parser α) : Parser (Option α) := fun tokens =>
  match parser tokens with
  | .done value rest reports => .done (some value) rest reports
  | .failed rest reports => .done none (synchronize rest) reports
  | .starved => .starved

end Parser

end Lox
