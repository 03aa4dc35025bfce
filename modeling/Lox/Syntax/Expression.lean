/-
This file is the grammar of expressions.

The binary operators stand on a ladder of levels, loosest first, each left
associative; below the ladder come the unary operators, calls and primary
expressions, and above it assignment, which is right associative. Every
production takes the parser of the expressions nested in it.
-/

import Lox.Syntax.Parser

namespace Lox.Parser

open Token (Kind)

/-! ### Primary expressions and calls -/

/-- An expression in parentheses, behind the opening one. -/
def grouped (inner : Parser Expr) : Parser Expr := do
  let expression ← inner
  let _ ← expect .rightParen .parenAfterExpression
  return .grouping expression

/-- The expression that a single token is, if any. -/
def atom? (token : Token) : Option Expr :=
  match token.kind with
  | .false => some (.literal (.boolean false))
  | .true => some (.literal (.boolean true))
  | .nil => some (.literal .nil)
  | .string => some (.literal (.ofString token.lexeme))
  | .number => some (.literal (.ofNumber token.lexeme))
  | .identifier => some (.variable token)
  | _ => none

/-- A literal, a name or an expression in parentheses. -/
def primary (inner : Parser Expr) : Parser Expr := fun tokens =>
  match tokens with
  | [] => fail .expression []
  | token :: rest =>
    match atom? token with
    | some expression => .done expression rest []
    | none => if token.kind = .leftParen then grouped inner rest else fail .expression tokens

/-- The argument lists behind a callee. -/
def calls (inner : Parser Expr) : Nat → Expr → Parser Expr
  | 0, _ => starve
  | bound + 1, callee => do
    match ← accept [.leftParen] with
    | none => return callee
    | some _ =>
      let arguments ← listed (bound + 1) .tooManyArguments inner
      let paren ← expect .rightParen .parenAfterArguments
      calls inner bound (.call callee paren arguments)

/-- A primary expression with any number of argument lists. -/
def call (bound : Nat) (inner : Parser Expr) : Parser Expr := do
  let callee ← primary inner
  calls inner bound callee

/-- Any number of unary operators in front of an operand. -/
def unary (operand : Parser Expr) : Nat → Parser Expr
  | 0 => starve
  | bound + 1 => do
    match ← accept [.bang, .minus] with
    | none => operand
    | some operator => return .unary operator (← unary operand bound)

/-! ### Binary operators -/

/-- A level of binary operators and the tree that one of them makes. -/
structure Level where
  operators : List Kind
  tree : Expr → Token → Expr → Expr

/-- The levels of binary operators, loosest first. -/
def levels : List Level :=
  [⟨[.or], .logical⟩,
    ⟨[.and], .logical⟩,
    ⟨[.bangEqual, .equalEqual], .binary⟩,
    ⟨[.greater, .greaterEqual, .less, .lessEqual], .binary⟩,
    ⟨[.minus, .plus], .binary⟩,
    ⟨[.slash, .star, .percent], .binary⟩]

/-- The operators of a level and their right operands, behind a left operand. -/
def chain (level : Level) (operand : Parser Expr) : Nat → Expr → Parser Expr
  | 0, _ => starve
  | bound + 1, left => do
    match ← accept level.operators with
    | none => return left
    | some operator =>
      let right ← operand
      chain level operand bound (level.tree left operator right)

/-- The binary operators of the given levels over operands that are tighter than all of them. -/
def ladder (bound : Nat) (tightest : Parser Expr) : List Level → Parser Expr
  | [] => tightest
  | level :: tighter => do
    let left ← ladder bound tightest tighter
    chain level (ladder bound tightest tighter) bound left

/-! ### Assignment -/

/-- An assignment to a name, or what stands in the place of its target alone. -/
def assignment (target value : Parser Expr) : Parser Expr := do
  let left ← target
  match ← accept [.equal] with
  | none => return left
  | some equals =>
    let right ← value
    match left with
    | .variable name => return .assign name right
    | _ => failAt equals .assignmentTarget

/-- An expression whose nested expressions are parsed by the given parser. -/
def expressionOver (bound : Nat) (inner : Parser Expr) : Parser Expr :=
  assignment (ladder bound (unary (call bound inner) bound) levels) inner

/-- An expression, for token lists shorter than the bound. -/
def expression : Nat → Parser Expr
  | 0, _ => .starved
  | bound + 1, tokens => expressionOver (bound + 1) (expression bound) tokens

theorem expression_succ (bound : Nat) :
    expression (bound + 1) = expressionOver (bound + 1) (expression bound) := rfl

end Lox.Parser
