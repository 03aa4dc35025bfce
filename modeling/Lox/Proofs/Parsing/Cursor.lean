/-
This file is a second account of parsing, in which the parser goes over the
whole token list, its end included, by index. It looks at single tokens, steps
over them one at a time, and looks back at those it has stepped over. A syntax
error is printed where it is found and then travels as an exception to the
declaration around it.

Nothing keeps an index inside the list here, nor an exception inside a
declaration. What is read, where the position goes and from where to where each
declaration reaches is written to a log.
-/

import Lox.Syntax.Program

namespace Lox

namespace Cursor

/-- What a parse does on its way: it reads the token at an index, it goes on to a position, and it
comes to the end of a declaration, parsed or given up. -/
inductive Event where
  | read (index : Int)
  | moved (position : Nat)
  | declared (start stop : Nat)

/-- Where a parse has come to, whether it has met an error, and what it has printed and done. -/
structure State where
  position : Nat
  hadError : Bool
  printed : List Diagnostic
  log : List Event

/-- Nothing has been parsed. -/
def State.start : State := ⟨0, false, [], []⟩

/-- The state with one more event in its log. -/
def State.noting (state : State) (event : Event) : State :=
  { state with log := state.log ++ [event] }

/-- How a part of a parse ends: with a value, with a syntax error that is on its way, with an index
that is not in the list, with a number that cannot be read, or with its bound used up. -/
inductive Result (α : Type) where
  | done (value : α)
  | raised
  | strayed
  | unreadable
  | starved

end Cursor

/-- A part of a parse of a list of tokens. -/
def Cursor (α : Type) : Type := List Token → Cursor.State → Cursor.Result α × Cursor.State

namespace Cursor

open Token (Kind)

variable {α β γ : Type}

/-! ### Sequences -/

/-- Ends with a value at once. -/
protected def pure (value : α) : Cursor α := fun _ state => (.done value, state)

/-- One part after the other. Only a value leads on to the second. -/
protected def bind (first : Cursor α) (next : α → Cursor β) : Cursor β := fun tokens state =>
  match first tokens state with
  | (.done value, state) => next value tokens state
  | (.raised, state) => (.raised, state)
  | (.strayed, state) => (.strayed, state)
  | (.unreadable, state) => (.unreadable, state)
  | (.starved, state) => (.starved, state)

instance : Monad Cursor where
  pure := Cursor.pure
  bind := Cursor.bind

theorem bind_assoc (first : Cursor α) (next : α → Cursor β) (last : β → Cursor γ) :
    (first >>= next) >>= last = first >>= fun value => next value >>= last := by
  funext tokens state
  show Cursor.bind (Cursor.bind first next) last tokens state =
    Cursor.bind first (fun value => Cursor.bind (next value) last) tokens state
  simp only [Cursor.bind]
  rcases first tokens state with ⟨result, reached⟩
  cases result <;> rfl

theorem pure_bind (value : α) (next : α → Cursor β) : pure value >>= next = next value := rfl

/-! ### Single steps -/

/-- The position in the list. -/
def position : Cursor Nat := fun _ state => (.done state.position, state)

/-- Writes to the log. -/
def note (event : Event) : Cursor Unit := fun _ state => (.done (), state.noting event)

/-- The token at an index. -/
def read (index : Int) : Cursor Token := fun tokens state =>
  let state := state.noting (.read index)
  match index with
  | .ofNat place =>
    match tokens[place]? with
    | some token => (.done token, state)
    | none => (.strayed, state)
  | .negSucc _ => (.strayed, state)

/-- Goes on to the next position. -/
def move : Cursor Unit := fun _ state =>
  let position := state.position + 1
  (.done (), { state.noting (.moved position) with position })

/-- Ends a part of a parse whose bound is used up. -/
def starve : Cursor α := fun _ state => (.starved, state)

/-- Lets a syntax error travel. -/
def raise : Cursor α := fun _ state => (.raised, state)

/-- What is printed about an error at a token. -/
def diagnostic (token : Token) (error : SyntaxError) : Diagnostic :=
  if token.kind = .eof then .atEnd token.line error else .atToken token error

/-- Prints an error at a token. -/
def report (token : Token) (error : SyntaxError) : Cursor Unit := fun _ state =>
  (.done (), { state with
    hadError := true
    printed := state.printed ++ [diagnostic token error] })

/-- The value of a number, for texts that are numbers. -/
def readNumber (lexeme : String) : Cursor Literal := fun _ state =>
  let text := lexeme.toList
  if '.' ∉ text ∧ Decimal.isDigits text = false then (.unreadable, state)
  else if '.' ∉ text ∧ (Decimal.digitsValue text : Int) ≤ Word.greatest then
    (.done (.int (Decimal.digitsValue text)), state)
  else
    match Decimal.ofChars? text with
    | some decimal => (.done (.float (decimal.toBinary64 false)), state)
    | none => (.unreadable, state)

/-! ### Tokens -/

/-- The token at the position. -/
def peek : Cursor Token := do read (← position)

/-- The token in front of the position. -/
def previous : Cursor Token := do read ((← position) - 1)

/-- The position is at the end of the source. -/
def atEnd : Cursor Bool := do return (← peek).kind = .eof

/-- Steps over a token, unless it is the end of the source. -/
def advance : Cursor Token := do
  if ← atEnd then previous
  else
    move
    previous

/-- The token at the position is of the given kind. -/
def check (kind : Kind) : Cursor Bool := do return (← peek).kind = kind

/-- There is a token at the position, and it is not of the given kind. -/
def lacks (kind : Kind) : Cursor Bool := do
  if ← atEnd then return false
  else return !(← check kind)

/-- Steps over the token at the position if it is of one of the given kinds. -/
def accepts : List Kind → Cursor Bool
  | [] => return false
  | kind :: kinds => do
    if ← check kind then
      let _ ← advance
      return true
    else accepts kinds

/-- Prints an error at the token at the position, and lets it travel. -/
def fail (error : SyntaxError) : Cursor α := do
  report (← peek) error
  raise

/-- Steps over the token at the position, which must be of the given kind. -/
def consume (kind : Kind) (error : SyntaxError) : Cursor Token := do
  if ← atEnd then fail error
  else if ← check kind then advance
  else fail error

/-! ### Lists -/

/-- One or more items with commas between them, of which some were taken before. Each item beyond
the limit is reported. -/
def commaSeparated (excess : SyntaxError) (item : Cursor α) : Nat → Nat → Cursor (List α)
  | 0, _ => starve
  | bound + 1, taken => do
    if argumentLimit ≤ taken then report (← peek) excess
    let first ← item
    if ← accepts [.comma] then
      return first :: (← commaSeparated excess item bound (taken + 1))
    else return [first]

/-- The items in front of a closing parenthesis. -/
def listed (bound : Nat) (excess : SyntaxError) (item : Cursor α) : Cursor (List α) := do
  if ← check .rightParen then return []
  else commaSeparated excess item bound 0

/-- Items as long as the condition holds; an item that was given up leaves no value. -/
def repeatWhile (going : Cursor Bool) (item : Cursor (Option α)) : Nat → Cursor (List α)
  | 0 => starve
  | bound + 1 => do
    if ← going then
      let first ← item
      let others ← repeatWhile going item bound
      return first.toList ++ others
    else return []

/-! ### Expressions -/

/-- A literal, a name or an expression in parentheses. -/
def primary (inner : Cursor Expr) : Cursor Expr := do
  if ← accepts [.false] then return .literal (.boolean false)
  else if ← accepts [.true] then return .literal (.boolean true)
  else if ← accepts [.nil] then return .literal .nil
  else if ← accepts [.string] then return .literal (.ofString (← previous).lexeme)
  else if ← accepts [.number] then return .literal (← readNumber (← previous).lexeme)
  else if ← accepts [.leftParen] then
    let expression ← inner
    let _ ← consume .rightParen .parenAfterExpression
    return .grouping expression
  else if ← accepts [.identifier] then return .variable (← previous)
  else fail .expression

/-- The argument lists behind a callee. -/
def calls (inner : Cursor Expr) : Nat → Expr → Cursor Expr
  | 0, _ => starve
  | bound + 1, callee => do
    if ← accepts [.leftParen] then
      let arguments ← listed (bound + 1) .tooManyArguments inner
      let paren ← consume .rightParen .parenAfterArguments
      calls inner bound (.call callee paren arguments)
    else return callee

/-- A primary expression with any number of argument lists. -/
def call (bound : Nat) (inner : Cursor Expr) : Cursor Expr := do
  let callee ← primary inner
  calls inner bound callee

/-- Any number of unary operators in front of an operand. -/
def unary (operand : Cursor Expr) : Nat → Cursor Expr
  | 0 => starve
  | bound + 1 => do
    if ← accepts [.bang, .minus] then
      let operator ← previous
      return .unary operator (← unary operand bound)
    else operand

/-- The operators of a level and their right operands, behind a left operand. -/
def chain (level : Parser.Level) (operand : Cursor Expr) : Nat → Expr → Cursor Expr
  | 0, _ => starve
  | bound + 1, left => do
    if ← accepts level.operators then
      let operator ← previous
      let right ← operand
      chain level operand bound (level.tree left operator right)
    else return left

/-- The binary operators of the given levels over operands that are tighter than all of them. -/
def ladder (bound : Nat) (tightest : Cursor Expr) : List Parser.Level → Cursor Expr
  | [] => tightest
  | level :: tighter => do
    let left ← ladder bound tightest tighter
    chain level (ladder bound tightest tighter) bound left

/-- An assignment to a name, or what stands in the place of its target alone. -/
def assignment (target value : Cursor Expr) : Cursor Expr := do
  let left ← target
  if ← accepts [.equal] then
    let equals ← previous
    let right ← value
    match left with
    | .variable name => return .assign name right
    | _ =>
      report equals .assignmentTarget
      raise
  else return left

/-- An expression whose nested expressions are parsed in the given way. -/
def expressionOver (bound : Nat) (inner : Cursor Expr) : Cursor Expr :=
  assignment (ladder bound (unary (call bound inner) bound) Parser.levels) inner

/-- An expression, for fewer tokens than the bound. -/
def expression : Nat → Cursor Expr
  | 0 => starve
  | bound + 1 => expressionOver (bound + 1) (expression bound)

/-! ### Declarations -/

/-- The declaration of a variable or of a constant, which needs a value, behind `var`. -/
def varDeclaration (constant : Bool) (expression : Cursor Expr) : Cursor Stmt := do
  let name ← consume .identifier .variableName
  let initializer ←
    if constant then
      let _ ← consume .equal .equalAfterConstantName
      pure (some (← expression))
    else do
      if ← accepts [.equal] then pure (some (← expression))
      else pure none
  let _ ← consume .semicolon .semicolonAfterDeclaration
  return .var constant name initializer

/-- The declarations of a block, behind its opening brace. -/
def blockBody (bound : Nat) (declaration : Cursor (Option Stmt)) : Cursor (List Stmt) := do
  let body ← repeatWhile (lacks .rightBrace) declaration bound
  let _ ← consume .rightBrace .braceAfterBlock
  return body

/-- A function declaration, behind `fun`. -/
def functionDeclaration (bound : Nat) (declaration : Cursor (Option Stmt)) : Cursor Stmt := do
  let name ← consume .identifier .functionName
  let _ ← consume .leftParen .parenAfterFunctionName
  let parameters ← listed bound .tooManyParameters (consume .identifier .parameterName)
  let _ ← consume .rightParen .parenAfterParameters
  let _ ← consume .leftBrace .braceBeforeBody
  let body ← blockBody bound declaration
  return .function name parameters body

/-! ### Statements -/

/-- An expression statement. -/
def expressionStatement (expression : Cursor Expr) : Cursor Stmt := do
  let value ← expression
  let _ ← consume .semicolon .semicolonAfterExpression
  return .expression value

/-- A print statement, behind its keyword. -/
def printStatement (expression : Cursor Expr) : Cursor Stmt := do
  let value ← expression
  let _ ← consume .semicolon .semicolonAfterPrinted
  return .print value

/-- A return statement, behind its keyword. -/
def returnStatement (expression : Cursor Expr) : Cursor Stmt := do
  let keyword ← previous
  let value ←
    if ← check .semicolon then pure none
    else pure (some (← expression))
  let _ ← consume .semicolon .semicolonAfterReturned
  return .return keyword value

/-- A conditional statement, behind its keyword. -/
def ifStatement (expression : Cursor Expr) (statement : Cursor Stmt) : Cursor Stmt := do
  let _ ← consume .leftParen .parenAfterIf
  let condition ← expression
  let _ ← consume .rightParen .parenAfterIfCondition
  let consequent ← statement
  if ← accepts [.else] then return .ifElse condition consequent (← statement)
  else return .ifThen condition consequent

/-- A loop, behind its keyword. -/
def whileStatement (expression : Cursor Expr) (statement : Cursor Stmt) : Cursor Stmt := do
  let _ ← consume .leftParen .parenAfterWhile
  let condition ← expression
  let _ ← consume .rightParen .parenAfterWhileCondition
  return .while condition (← statement)

/-- The first clause of a `for` statement with its semicolon. -/
def forInitializer (expression : Cursor Expr) : Cursor (Option Stmt) := do
  if ← accepts [.semicolon] then return none
  else if ← accepts [.const] then
    let _ ← consume .var .varAfterConst
    return some (← varDeclaration true expression)
  else if ← accepts [.var] then return some (← varDeclaration false expression)
  else return some (← expressionStatement expression)

/-- A clause of a `for` statement that may be missing in front of the token that ends it. -/
def forClause (closing : Kind) (expression : Cursor Expr) : Cursor (Option Expr) := do
  if ← lacks closing then return some (← expression)
  else return none

/-- A `for` statement, behind its keyword. -/
def forStatement (expression : Cursor Expr) (statement : Cursor Stmt) : Cursor Stmt := do
  let _ ← consume .leftParen .parenAfterFor
  let initializer ← forInitializer expression
  let condition ← forClause .semicolon expression
  let _ ← consume .semicolon .semicolonAfterLoopCondition
  let increment ← forClause .rightParen expression
  let _ ← consume .rightParen .parenAfterForClauses
  let body ← statement
  return .forLoop initializer condition increment body

/-- A statement whose nested statements and declarations are parsed in the given ways. -/
def statementOver (bound : Nat) (statement : Cursor Stmt) (declaration : Cursor (Option Stmt)) :
    Cursor Stmt := do
  if ← accepts [.print] then printStatement (expression bound)
  else if ← accepts [.leftBrace] then return .block (← blockBody bound declaration)
  else if ← accepts [.if] then ifStatement (expression bound) statement
  else if ← accepts [.while] then whileStatement (expression bound) statement
  else if ← accepts [.for] then forStatement (expression bound) statement
  else if ← accepts [.return] then returnStatement (expression bound)
  else expressionStatement (expression bound)

/-- A declaration over a way to parse statements, without recovery. -/
def declarationOver (bound : Nat) (statement : Cursor Stmt) (declaration : Cursor (Option Stmt)) :
    Cursor Stmt := do
  if ← accepts [.var] then varDeclaration false (expression bound)
  else if ← accepts [.const] then
    let _ ← consume .var .varAfterConst
    varDeclaration true (expression bound)
  else if ← accepts [.fun] then functionDeclaration bound declaration
  else statement

/-! ### Recovery -/

/-- Steps on to the next place where a statement may begin, in at most as many turns as the bound
says. -/
def skip : Nat → Cursor Unit
  | 0 => starve
  | bound + 1 => do
    if ← atEnd then return ()
    else if (← previous).kind = .semicolon then return ()
    else if (← peek).kind ∈ Parser.resumingKinds then return ()
    else
      let _ ← advance
      skip bound

/-- Gives up a declaration: steps over one token, and on to where a statement may begin. There are
as many turns as tokens. -/
def synchronize : Cursor Unit := fun tokens =>
  (do
    let _ ← advance
    skip tokens.length : Cursor Unit) tokens

/-- Catches a syntax error. -/
def recover (parse : Cursor α) : Cursor (Option α) := fun tokens state =>
  match parse tokens state with
  | (.done value, state) => (.done (some value), state)
  | (.raised, state) => (do synchronize; return none : Cursor (Option α)) tokens state
  | (.strayed, state) => (.strayed, state)
  | (.unreadable, state) => (.unreadable, state)
  | (.starved, state) => (.starved, state)

/-- Writes to the log from where to where a declaration reaches. -/
def logged (parse : Cursor α) : Cursor α := do
  let start ← position
  let value ← parse
  note (.declared start (← position))
  return value

/-! ### Nesting -/

mutual

/-- A statement, for fewer tokens than the bound. -/
def statement : Nat → Cursor Stmt
  | 0 => starve
  | bound + 1 => statementOver (bound + 1) (statement bound) (declaration bound)

/-- A declaration or the recovery in its place, for fewer tokens than the bound. -/
def declaration : Nat → Cursor (Option Stmt)
  | 0 => starve
  | bound + 1 =>
    logged (recover
      (declarationOver (bound + 1)
        (statementOver (bound + 1) (statement bound) (declaration bound)) (declaration bound)))

end

/-- All declarations up to the end, for fewer tokens than the bound. -/
def declarations (bound : Nat) : Cursor (List Stmt) :=
  repeatWhile (do return !(← atEnd)) (declaration bound) bound

/-- Parses a list of tokens. No loop takes more turns than there are tokens, and nothing is nested
deeper. -/
def parse (tokens : List Token) : Result (List Stmt) × State :=
  declarations tokens.length tokens .start

end Cursor

end Lox
