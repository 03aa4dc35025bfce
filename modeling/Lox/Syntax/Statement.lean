/-
This file is the grammar of statements and declarations. Every production
takes the parsers of the statements and declarations nested in it.

A declaration that fails is given up, and parsing goes on at the next place
where a statement may begin, so that one error hides nothing behind it.
-/

import Lox.Syntax.Expression

namespace Lox.Parser

open Token (Kind)

/-! ### Declarations -/

/-- A constant declaration, behind `var`. -/
def constantDeclaration (expression : Parser Expr) : Parser Stmt := do
  let name ← expect .identifier .variableName
  let _ ← expect .equal .equalAfterConstantName
  let initializer ← expression
  let _ ← expect .semicolon .semicolonAfterDeclaration
  return .var true name (some initializer)

/-- A variable declaration, behind `var`. -/
def variableDeclaration (expression : Parser Expr) : Parser Stmt := do
  let name ← expect .identifier .variableName
  match ← accept [.equal] with
  | none =>
    let _ ← expect .semicolon .semicolonAfterDeclaration
    return .var false name none
  | some _ =>
    let initializer ← expression
    let _ ← expect .semicolon .semicolonAfterDeclaration
    return .var false name (some initializer)

/-- A constant declaration, behind `const`. -/
def constDeclaration (expression : Parser Expr) : Parser Stmt := do
  let _ ← expect .var .varAfterConst
  constantDeclaration expression

/-- The declarations of a block, behind its opening brace. -/
def blockBody (bound : Nat) (declaration : Parser (Option Stmt)) : Parser (List Stmt) := do
  let body ← repeatUntil (do return (← atEnd) || (← nextIs .rightBrace)) declaration bound
  let _ ← expect .rightBrace .braceAfterBlock
  return body

/-- A function declaration, behind `fun`. -/
def functionDeclaration (bound : Nat) (declaration : Parser (Option Stmt)) : Parser Stmt := do
  let name ← expect .identifier .functionName
  let _ ← expect .leftParen .parenAfterFunctionName
  let parameters ← listed bound .tooManyParameters (expect .identifier .parameterName)
  let _ ← expect .rightParen .parenAfterParameters
  let _ ← expect .leftBrace .braceBeforeBody
  let body ← blockBody bound declaration
  return .function name parameters body

/-! ### Statements -/

/-- An expression statement. -/
def expressionStatement (expression : Parser Expr) : Parser Stmt := do
  let value ← expression
  let _ ← expect .semicolon .semicolonAfterExpression
  return .expression value

/-- A print statement, behind its keyword. -/
def printStatement (expression : Parser Expr) : Parser Stmt := do
  let value ← expression
  let _ ← expect .semicolon .semicolonAfterPrinted
  return .print value

/-- A return statement, behind its keyword. -/
def returnStatement (expression : Parser Expr) (keyword : Token) : Parser Stmt := do
  if ← nextIs .semicolon then
    let _ ← expect .semicolon .semicolonAfterReturned
    return .return keyword none
  else
    let value ← expression
    let _ ← expect .semicolon .semicolonAfterReturned
    return .return keyword (some value)

/-- A conditional statement, behind its keyword. An `else` belongs to the nearest `if`. -/
def ifStatement (expression : Parser Expr) (statement : Parser Stmt) : Parser Stmt := do
  let _ ← expect .leftParen .parenAfterIf
  let condition ← expression
  let _ ← expect .rightParen .parenAfterIfCondition
  let consequent ← statement
  match ← accept [.else] with
  | none => return .ifThen condition consequent
  | some _ => return .ifElse condition consequent (← statement)

/-- A loop, behind its keyword. -/
def whileStatement (expression : Parser Expr) (statement : Parser Stmt) : Parser Stmt := do
  let _ ← expect .leftParen .parenAfterWhile
  let condition ← expression
  let _ ← expect .rightParen .parenAfterWhileCondition
  return .while condition (← statement)

/-- The first clause of a `for` statement with its semicolon. -/
def forInitializer (expression : Parser Expr) : Parser (Option Stmt) := do
  match ← accept [.semicolon, .const, .var] with
  | none => return some (← expressionStatement expression)
  | some token =>
    match token.kind with
    | .const => return some (← constDeclaration expression)
    | .var => return some (← variableDeclaration expression)
    | _ => return none

/-- A clause of a `for` statement that may be missing in front of the token that ends it. -/
def forClause (closing : Kind) (expression : Parser Expr) : Parser (Option Expr) := do
  if (← atEnd) || (← nextIs closing) then return none
  else return some (← expression)

/-- A `for` statement, behind its keyword. -/
def forStatement (expression : Parser Expr) (statement : Parser Stmt) : Parser Stmt := do
  let _ ← expect .leftParen .parenAfterFor
  let initializer ← forInitializer expression
  let condition ← forClause .semicolon expression
  let _ ← expect .semicolon .semicolonAfterLoopCondition
  let increment ← forClause .rightParen expression
  let _ ← expect .rightParen .parenAfterForClauses
  let body ← statement
  return .forLoop initializer condition increment body

/-- The keywords and the brace that begin statements. -/
def statementKinds : List Kind := [.print, .leftBrace, .if, .while, .for, .return]

/-- A statement whose nested statements and declarations are parsed by the given parsers. -/
def statementOver (bound : Nat) (statement : Parser Stmt) (declaration : Parser (Option Stmt)) :
    Parser Stmt := do
  match ← accept statementKinds with
  | none => expressionStatement (expression bound)
  | some token =>
    match token.kind with
    | .print => printStatement (expression bound)
    | .leftBrace => return .block (← blockBody bound declaration)
    | .if => ifStatement (expression bound) statement
    | .while => whileStatement (expression bound) statement
    | .for => forStatement (expression bound) statement
    | _ => returnStatement (expression bound) token

/-- A declaration over a parser of statements, without recovery. -/
def declarationOver (bound : Nat) (statement : Parser Stmt) (declaration : Parser (Option Stmt)) :
    Parser Stmt := do
  match ← accept [.var, .const, .fun] with
  | none => statement
  | some token =>
    match token.kind with
    | .var => variableDeclaration (expression bound)
    | .const => constDeclaration (expression bound)
    | _ => functionDeclaration bound declaration

/-! ### Nesting -/

mutual

/-- A statement, for token lists shorter than the bound. -/
def statement : Nat → Parser Stmt
  | 0, _ => .starved
  | bound + 1, tokens =>
    statementOver (bound + 1) (statement bound) (declaration bound) tokens

/-- A declaration or the error recovery in its place, for token lists shorter than the bound. -/
def declaration : Nat → Parser (Option Stmt)
  | 0, _ => .starved
  | bound + 1, tokens =>
    recover
      (declarationOver (bound + 1)
        (statementOver (bound + 1) (statement bound) (declaration bound)) (declaration bound))
      tokens

end

theorem statement_succ (bound : Nat) :
    statement (bound + 1) =
      statementOver (bound + 1) (statement bound) (declaration bound) := rfl

theorem declaration_succ (bound : Nat) :
    declaration (bound + 1) =
      recover (declarationOver (bound + 1) (statement (bound + 1)) (declaration bound)) := rfl

end Lox.Parser
