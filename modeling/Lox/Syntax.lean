/-
This file is the abstract syntax of the language. Names, operators and closing
parentheses keep their tokens, because runtime errors report the lines of
those. A `for` statement has no tree of its own: it is a block with a `while`
loop.
-/

import Lox.Number.Decimal
import Lox.Number.Word
import Lox.Token

namespace Lox

/-- A constant written in the source. -/
inductive Literal where
  | nil
  | boolean (value : Bool)
  | int (value : Int)
  | float (value : Binary64)
  | string (text : String)
  deriving DecidableEq

namespace Literal

/-- The value of a number in the source: without a point the integer if it is a word, and
otherwise the nearest double. -/
def ofNumber (lexeme : String) : Literal :=
  let text := lexeme.toList
  let value := Decimal.digitsValue text
  if '.' ∉ text ∧ (value : Int) ≤ Word.greatest then
    .int value
  else
    .float (((Decimal.ofChars? text).map (Decimal.toBinary64 false)).getD (.zero false))

/-- The value of a string in the source: what stands between its quotation marks. -/
def ofString (lexeme : String) : Literal :=
  .string (String.ofList (lexeme.toList.drop 1).dropLast)

end Literal

/-- An expression. -/
inductive Expr where
  | literal (value : Literal)
  | grouping (inner : Expr)
  | variable (name : Token)
  | assign (name : Token) (value : Expr)
  | unary (operator : Token) (operand : Expr)
  | binary (left : Expr) (operator : Token) (right : Expr)
  | logical (left : Expr) (operator : Token) (right : Expr)
  | call (callee : Expr) (paren : Token) (arguments : List Expr)

/-- A statement. -/
inductive Stmt where
  | expression (value : Expr)
  | print (value : Expr)
  | var (constant : Bool) (name : Token) (initializer : Option Expr)
  | block (body : List Stmt)
  | ifThen (condition : Expr) (consequent : Stmt)
  | ifElse (condition : Expr) (consequent alternative : Stmt)
  | while (condition : Expr) (body : Stmt)
  | function (name : Token) (parameters : List Token) (body : List Stmt)
  | return (keyword : Token) (value : Option Expr)

namespace Stmt

/-- The tree of a `for` statement. The increment follows the body in a block of their own, a
missing condition is true, and an initializer shares a block with the loop. -/
def forLoop (initializer : Option Stmt) (condition increment : Option Expr) (body : Stmt) : Stmt :=
  let step :=
    match increment with
    | none => body
    | some increment => .block [body, .expression increment]
  let loop := .while (condition.getD (.literal (.boolean true))) step
  match initializer with
  | none => loop
  | some initializer => .block [initializer, loop]

end Stmt

end Lox
