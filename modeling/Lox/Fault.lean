/-
This file holds the ways in which a running program can fail, and the
sentences that say so.
-/

import Lox.Number.Fixed

namespace Lox

/-- The types that a text can be asked to be parsed as, apart from text itself. -/
inductive ParsedType where
  | int
  | float
  | boolean
  deriving DecidableEq

/-- Why a native rejects its arguments. -/
inductive NativeFault where
  | notStrings
  | typeNotString
  | cannotConvert (text : String) (type : ParsedType)
  | unsupportedType (type : String)
  | argumentCount
  deriving DecidableEq

/-- Why a program cannot go on. -/
inductive Fault where
  | operandsNotNumbers
  | operandNotNumber
  | operandsNotNumbersOrStrings
  | divisionByZero
  | unknownOperator (lexeme : String)
  | notCallable
  | argumentCount (expected got : Nat)
  | undefinedVariable (name : String)
  | alreadyDeclared (name : String)
  | constantReassigned (name : String)
  | native (fault : NativeFault)
  deriving DecidableEq

/-- A fault and the line of the token it is located at. -/
structure RuntimeError where
  fault : Fault
  line : Nat
  deriving DecidableEq

/-- The name of a type in the report of a failed conversion. -/
def ParsedType.name : ParsedType → String
  | .int => "int"
  | .float => "float"
  | .boolean => "boolean"

/-- The report of a native's fault. -/
def NativeFault.message : NativeFault → String
  | .notStrings => "Arguments are not strings."
  | .typeNotString => "Type argument must be string."
  | .cannotConvert text type => "Cannot convert '" ++ text ++ "' to " ++ type.name ++ "."
  | .unsupportedType type => "Type '" ++ type ++ "' is not supported."
  | .argumentCount => "Wrong number of arguments."

/-- The report of a fault. -/
def Fault.message : Fault → String
  | .operandsNotNumbers => "Operands must be numbers"
  | .operandNotNumber => "Operand must be a number"
  | .operandsNotNumbersOrStrings => "Operands must be two numbers or two strings"
  | .divisionByZero => "Division by zero"
  | .unknownOperator lexeme => "Unknown operator '" ++ lexeme ++ "'"
  | .notCallable => "Can only call functions"
  | .argumentCount expected got =>
    "Expected " ++ decimalText expected ++ " arguments but got " ++ decimalText got
  | .undefinedVariable name => "Undefined variable '" ++ name ++ "'"
  | .alreadyDeclared name => "Variable '" ++ name ++ "' already exists."
  | .constantReassigned name => "Cannot reassign constant variable '" ++ name ++ "'."
  | .native fault => fault.message

/-- The message of a runtime error. -/
def RuntimeError.message (error : RuntimeError) : String := error.fault.message

/-- The printed form of a runtime error, which ends without a newline. -/
def RuntimeError.text (error : RuntimeError) : String :=
  error.message ++ "\n[line " ++ decimalText error.line ++ "] "

end Lox
