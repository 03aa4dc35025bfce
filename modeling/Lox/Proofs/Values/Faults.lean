/-
This file says at which tokens the faults of running programs are found, and
which sentences they report. Only the sentences listed here are reported: no
program that parses has an operator that is unknown, and no native is called
with a wrong number of arguments.
-/

import Lox.Operator
import Lox.Proofs.Parsing.Parts

namespace Lox

open Token (Kind)

/-! ### Where faults are found -/

/-- The kinds of operators that compute with two numbers. -/
def numericKinds : List Kind :=
  [.plus, .minus, .star, .slash, .percent, .greater, .greaterEqual, .less, .lessEqual]

/-- The fault can be found at the token: at an operator that cannot be applied, at a name that is
not bound as it should be, or at the closing parenthesis of a call. -/
inductive Fault.FoundAt : Fault → Token → Prop
  | operandsNotNumbers {operator : Token} : operator.kind ∈ numericKinds →
    FoundAt .operandsNotNumbers operator
  | operandNotNumber {operator : Token} : operator.kind = .minus →
    FoundAt .operandNotNumber operator
  | operandsNotNumbersOrStrings {operator : Token} : operator.kind = .plus →
    FoundAt .operandsNotNumbersOrStrings operator
  | divisionByZero {operator : Token} : operator.kind = .percent →
    FoundAt .divisionByZero operator
  | undefinedVariable {name : Token} : name.kind = .identifier →
    FoundAt (.undefinedVariable name.lexeme) name
  | alreadyDeclared {name : Token} : name.kind = .identifier →
    FoundAt (.alreadyDeclared name.lexeme) name
  | constantReassigned {name : Token} : name.kind = .identifier →
    FoundAt (.constantReassigned name.lexeme) name
  | notCallable {paren : Token} : paren.kind = .rightParen → FoundAt .notCallable paren
  | argumentCount {paren : Token} {expected got : Nat} : paren.kind = .rightParen →
    got ≠ expected → FoundAt (.argumentCount expected got) paren
  | native {paren : Token} {fault : NativeFault} : paren.kind = .rightParen →
    fault ≠ .argumentCount → FoundAt (.native fault) paren

/-- The sentences that programs can fail with. -/
inductive Fault.Sentence : String → Prop
  | operandsNotNumbers : Sentence "Operands must be numbers"
  | operandNotNumber : Sentence "Operand must be a number"
  | operandsNotNumbersOrStrings : Sentence "Operands must be two numbers or two strings"
  | notCallable : Sentence "Can only call functions"
  | argumentCount {expected got : Nat} : got ≠ expected →
    Sentence ("Expected " ++ decimalText expected ++ " arguments but got " ++ decimalText got)
  | undefinedVariable (name : String) : Sentence ("Undefined variable '" ++ name ++ "'")
  | alreadyDeclared (name : String) : Sentence ("Variable '" ++ name ++ "' already exists.")
  | constantReassigned (name : String) :
    Sentence ("Cannot reassign constant variable '" ++ name ++ "'.")
  | divisionByZero : Sentence "Division by zero"
  | cannotConvert (text : String) {type : String} : type ∈ ["int", "float", "boolean"] →
    Sentence ("Cannot convert '" ++ text ++ "' to " ++ type ++ ".")
  | unsupportedType (type : String) : Sentence ("Type '" ++ type ++ "' is not supported.")
  | notStrings : Sentence "Arguments are not strings."
  | typeNotString : Sentence "Type argument must be string."

/-- A fault that can be found at a token reports one of the sentences. -/
theorem Fault.FoundAt.sentence {fault : Fault} {token : Token} (found : fault.FoundAt token) :
    Sentence fault.message := by
  cases found with
  | operandsNotNumbers _ => exact .operandsNotNumbers
  | operandNotNumber _ => exact .operandNotNumber
  | operandsNotNumbersOrStrings _ => exact .operandsNotNumbersOrStrings
  | divisionByZero _ => exact .divisionByZero
  | undefinedVariable _ => exact .undefinedVariable _
  | alreadyDeclared _ => exact .alreadyDeclared _
  | constantReassigned _ => exact .constantReassigned _
  | notCallable _ => exact .notCallable
  | argumentCount _ miscounted => exact .argumentCount miscounted
  | @native _ fault _ counted =>
    cases fault with
    | notStrings => exact .notStrings
    | typeNotString => exact .typeNotString
    | cannotConvert text type =>
      refine .cannotConvert text ?_
      cases type <;> decide
    | unsupportedType type => exact .unsupportedType type
    | argumentCount => exact absurd rfl counted

end Lox
