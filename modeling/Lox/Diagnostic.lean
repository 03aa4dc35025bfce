/-
This file holds the static errors of the language, what is wrong with a source
text and where, and the sentences that report them.
-/

import Lox.Number.Fixed
import Lox.Token

namespace Lox

/-- Why the scanning of a line stops before its end. -/
inductive LexicalError where
  | unterminatedString
  | secondPoint
  | unknownCharacter (char : Char)
  deriving DecidableEq

/-- Why a declaration is not well formed. -/
inductive SyntaxError where
  | varAfterConst
  | variableName
  | equalAfterConstantName
  | semicolonAfterDeclaration
  | functionName
  | parenAfterFunctionName
  | parameterName
  | parenAfterParameters
  | braceBeforeBody
  | semicolonAfterPrinted
  | braceAfterBlock
  | parenAfterIf
  | parenAfterIfCondition
  | parenAfterWhile
  | parenAfterWhileCondition
  | parenAfterFor
  | semicolonAfterLoopCondition
  | parenAfterForClauses
  | semicolonAfterReturned
  | semicolonAfterExpression
  | parenAfterExpression
  | parenAfterArguments
  | expression
  | assignmentTarget
  | tooManyParameters
  | tooManyArguments
  deriving DecidableEq

/-- The greatest number of parameters of a function and of arguments of a call. -/
def argumentLimit : Nat := 255

namespace LexicalError

/-- The report of a lexical error, without its full stop. -/
def message : LexicalError → String
  | .unterminatedString => "Unterminated string"
  | .secondPoint => "Number cannot have two decimals"
  | .unknownCharacter char => "Unknown character '" ++ String.singleton char ++ "'"

end LexicalError

namespace SyntaxError

/-- The report of a syntax error, without its full stop. -/
def message : SyntaxError → String
  | .varAfterConst => "Expect 'var' keyword after 'const'"
  | .variableName => "Expect variable name"
  | .equalAfterConstantName => "Expect '=' after constant name"
  | .semicolonAfterDeclaration => "Expect ';' after variable declaration"
  | .functionName => "Expect function name"
  | .parenAfterFunctionName => "Expect '(' after function name"
  | .parameterName => "Expect parameter name"
  | .parenAfterParameters => "Expect ')' after parameters"
  | .braceBeforeBody => "Expect '\x7b' before function body"
  | .semicolonAfterPrinted => "Expect ';' after value"
  | .braceAfterBlock => "Expect '\x7d' after block"
  | .parenAfterIf => "Expect '(' after 'if'"
  | .parenAfterIfCondition => "Expect ')' after if condition"
  | .parenAfterWhile => "Expect '(' after 'while'"
  | .parenAfterWhileCondition => "Expect ')' after condition"
  | .parenAfterFor => "Expect '(' after 'for'"
  | .semicolonAfterLoopCondition => "Expect ';' after loop condition"
  | .parenAfterForClauses => "Expect ')' after for clauses"
  | .semicolonAfterReturned => "Expect ';' after return value"
  | .semicolonAfterExpression => "Expect ';' after expression"
  | .parenAfterExpression => "Expect ')' after expression"
  | .parenAfterArguments => "Expect ')' after arguments"
  | .expression => "Expect expression"
  | .assignmentTarget => "Invalid assignment target"
  | .tooManyParameters =>
    "Can't have more than " ++ decimalText argumentLimit ++ " parameters"
  | .tooManyArguments =>
    "Can't have more than " ++ decimalText argumentLimit ++ " arguments"

end SyntaxError

/-- A reported static error: what is wrong, and on which line or at which token. -/
inductive Diagnostic where
  | lexical (line : Nat) (error : LexicalError)
  | atToken (token : Token) (error : SyntaxError)
  | atEnd (line : Nat) (error : SyntaxError)
  deriving DecidableEq

namespace Diagnostic

/-- The line a diagnostic is about. -/
def line : Diagnostic → Nat
  | .lexical line _ => line
  | .atToken token _ => token.line
  | .atEnd line _ => line

/-- Where the error is, as far as the line does not say it. -/
def place : Diagnostic → String
  | .lexical _ _ => ""
  | .atToken token _ => " at '" ++ token.lexeme ++ "'"
  | .atEnd _ _ => " at end"

/-- What is wrong. -/
def message : Diagnostic → String
  | .lexical _ error => error.message
  | .atToken _ error => error.message
  | .atEnd _ error => error.message

/-- The printed line of a diagnostic, newline included. -/
def text (diagnostic : Diagnostic) : String :=
  "[line " ++ decimalText diagnostic.line ++ "] Error" ++ diagnostic.place ++ ": " ++
    diagnostic.message ++ ".\n"

/-- The printed lines of diagnostics. -/
def texts (diagnostics : List Diagnostic) : String :=
  String.join (diagnostics.map text)

end Diagnostic

end Lox
