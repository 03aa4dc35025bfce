/-
This file runs expressions and statements on a machine.

A statement either ends normally or returns a value. A returned value passes
through blocks, conditionals and loops to the nearest call. Fuel bounds the
depth of nesting and the number of turns of a loop; a run that has enough of
it does not depend on how much it has.
-/

import Lox.Machine
import Lox.Operator

namespace Lox

/-- How a statement ends. -/
inductive Completion where
  | normal
  | returned (value : Value)

/-- What a call makes of the completion of a body. -/
def Completion.value : Completion → Value
  | .normal => .nil
  | .returned value => value

namespace Run

/-! ### Statement lists and calls -/

/-- Runs the items of a list from left to right up to the first that returns. -/
def untilReturn {α : Type} (run : α → Run Completion) : List α → Run Completion
  | [] => pure .normal
  | first :: rest => do
    match ← run first with
    | .normal => untilReturn run rest
    | .returned value => return .returned value

/-- Binds parameters to arguments in a scope, the last of equal names last. -/
def bindParameters (scope : ScopeId) : List (String × Value) → Run Unit
  | [] => pure ()
  | (name, value) :: rest => do
    define scope name value false
    bindParameters scope rest

/-- Calls a function whose arguments have been evaluated. The body of a closure runs in a new
scope inside the scope of its declaration. -/
def invoke (body : ScopeId → List Stmt → Run Completion) (callable : Callable)
    (arguments : List Value) (line : Nat) : Run Value :=
  match callable with
  | .closure closure => do
    let scope ← openScope closure.scope
    bindParameters scope (closure.parameters.zip arguments)
    return (← body scope closure.body).value
  | .native native => callNative native arguments line

/-- Calls a value: it must be a function, and the number of arguments must be right. -/
def callValue (body : ScopeId → List Stmt → Run Completion) (callee : Value)
    (arguments : List Value) (line : Nat) : Run Value := do
  match callee.callable? with
  | none => fail .notCallable line
  | some callable =>
    if arguments.length = callable.arity then
      record (.called callable arguments.length line)
      invoke body callable arguments line
    else
      fail (.argumentCount callable.arity arguments.length) line

/-- An assignment to a constant fails before its value is evaluated. -/
def rejectConstant (scope : ScopeId) (name : Token) : Run Unit := do
  if ← get fun machine => machine.store.isConstant scope name.lexeme then
    fail (.constantReassigned name.lexeme) name.line

/-- A declaration of a name that its scope binds fails before its value is evaluated. -/
def rejectDeclared (scope : ScopeId) (name : Token) : Run Unit := do
  if ← get fun machine => machine.store.binds scope name.lexeme then
    fail (.alreadyDeclared name.lexeme) name.line

end Run

/-! ### Expressions and statements -/

mutual

/-- Evaluates an expression in a scope. -/
def evaluate : Nat → ScopeId → Expr → Run Value
  | 0, _, _ => Run.starve
  | fuel + 1, scope, expression =>
    match expression with
    | .literal literal => pure literal.value
    | .grouping inner => evaluate fuel scope inner
    | .variable name => Run.lookup scope name
    | .assign name value => do
      Run.rejectConstant scope name
      let value ← evaluate fuel scope value
      Run.assign scope name value
      return value
    | .unary operator operand => do
      let operand ← evaluate fuel scope operand
      Run.ofExcept operator.line (Operator.unary operator operand)
    | .binary left operator right => do
      let left ← evaluate fuel scope left
      let right ← evaluate fuel scope right
      Run.ofExcept operator.line (Operator.binary operator left right)
    | .logical left operator right => do
      let left ← evaluate fuel scope left
      if left.truthy = decide (operator.kind = .or) then return left
      else evaluate fuel scope right
    | .call callee paren arguments => do
      let callee ← evaluate fuel scope callee
      let arguments ← Run.each (evaluate fuel scope) arguments
      Run.callValue (fun inner => Run.untilReturn (execute fuel inner)) callee arguments
        paren.line

/-- Executes a statement in a scope. -/
def execute : Nat → ScopeId → Stmt → Run Completion
  | 0, _, _ => Run.starve
  | fuel + 1, scope, statement =>
    match statement with
    | .expression value => do
      let _ ← evaluate fuel scope value
      return .normal
    | .print value => do
      let value ← evaluate fuel scope value
      Run.printLine value.text
      return .normal
    | .var constant name initializer => do
      Run.rejectDeclared scope name
      let value ←
        match initializer with
        | none => pure .nil
        | some initializer => evaluate fuel scope initializer
      Run.define scope name.lexeme value constant
      Run.record (.declared constant name.lexeme value)
      return .normal
    | .block body => do
      let inner ← Run.openScope scope
      Run.untilReturn (execute fuel inner) body
    | .ifThen condition consequent => do
      let condition ← evaluate fuel scope condition
      Run.record (.decided condition)
      if condition.truthy then execute fuel scope consequent
      else return .normal
    | .ifElse condition consequent alternative => do
      let condition ← evaluate fuel scope condition
      Run.record (.decided condition)
      if condition.truthy then execute fuel scope consequent
      else execute fuel scope alternative
    | .while condition body => do
      let value ← evaluate fuel scope condition
      if value.truthy then
        match ← execute fuel scope body with
        | .normal => execute fuel scope (.while condition body)
        | .returned value => return .returned value
      else
        return .normal
    | .function name parameters body => do
      Run.define scope name.lexeme
        (.function ⟨name.lexeme, parameters.map Token.lexeme, body, scope⟩) false
      Run.record (.defined name.lexeme parameters.length)
      return .normal
    | .return _ value => do
      match value with
      | none => return .returned .nil
      | some value => return .returned (← evaluate fuel scope value)

end

end Lox
