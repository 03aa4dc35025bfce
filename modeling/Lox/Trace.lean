/-
This file is the trace: what a machine notes about its work, from the stages
of a run down to single decisions and calls.
-/

import Lox.Fault
import Lox.Value

namespace Lox

/-- What can be called. -/
inductive Callable where
  | closure (closure : Closure)
  | native (native : Native)

/-- The value as something that can be called, if it is a function. -/
def Value.callable? : Value → Option Callable
  | .function declared => some (.closure declared)
  | .native builtin => some (.native builtin)
  | _ => none

namespace Callable

/-- The number of arguments of a call. -/
def arity : Callable → Nat
  | .closure declared => declared.parameters.length
  | .native builtin => builtin.arity

/-- The name of a callable in the trace. -/
def description : Callable → String
  | .closure declared => "<function " ++ declared.name ++ ">"
  | .native builtin => "<builtin " ++ builtin.name ++ ">"

end Callable

/-- An event in the work of a machine. -/
inductive TraceEvent where
  | scanned (tokens : Nat)
  | parsed (statements : Nat)
  | failed (error : RuntimeError)
  | declared (constant : Bool) (name : String) (value : Value)
  | defined (name : String) (arity : Nat)
  | decided (condition : Value)
  | called (callable : Callable) (arguments line : Nat)

namespace TraceEvent

/-- The lowest debug level at which an event is noted. -/
def level : TraceEvent → Nat
  | .scanned _ => 1
  | .parsed _ => 1
  | .failed _ => 1
  | .declared _ _ _ => 2
  | .defined _ _ => 2
  | .decided _ => 3
  | .called _ _ _ => 3

theorem level_pos (event : TraceEvent) : 0 < event.level := by
  cases event <;> simp [level]

/-- The text of an event, without a newline. -/
def text : TraceEvent → String
  | .scanned tokens => "scanned " ++ decimalText tokens ++ " token(s)"
  | .parsed statements => "parsed " ++ decimalText statements ++ " statement(s)"
  | .failed error => "runtime error on line " ++ decimalText error.line ++ ": " ++ error.message
  | .declared constant name value =>
    "declare " ++ (if constant then "const" else "var") ++ " " ++ name ++ " = " ++ value.text
  | .defined name arity => "define function " ++ name ++ "/" ++ decimalText arity
  | .decided condition =>
    "if condition " ++ condition.text ++ " -> " ++ (if condition.truthy then "True" else "False")
  | .called callable arguments line =>
    "call " ++ callable.description ++ " with " ++ decimalText arguments ++
      " argument(s) on line " ++ decimalText line

/-- The lines of events. -/
def texts (events : List TraceEvent) : String :=
  String.join (events.map fun event => event.text ++ "\n")

end TraceEvent

end Lox
