/-
This file is the machine that programs run on, and the runs that change it.

A run ends with a value, with a runtime error, or without an outcome because
its fuel was used up. However it ends, the machine keeps what was done to it.
-/

import Lox.Native
import Lox.Store
import Lox.Trace

namespace Lox

/-- A machine: its scopes, what it can read, what it has printed, and its trace. A closed trace
takes no more events, and they are printed instead. -/
structure Machine where
  store : Store
  inputs : Inputs
  output : String
  debugLevel : Nat
  trace : Array TraceEvent
  traceOpen : Bool

/-- The outermost scope. -/
def globalScope : ScopeId := 0

namespace Machine

/-- The store with the natives in the global scope. -/
def initialStore : Store :=
  Native.all.foldl
    (fun store native => store.define globalScope native.name (.native native) false)
    (Store.empty.push none)

/-- A machine on which nothing has run. -/
def start (inputs : Inputs) (debugLevel : Nat) : Machine where
  store := initialStore
  inputs := inputs
  output := ""
  debugLevel := debugLevel
  trace := #[]
  traceOpen := true

/-- Prints a text. -/
def print (machine : Machine) (text : String) : Machine :=
  { machine with output := machine.output ++ text }

/-- Notes an event if the debug level asks for it. -/
def record (machine : Machine) (event : TraceEvent) : Machine :=
  if event.level ≤ machine.debugLevel then
    if machine.traceOpen then { machine with trace := machine.trace.push event }
    else machine.print (event.text ++ "\n")
  else
    machine

/-- Closes the trace. -/
def close (machine : Machine) : Machine := { machine with traceOpen := false }

/-- At debug level 0 nothing is noted. -/
theorem record_of_debugLevel_eq_zero (machine : Machine) (event : TraceEvent)
    (silent : machine.debugLevel = 0) : machine.record event = machine := by
  have := event.level_pos
  simp only [record]
  rw [if_neg (by omega)]

end Machine

/-- How a run ends. -/
inductive Outcome (α : Type) where
  | value (value : α)
  | error (error : RuntimeError)
  | outOfFuel

/-- A computation on a machine. -/
def Run (α : Type) : Type := Machine → Outcome α × Machine

namespace Run

variable {α β : Type}

/-! ### Sequences -/

/-- Ends with a value. -/
@[always_inline, inline]
protected def pure (value : α) : Run α := fun machine => (.value value, machine)

/-- One run after the other. -/
@[always_inline, inline]
protected def bind (first : Run α) (next : α → Run β) : Run β := fun machine =>
  match first machine with
  | (.value value, machine) => next value machine
  | (.error error, machine) => (.error error, machine)
  | (.outOfFuel, machine) => (.outOfFuel, machine)

@[always_inline]
instance : Monad Run where
  pure := Run.pure
  bind := Run.bind

theorem pure_apply (value : α) (machine : Machine) :
    (pure value : Run α) machine = (.value value, machine) := rfl

/-- After a value the next run goes on where the first stopped. -/
theorem bind_of_value {first : Run α} {next : α → Run β} {machine reached : Machine} {value : α}
    (ends : first machine = (.value value, reached)) :
    (first >>= next) machine = next value reached := by
  show Run.bind first next machine = _
  rw [Run.bind, ends]

/-- An error ends the whole. -/
theorem bind_of_error {first : Run α} {next : α → Run β} {machine reached : Machine}
    {error : RuntimeError} (ends : first machine = (.error error, reached)) :
    (first >>= next) machine = (.error error, reached) := by
  show Run.bind first next machine = _
  rw [Run.bind, ends]

/-- Without fuel for the first there is none for the rest. -/
theorem bind_of_outOfFuel {first : Run α} {next : α → Run β} {machine reached : Machine}
    (ends : first machine = (.outOfFuel, reached)) :
    (first >>= next) machine = (.outOfFuel, reached) := by
  show Run.bind first next machine = _
  rw [Run.bind, ends]

/-! ### Single steps -/

/-- Ends with a runtime error. -/
def fail (fault : Fault) (line : Nat) : Run α := fun machine => (.error ⟨fault, line⟩, machine)

/-- Ends without an outcome. -/
def starve : Run α := fun machine => (.outOfFuel, machine)

/-- Ends with the value, or with the fault at the given line. -/
def ofExcept (line : Nat) : Except Fault α → Run α
  | .ok value => pure value
  | .error fault => fail fault line

/-- Something about the machine as it is. -/
def get (view : Machine → α) : Run α := fun machine => (.value (view machine), machine)

/-- Changes the machine. -/
def modify (change : Machine → Machine) : Run Unit := fun machine => (.value (), change machine)

/-- Prints a line. -/
def printLine (text : String) : Run Unit := modify fun machine => machine.print (text ++ "\n")

/-- Notes an event. -/
def record (event : TraceEvent) : Run Unit := modify fun machine => machine.record event

/-- Opens a new scope and answers its number. -/
def openScope (enclosing : ScopeId) : Run ScopeId := fun machine =>
  (.value machine.store.size, { machine with store := machine.store.push (some enclosing) })

/-- Binds a name in a scope. -/
def define (scope : ScopeId) (name : String) (value : Value) (constant : Bool) : Run Unit :=
  modify fun machine => { machine with store := machine.store.define scope name value constant }

/-- The value of a name as seen from a scope. -/
def lookup (scope : ScopeId) (name : Token) : Run Value := fun machine =>
  match machine.store.get? scope name.lexeme with
  | some value => (.value value, machine)
  | none => (.error ⟨.undefinedVariable name.lexeme, name.line⟩, machine)

/-- Gives a name as seen from a scope a new value. -/
def assign (scope : ScopeId) (name : Token) (value : Value) : Run Unit := fun machine =>
  match machine.store.owner? name.lexeme scope with
  | some owner =>
    (.value (), { machine with store := machine.store.update owner name.lexeme value })
  | none => (.error ⟨.undefinedVariable name.lexeme, name.line⟩, machine)

/-- Calls a native; its fault is located at the line of the call. -/
def callNative (native : Native) (arguments : List Value) (line : Nat) : Run Value :=
  fun machine =>
    match native.call arguments machine.inputs with
    | (.ok value, inputs) => (.value value, { machine with inputs })
    | (.error fault, inputs) => (.error ⟨.native fault, line⟩, { machine with inputs })

/-! ### Lists -/

/-- The values of runs for the items of a list, from left to right. -/
def each (run : α → Run β) : List α → Run (List β)
  | [] => pure []
  | first :: rest => do
    let value ← run first
    let values ← each run rest
    return value :: values

end Run

end Lox
