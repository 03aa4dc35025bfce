/-
This file is a second account of running programs, in which a `return` is an
exception and nothing but the end of a run is left to its steps.

A course lists what a run does to its machine, one action after the other, and
says how the run ends. A `return` ends a course at once, and so it passes
through every list, conditional and loop around it; only a call catches it. The
actions of a course are all that a machine sees of a program, so the machine
behind any prefix of them is a state the program goes through.
-/

import Lox.Session

namespace Lox

/-! ### Actions -/

/-- What can be done to a machine in one step. -/
inductive Action where
  | openScope (enclosing : ScopeId)
  | bindParameter (scope : ScopeId) (name : String) (value : Value)
  | declareVariable (scope : ScopeId) (name : String) (value : Value) (constant : Bool)
  | declareFunction (closure : Closure)
  | update (owner : ScopeId) (name : String) (value : Value)
  | print (text : String)
  | record (event : TraceEvent)
  | callNative (native : Native) (arguments : List Value)

/-- The store after an action. Only the first five change it. -/
def Store.perform (store : Store) : Action → Store
  | .openScope enclosing => store.push (some enclosing)
  | .bindParameter scope name value => store.define scope name value false
  | .declareVariable scope name value constant => store.define scope name value constant
  | .declareFunction closure => store.define closure.scope closure.name (.function closure) false
  | .update owner name value => store.update owner name value
  | .print _ | .record _ | .callNative _ _ => store

/-- The store after actions. -/
def Store.performAll (store : Store) (actions : List Action) : Store :=
  actions.foldl perform store

@[simp] theorem Store.performAll_nil (store : Store) : store.performAll [] = store := rfl

@[simp] theorem Store.performAll_cons (store : Store) (action : Action) (actions : List Action) :
    store.performAll (action :: actions) = (store.perform action).performAll actions := rfl

@[simp] theorem Store.performAll_append (store : Store) (first later : List Action) :
    store.performAll (first ++ later) = (store.performAll first).performAll later :=
  List.foldl_append

theorem Store.size_perform (store : Store) (action : Action) :
    store.size ≤ (store.perform action).size := by
  cases action with
  | openScope enclosing =>
    show store.size ≤ (store.push (some enclosing)).size
    rw [Store.size_push]
    exact Nat.le_succ _
  | bindParameter _ _ _ | declareVariable _ _ _ _ | declareFunction _ =>
    exact Nat.le_of_eq (Store.size_define _ _ _ _ _).symm
  | update owner name value => exact Nat.le_of_eq (Store.size_modify _ _ _).symm
  | print _ | record _ | callNative _ _ => exact Nat.le_refl _

/-- Scopes are never removed. -/
theorem Store.size_performAll (store : Store) (actions : List Action) :
    store.size ≤ (store.performAll actions).size := by
  induction actions generalizing store with
  | nil => exact Nat.le_refl _
  | cons action actions inductionHypothesis =>
    exact Nat.le_trans (store.size_perform action) (inductionHypothesis _)

/-- The inputs after an action. Only natives read from them. -/
def Inputs.perform (inputs : Inputs) : Action → Inputs
  | .callNative native arguments => (native.call arguments inputs).2
  | _ => inputs

namespace Machine

/-- The machine with an action noted or printed, if it is one that is. -/
def display (machine : Machine) : Action → Machine
  | .print text => machine.print text
  | .record event => machine.record event
  | _ => machine

/-- The machine after an action. -/
def perform (machine : Machine) (action : Action) : Machine :=
  { machine.display action with
    store := machine.store.perform action
    inputs := machine.inputs.perform action }

/-- The machine after actions. -/
def performAll (machine : Machine) (actions : List Action) : Machine :=
  actions.foldl perform machine

@[simp] theorem performAll_nil (machine : Machine) : machine.performAll [] = machine := rfl

@[simp] theorem performAll_cons (machine : Machine) (action : Action) (actions : List Action) :
    machine.performAll (action :: actions) = (machine.perform action).performAll actions := rfl

@[simp] theorem performAll_append (machine : Machine) (first later : List Action) :
    machine.performAll (first ++ later) = (machine.performAll first).performAll later :=
  List.foldl_append

@[simp] theorem store_perform (machine : Machine) (action : Action) :
    (machine.perform action).store = machine.store.perform action := rfl

/-- The scopes depend on nothing but the scopes before. -/
@[simp] theorem store_performAll (machine : Machine) (actions : List Action) :
    (machine.performAll actions).store = machine.store.performAll actions := by
  induction actions generalizing machine with
  | nil => rfl
  | cons action actions inductionHypothesis =>
    rw [performAll_cons, inductionHypothesis, store_perform, Store.performAll_cons]

theorem record_store (machine : Machine) (event : TraceEvent) :
    (machine.record event).store = machine.store := by
  rw [record]
  split
  · split <;> rfl
  · rfl

theorem record_inputs (machine : Machine) (event : TraceEvent) :
    (machine.record event).inputs = machine.inputs := by
  rw [record]
  split
  · split <;> rfl
  · rfl

@[simp] theorem perform_print (machine : Machine) (text : String) :
    machine.perform (.print text) = machine.print text := rfl

@[simp] theorem perform_record (machine : Machine) (event : TraceEvent) :
    machine.perform (.record event) = machine.record event := by
  have store := machine.record_store event
  have inputs := machine.record_inputs event
  show { machine.record event with store := machine.store, inputs := machine.inputs } = _
  rw [← store, ← inputs]

end Machine

/-! ### Courses -/

/-- How a course ends: with a value, with a `return` on its way to a call, with a runtime error,
or without an end. -/
inductive Exit (α : Type) where
  | value (value : α)
  | returned (value : Value)
  | error (error : RuntimeError)
  | outOfFuel

/-- What a run does on a machine, and how it ends. -/
def Course (α : Type) : Type := Machine → List Action × Exit α

namespace Course

variable {α β : Type}

/-- Ends with a value at once. -/
protected def pure (value : α) : Course α := fun _ => ([], .value value)

/-- One course after the other. Only a value leads on to the second. -/
protected def bind (first : Course α) (next : α → Course β) : Course β := fun machine =>
  match first machine with
  | (actions, .value value) =>
    let (later, exit) := next value (machine.performAll actions)
    (actions ++ later, exit)
  | (actions, .returned value) => (actions, .returned value)
  | (actions, .error error) => (actions, .error error)
  | (actions, .outOfFuel) => (actions, .outOfFuel)

instance : Monad Course where
  pure := Course.pure
  bind := Course.bind

/-- Does one thing. -/
def act (action : Action) : Course Unit := fun _ => ([action], .value ())

/-- Returns from the function around. -/
def leave (value : Value) : Course α := fun _ => ([], .returned value)

/-- Ends with a runtime error. -/
def fail (fault : Fault) (line : Nat) : Course α := fun _ => ([], .error ⟨fault, line⟩)

/-- Ends without an end. -/
def starve : Course α := fun _ => ([], .outOfFuel)

/-- Ends with the value, or with the fault at the given line. -/
def ofExcept (line : Nat) : Except Fault α → Course α
  | .ok value => pure value
  | .error fault => fail fault line

/-- Something about the machine as it is. -/
def get (view : Machine → α) : Course α := fun machine => ([], .value (view machine))

/-- Opens a new scope and answers its number. -/
def openScope (enclosing : ScopeId) : Course ScopeId := fun machine =>
  ([.openScope enclosing], .value machine.store.size)

/-- The value of a name as seen from a scope. -/
def lookup (scope : ScopeId) (name : Token) : Course Value := do
  match ← get fun machine => machine.store.get? scope name.lexeme with
  | some value => pure value
  | none => fail (.undefinedVariable name.lexeme) name.line

/-- Gives a name as seen from a scope a new value. -/
def assign (scope : ScopeId) (name : Token) (value : Value) : Course Unit := do
  match ← get fun machine => machine.store.owner? name.lexeme scope with
  | some owner => act (.update owner name.lexeme value)
  | none => fail (.undefinedVariable name.lexeme) name.line

/-- Calls a native; its fault is located at the line of the call. -/
def callNative (native : Native) (arguments : List Value) (line : Nat) : Course Value := do
  let answer ← get fun machine => (native.call arguments machine.inputs).1
  act (.callNative native arguments)
  match answer with
  | .ok value => pure value
  | .error fault => fail (.native fault) line

/-- An assignment to a constant fails before its value is evaluated. -/
def rejectConstant (scope : ScopeId) (name : Token) : Course Unit := do
  if ← get fun machine => machine.store.isConstant scope name.lexeme then
    fail (.constantReassigned name.lexeme) name.line

/-- A declaration of a name that its scope binds fails before its value is evaluated. -/
def rejectDeclared (scope : ScopeId) (name : Token) : Course Unit := do
  if ← get fun machine => machine.store.binds scope name.lexeme then
    fail (.alreadyDeclared name.lexeme) name.line

/-! ### What single steps do -/

theorem bind_of_value {first : Course α} {next : α → Course β} {machine : Machine}
    {actions : List Action} {value : α} (ends : first machine = (actions, .value value)) :
    (first >>= next) machine =
      (actions ++ (next value (machine.performAll actions)).1,
        (next value (machine.performAll actions)).2) := by
  show Course.bind first next machine = _
  rw [Course.bind, ends]

/-- Nothing comes behind a `return`. -/
theorem bind_of_returned {first : Course α} {next : α → Course β} {machine : Machine}
    {actions : List Action} {value : Value} (ends : first machine = (actions, .returned value)) :
    (first >>= next) machine = (actions, .returned value) := by
  show Course.bind first next machine = _
  rw [Course.bind, ends]

theorem bind_of_error {first : Course α} {next : α → Course β} {machine : Machine}
    {actions : List Action} {error : RuntimeError} (ends : first machine = (actions, .error error)) :
    (first >>= next) machine = (actions, .error error) := by
  show Course.bind first next machine = _
  rw [Course.bind, ends]

theorem bind_of_outOfFuel {first : Course α} {next : α → Course β} {machine : Machine}
    {actions : List Action} (ends : first machine = (actions, .outOfFuel)) :
    (first >>= next) machine = (actions, .outOfFuel) := by
  show Course.bind first next machine = _
  rw [Course.bind, ends]

/-- To do nothing at last changes nothing. -/
theorem bind_nothing (course : Course Unit) : (course >>= fun _ => pure ()) = course := by
  funext machine
  rcases part : course machine with ⟨actions, exit⟩
  cases exit with
  | value value =>
    rw [bind_of_value part]
    show (actions ++ [], Exit.value ()) = (actions, Exit.value value)
    rw [List.append_nil]
  | returned value => exact bind_of_returned part
  | error error => exact bind_of_error part
  | outOfFuel => exact bind_of_outOfFuel part

theorem get_bind_apply (view : Machine → α) (next : α → Course β) (machine : Machine) :
    (get view >>= next) machine = next (view machine) machine := rfl

theorem lookup_apply (scope : ScopeId) (name : Token) (machine : Machine) :
    lookup scope name machine =
      match machine.store.get? scope name.lexeme with
      | some value => ([], .value value)
      | none => ([], .error ⟨.undefinedVariable name.lexeme, name.line⟩) := by
  simp only [lookup, get_bind_apply]
  cases machine.store.get? scope name.lexeme <;> rfl

theorem assign_apply (scope : ScopeId) (name : Token) (value : Value) (machine : Machine) :
    assign scope name value machine =
      match machine.store.owner? name.lexeme scope with
      | some owner => ([.update owner name.lexeme value], .value ())
      | none => ([], .error ⟨.undefinedVariable name.lexeme, name.line⟩) := by
  simp only [assign, get_bind_apply]
  cases machine.store.owner? name.lexeme scope <;> rfl

theorem callNative_apply (native : Native) (arguments : List Value) (line : Nat)
    (machine : Machine) :
    callNative native arguments line machine =
      ([.callNative native arguments],
        match (native.call arguments machine.inputs).1 with
        | .ok value => .value value
        | .error fault => .error ⟨.native fault, line⟩) := by
  simp only [callNative, get_bind_apply]
  cases (native.call arguments machine.inputs).1 <;> rfl

theorem rejectConstant_apply (scope : ScopeId) (name : Token) (machine : Machine) :
    rejectConstant scope name machine =
      ([], if machine.store.isConstant scope name.lexeme then
        .error ⟨.constantReassigned name.lexeme, name.line⟩ else .value ()) := by
  simp only [rejectConstant, get_bind_apply]
  cases machine.store.isConstant scope name.lexeme <;> rfl

theorem rejectDeclared_apply (scope : ScopeId) (name : Token) (machine : Machine) :
    rejectDeclared scope name machine =
      ([], if machine.store.binds scope name.lexeme then
        .error ⟨.alreadyDeclared name.lexeme, name.line⟩ else .value ()) := by
  simp only [rejectDeclared, get_bind_apply]
  cases machine.store.binds scope name.lexeme <;> rfl

/-! ### Lists and calls -/

/-- The values of courses for the items of a list, from left to right. -/
def each (course : α → Course β) : List α → Course (List β)
  | [] => pure []
  | first :: rest => do
    let value ← course first
    let values ← each course rest
    return value :: values

/-- Courses for the items of a list, from left to right. -/
def inOrder (course : α → Course Unit) : List α → Course Unit
  | [] => pure ()
  | first :: rest => do
    course first
    inOrder course rest

theorem inOrder_pair (course : α → Course Unit) (first second : α) :
    inOrder course [first, second] = (course first >>= fun _ => course second) :=
  congrArg (fun last => course first >>= fun _ => last) (bind_nothing (course second))

/-- Binds parameters to arguments in a scope, the last of equal names last. -/
def bindParameters (scope : ScopeId) : List (String × Value) → Course Unit :=
  inOrder fun (name, value) => act (.bindParameter scope name value)

/-- The value of a call: what its body returned, and nil if it returned nothing. -/
def catchReturn (body : Course Unit) : Course Value := fun machine =>
  match body machine with
  | (actions, .value ()) => (actions, .value .nil)
  | (actions, .returned value) => (actions, .value value)
  | (actions, .error error) => (actions, .error error)
  | (actions, .outOfFuel) => (actions, .outOfFuel)

theorem fst_catchReturn (body : Course Unit) (machine : Machine) :
    (catchReturn body machine).1 = (body machine).1 := by
  rw [catchReturn]
  cases body machine with
  | mk actions exit => cases exit <;> rfl

theorem bindParameters_apply (scope : ScopeId) (bindings : List (String × Value))
    (machine : Machine) :
    bindParameters scope bindings machine =
      (bindings.map fun binding => .bindParameter scope binding.1 binding.2, .value ()) := by
  induction bindings generalizing machine with
  | nil => rfl
  | cons first rest inductionHypothesis =>
    show (act (.bindParameter scope first.1 first.2) >>= fun _ => bindParameters scope rest)
      machine = _
    rw [bind_of_value rfl, inductionHypothesis]
    rfl

/-- Calls a function whose arguments have been evaluated. -/
def invoke (body : ScopeId → List Stmt → Course Unit) (callable : Callable)
    (arguments : List Value) (line : Nat) : Course Value :=
  match callable with
  | .closure closure => do
    let scope ← openScope closure.scope
    bindParameters scope (closure.parameters.zip arguments)
    catchReturn (body scope closure.body)
  | .native native => callNative native arguments line

/-- Calls a value: it must be a function, and the number of arguments must be right. -/
def callValue (body : ScopeId → List Stmt → Course Unit) (callee : Value)
    (arguments : List Value) (line : Nat) : Course Value := do
  match callee.callable? with
  | none => fail .notCallable line
  | some callable =>
    if arguments.length = callable.arity then
      act (.record (.called callable arguments.length line))
      invoke body callable arguments line
    else
      fail (.argumentCount callable.arity arguments.length) line

/-! ### Expressions and statements -/

mutual

/-- The course of an expression in a scope. -/
def evaluate : Nat → ScopeId → Expr → Course Value
  | 0, _, _ => starve
  | fuel + 1, scope, expression =>
    match expression with
    | .literal literal => pure literal.value
    | .grouping inner => evaluate fuel scope inner
    | .variable name => lookup scope name
    | .assign name value => do
      rejectConstant scope name
      let value ← evaluate fuel scope value
      assign scope name value
      return value
    | .unary operator operand => do
      let operand ← evaluate fuel scope operand
      ofExcept operator.line (Operator.unary operator operand)
    | .binary left operator right => do
      let left ← evaluate fuel scope left
      let right ← evaluate fuel scope right
      ofExcept operator.line (Operator.binary operator left right)
    | .logical left operator right => do
      let left ← evaluate fuel scope left
      if left.truthy = decide (operator.kind = .or) then return left
      else evaluate fuel scope right
    | .call callee paren arguments => do
      let callee ← evaluate fuel scope callee
      let arguments ← each (evaluate fuel scope) arguments
      callValue (fun inner => inOrder (execute fuel inner)) callee arguments paren.line

/-- The course of a statement in a scope. -/
def execute : Nat → ScopeId → Stmt → Course Unit
  | 0, _, _ => starve
  | fuel + 1, scope, statement =>
    match statement with
    | .expression value => do
      let _ ← evaluate fuel scope value
    | .print value => do
      let value ← evaluate fuel scope value
      act (.print (value.text ++ "\n"))
    | .var constant name initializer => do
      rejectDeclared scope name
      let value ←
        match initializer with
        | none => pure .nil
        | some initializer => evaluate fuel scope initializer
      act (.declareVariable scope name.lexeme value constant)
      act (.record (.declared constant name.lexeme value))
    | .block body => do
      let inner ← openScope scope
      inOrder (execute fuel inner) body
    | .ifThen condition consequent => do
      let condition ← evaluate fuel scope condition
      act (.record (.decided condition))
      if condition.truthy then execute fuel scope consequent
    | .ifElse condition consequent alternative => do
      let condition ← evaluate fuel scope condition
      act (.record (.decided condition))
      if condition.truthy then execute fuel scope consequent
      else execute fuel scope alternative
    | .while condition body => do
      let value ← evaluate fuel scope condition
      if value.truthy then
        execute fuel scope body
        execute fuel scope (.while condition body)
    | .function name parameters body => do
      act (.declareFunction ⟨name.lexeme, parameters.map Token.lexeme, body, scope⟩)
      act (.record (.defined name.lexeme parameters.length))
    | .return _ value => do
      let value ←
        match value with
        | none => pure .nil
        | some value => evaluate fuel scope value
      leave value

end

/-! ### Sources -/

/-- The course of a statement list in the global scope. A `return` ends it as the last statement
does, and a runtime error is noted and printed. -/
def interpret (fuel : Nat) (statements : List Stmt) (machine : Machine) : List Action × Ending :=
  match inOrder (execute fuel globalScope) statements machine with
  | (actions, .value _) => (actions, .completed)
  | (actions, .returned _) => (actions, .completed)
  | (actions, .error error) =>
    (actions ++ [.record (.failed error), .print error.text], .failed error)
  | (actions, .outOfFuel) => (actions, .unfinished)

/-- The course of a scanned source. -/
def runScanned (fuel : Nat) (stream : TokenStream) (machine : Machine) : List Action × Ending :=
  let program := Program.ofStream stream
  let report :=
    [.print (Diagnostic.texts program.diagnostics), .record (.parsed program.statements.length)]
  if program.clean then
    let (actions, ending) := interpret fuel program.statements (machine.performAll report)
    (report ++ actions, ending)
  else
    (report, .rejected)

/-- The course of a source text. -/
def runSource (fuel : Nat) (source : String) (machine : Machine) : List Action × Ending :=
  let scan := Lexer.scan source
  let report :=
    [.print (Diagnostic.texts scan.diagnostics), .record (.scanned scan.stream.toList.length)]
  if scan.clean then
    let (actions, ending) := runScanned fuel scan.stream (machine.performAll report)
    (report ++ actions, ending)
  else
    (report, .rejected)

/-- What source texts do one after the other. -/
def runSources (fuel : Nat) : List String → Machine → List Action
  | [], _ => []
  | source :: rest, machine =>
    let actions := (runSource fuel source machine).1
    actions ++ runSources fuel rest (machine.performAll actions)

/-- A property of the actions on a machine that holds of nothing, of single reports, of actions
behind actions, and of what the statements of sources without static errors do, holds of what the
sources do. -/
theorem runSources_induction {fuel : Nat} {sources : List String}
    {holds : Machine → List Action → Prop} (nil : ∀ machine, holds machine [])
    (append : ∀ machine first later, holds machine first →
      holds (machine.performAll first) later → holds machine (first ++ later))
    (print : ∀ machine text, holds machine [.print text])
    (record : ∀ machine event, holds machine [.record event])
    (run : ∀ source ∈ sources, (Lexer.scan source).clean = true →
      (Program.ofStream (Lexer.scan source).stream).clean = true → ∀ machine,
      holds machine (inOrder (execute fuel globalScope)
        (Program.ofStream (Lexer.scan source).stream).statements machine).1) (machine : Machine) :
    holds machine (runSources fuel sources machine) := by
  have report : ∀ machine text event, holds machine [.print text, .record event] :=
    fun machine text event => append machine [_] [_] (print machine text) (record _ event)
  have runs : ∀ source ∈ sources, (Lexer.scan source).clean = true →
      (Program.ofStream (Lexer.scan source).stream).clean = true → ∀ machine,
      holds machine (interpret fuel (Program.ofStream (Lexer.scan source).stream).statements
        machine).1 := by
    intro source member scans parses machine
    have lists := run source member scans parses machine
    rw [interpret]
    generalize inOrder _ _ machine = part at lists
    obtain ⟨actions, exit⟩ := part
    cases exit with
    | value _ | returned _ | outOfFuel => exact lists
    | error error =>
      exact append machine actions [_, _] lists
        (append _ [_] [_] (record _ (.failed error)) (print _ error.text))
  have sourceHolds : ∀ source ∈ sources, ∀ machine,
      holds machine (runSource fuel source machine).1 := by
    intro source member machine
    simp only [runSource, runScanned]
    split
    · next scans =>
      refine append machine [_, _] _ (report machine _ _) ?_
      split
      · next parses => exact append _ [_, _] _ (report _ _ _) (runs source member scans parses _)
      · exact report _ _ _
    · exact report machine _ _
  clear run runs
  induction sources generalizing machine with
  | nil => exact nil machine
  | cons source rest inductionHypothesis =>
    refine append machine _ _ (sourceHolds source List.mem_cons_self machine) ?_
    exact inductionHypothesis _ fun other member =>
      sourceHolds other (List.mem_cons_of_mem _ member)

end Course

/-- Runs source texts one after the other on one machine, whatever their endings. -/
def Session.runSources (fuel : Nat) : List String → Machine → Machine
  | [], machine => machine
  | source :: rest, machine => runSources fuel rest (runSource fuel source machine).2

end Lox
