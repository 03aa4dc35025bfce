/-
This file proves that the machine runs programs as their courses say.

The machine hands a returned value from statement to statement as an ordinary
completion. Each construct passes it on at once, so the whole run does what the
course does in which `return` is an exception: the same actions in the same
order, and the same end.
-/

import Lox.Proofs.Course
import Lox.Proofs.Fuel

namespace Lox

variable {α β γ : Type}

/-! ### Runs that follow courses -/

/-- The exit that stands for a completion. -/
def Completion.exit : Completion → Exit Unit
  | .normal => .value ()
  | .returned result => .returned result

/-- The exit that stands for an outcome, given the exits that stand for its values. -/
def Outcome.exit (exit : α → Exit β) : Outcome α → Exit β
  | .value result => exit result
  | .error reason => .error reason
  | .outOfFuel => .outOfFuel

/-- On every machine the run ends as the course does, and leaves the machine behind the actions
of the course. -/
def Follows (exit : α → Exit β) (run : Run α) (course : Course β) : Prop :=
  ∀ machine, (course machine).2 = (run machine).1.exit exit ∧
    machine.performAll (course machine).1 = (run machine).2

namespace Follows

/-! ### Sequences -/

theorem pure {exit : α → Exit β} {value : α} {answer : β} (stands : exit value = .value answer) :
    Follows exit (Pure.pure value) (Pure.pure answer) :=
  fun _ => ⟨stands.symm, rfl⟩

theorem bind {exit : β → Exit γ} {first : Run α} {firstCourse : Course α} {next : α → Run β}
    {nextCourse : α → Course γ} (firstFollows : Follows .value first firstCourse)
    (nextFollows : ∀ value, Follows exit (next value) (nextCourse value)) :
    Follows exit (first >>= next) (firstCourse >>= nextCourse) := by
  intro machine
  obtain ⟨ends, reaches⟩ := firstFollows machine
  show (Course.bind firstCourse nextCourse machine).2 = (Run.bind first next machine).1.exit exit ∧
    machine.performAll (Course.bind firstCourse nextCourse machine).1 =
      (Run.bind first next machine).2
  rw [Course.bind, Run.bind]
  generalize first machine = firstRun at ends reaches
  generalize firstCourse machine = firstPart at ends reaches
  obtain ⟨outcome, reached⟩ := firstRun
  obtain ⟨actions, firstExit⟩ := firstPart
  obtain rfl : machine.performAll actions = reached := reaches
  obtain rfl : firstExit = outcome.exit .value := ends
  cases outcome with
  | value value =>
    obtain ⟨ends, reaches⟩ := nextFollows value (machine.performAll actions)
    exact ⟨ends, (machine.performAll_append _ _).trans reaches⟩
  | error error => exact ⟨rfl, rfl⟩
  | outOfFuel => exact ⟨rfl, rfl⟩

/-- A returned value skips the rest on both sides. -/
theorem unlessReturned {first next : Run Completion} {firstCourse nextCourse : Course Unit}
    (firstFollows : Follows Completion.exit first firstCourse)
    (nextFollows : Follows Completion.exit next nextCourse) :
    Follows Completion.exit
      (first >>= fun completion =>
        match completion with
        | .normal => next
        | .returned value => Pure.pure (.returned value))
      (firstCourse >>= fun _ => nextCourse) := by
  intro machine
  obtain ⟨ends, reaches⟩ := firstFollows machine
  show (Course.bind firstCourse _ machine).2 = (Run.bind first _ machine).1.exit _ ∧
    machine.performAll (Course.bind firstCourse _ machine).1 = (Run.bind first _ machine).2
  rw [Course.bind, Run.bind]
  generalize first machine = firstRun at ends reaches
  generalize firstCourse machine = firstPart at ends reaches
  obtain ⟨outcome, reached⟩ := firstRun
  obtain ⟨actions, firstExit⟩ := firstPart
  obtain rfl : machine.performAll actions = reached := reaches
  obtain rfl : firstExit = outcome.exit Completion.exit := ends
  cases outcome with
  | value completion =>
    cases completion with
    | normal =>
      obtain ⟨ends, reaches⟩ := nextFollows (machine.performAll actions)
      exact ⟨ends, (machine.performAll_append _ _).trans reaches⟩
    | returned value => exact ⟨rfl, rfl⟩
  | error error => exact ⟨rfl, rfl⟩
  | outOfFuel => exact ⟨rfl, rfl⟩

/-- A call makes of a completion what it catches of a course. -/
theorem catchReturn {body : Run Completion} {course : Course Unit}
    (follows : Follows Completion.exit body course) :
    Follows .value (body >>= fun completion => Pure.pure completion.value)
      (Course.catchReturn course) := by
  intro machine
  obtain ⟨ends, reaches⟩ := follows machine
  show (Course.catchReturn course machine).2 = (Run.bind body _ machine).1.exit _ ∧
    machine.performAll (Course.catchReturn course machine).1 = (Run.bind body _ machine).2
  rw [Course.catchReturn, Run.bind]
  generalize body machine = bodyRun at ends reaches
  generalize course machine = part at ends reaches
  obtain ⟨outcome, reached⟩ := bodyRun
  obtain ⟨actions, bodyExit⟩ := part
  obtain rfl : machine.performAll actions = reached := reaches
  obtain rfl : bodyExit = outcome.exit Completion.exit := ends
  cases outcome with
  | value completion => cases completion <;> exact ⟨rfl, rfl⟩
  | error error => exact ⟨rfl, rfl⟩
  | outOfFuel => exact ⟨rfl, rfl⟩

/-! ### Single steps -/

theorem fail {exit : α → Exit β} (fault : Fault) (line : Nat) :
    Follows exit (Run.fail fault line) (Course.fail fault line) :=
  fun _ => ⟨rfl, rfl⟩

theorem starve {exit : α → Exit β} : Follows exit Run.starve Course.starve :=
  fun _ => ⟨rfl, rfl⟩

theorem ofExcept (line : Nat) (result : Except Fault α) :
    Follows .value (Run.ofExcept line result) (Course.ofExcept line result) := by
  cases result with
  | ok value => exact pure rfl
  | error fault => exact fail fault line

theorem get (view : Machine → α) : Follows .value (Run.get view) (Course.get view) :=
  fun _ => ⟨rfl, rfl⟩

theorem modify {change : Machine → Machine} {action : Action}
    (changes : ∀ machine, change machine = machine.perform action) :
    Follows .value (Run.modify change) (Course.act action) :=
  fun machine => ⟨rfl, (changes machine).symm⟩

/-- A change that ends a statement. -/
theorem modify_normal {change : Machine → Machine} {action : Action}
    (changes : ∀ machine, change machine = machine.perform action) :
    Follows Completion.exit (Run.modify change >>= fun _ => Pure.pure .normal)
      (Course.act action) :=
  fun machine => ⟨rfl, (changes machine).symm⟩

theorem leave (value : Value) :
    Follows Completion.exit (Pure.pure (.returned value)) (Course.leave value) :=
  fun _ => ⟨rfl, rfl⟩

theorem record (event : TraceEvent) :
    Follows .value (Run.record event) (Course.act (.record event)) :=
  modify fun machine => (machine.perform_record event).symm

theorem record_normal (event : TraceEvent) :
    Follows Completion.exit (Run.record event >>= fun _ => Pure.pure .normal)
      (Course.act (.record event)) :=
  modify_normal fun machine => (machine.perform_record event).symm

theorem declareVariable (scope : ScopeId) (name : String) (constant : Bool) (value : Value) :
    Follows Completion.exit
      (do
        Run.define scope name value constant
        Run.record (.declared constant name value)
        return .normal)
      (do
        Course.act (.declareVariable scope name value constant)
        Course.act (.record (.declared constant name value))) :=
  bind (modify fun _ => rfl) fun _ => record_normal _

theorem openScope (enclosing : ScopeId) :
    Follows .value (Run.openScope enclosing) (Course.openScope enclosing) :=
  fun _ => ⟨rfl, rfl⟩

theorem lookup (scope : ScopeId) (name : Token) :
    Follows .value (Run.lookup scope name) (Course.lookup scope name) := by
  intro machine
  rw [Course.lookup_apply, Run.lookup]
  cases machine.store.get? scope name.lexeme <;> exact ⟨rfl, rfl⟩

theorem assign (scope : ScopeId) (name : Token) (value : Value) :
    Follows .value (Run.assign scope name value) (Course.assign scope name value) := by
  intro machine
  rw [Course.assign_apply, Run.assign]
  cases machine.store.owner? name.lexeme scope <;> exact ⟨rfl, rfl⟩

theorem callNative (native : Native) (arguments : List Value) (line : Nat) :
    Follows .value (Run.callNative native arguments line)
      (Course.callNative native arguments line) := by
  intro machine
  rw [Course.callNative_apply, Run.callNative]
  have reached : machine.performAll [.callNative native arguments] =
      { machine with inputs := (native.call arguments machine.inputs).2 } := rfl
  generalize native.call arguments machine.inputs = call at reached
  obtain ⟨answer, inputs⟩ := call
  cases answer <;> exact ⟨rfl, reached⟩

theorem rejectConstant (scope : ScopeId) (name : Token) :
    Follows .value (Run.rejectConstant scope name) (Course.rejectConstant scope name) := by
  refine bind (get _) fun isConstant => ?_
  cases isConstant with
  | true => exact fail _ _
  | false => exact pure rfl

theorem rejectDeclared (scope : ScopeId) (name : Token) :
    Follows .value (Run.rejectDeclared scope name) (Course.rejectDeclared scope name) := by
  refine bind (get _) fun binds => ?_
  cases binds with
  | true => exact fail _ _
  | false => exact pure rfl

/-! ### Lists and calls -/

theorem each {run : α → Run β} {course : α → Course β}
    (follows : ∀ item, Follows .value (run item) (course item)) (items : List α) :
    Follows .value (Run.each run items) (Course.each course items) := by
  induction items with
  | nil => exact pure rfl
  | cons first rest inductionHypothesis =>
    exact bind (follows first) fun _ => bind inductionHypothesis fun _ => pure rfl

theorem inOrder {run : α → Run Completion} {course : α → Course Unit}
    (follows : ∀ item, Follows Completion.exit (run item) (course item)) (items : List α) :
    Follows Completion.exit (Run.untilReturn run items) (Course.inOrder course items) := by
  induction items with
  | nil => exact pure rfl
  | cons first rest inductionHypothesis =>
    exact unlessReturned (follows first) inductionHypothesis

theorem bindParameters (scope : ScopeId) (bindings : List (String × Value)) :
    Follows .value (Run.bindParameters scope bindings) (Course.bindParameters scope bindings) := by
  induction bindings with
  | nil => exact pure rfl
  | cons first rest inductionHypothesis =>
    exact bind (modify fun _ => rfl) fun _ => inductionHypothesis

variable {body : ScopeId → List Stmt → Run Completion}
  {course : ScopeId → List Stmt → Course Unit}

theorem invoke (follows : ∀ scope statements,
      Follows Completion.exit (body scope statements) (course scope statements))
    (callable : Callable) (arguments : List Value) (line : Nat) :
    Follows .value (Run.invoke body callable arguments line)
      (Course.invoke course callable arguments line) := by
  cases callable with
  | closure closure =>
    refine bind (openScope _) fun scope => ?_
    exact bind (bindParameters _ _) fun _ => catchReturn (follows scope closure.body)
  | native native => exact callNative native arguments line

theorem callValue (follows : ∀ scope statements,
      Follows Completion.exit (body scope statements) (course scope statements))
    (callee : Value) (arguments : List Value) (line : Nat) :
    Follows .value (Run.callValue body callee arguments line)
      (Course.callValue course callee arguments line) := by
  rw [Run.callValue, Course.callValue]
  cases callee.callable? with
  | none => exact fail _ _
  | some callable =>
    show Follows .value (if _ then _ else _) (if _ then _ else _)
    split
    · exact bind (record _) fun _ => invoke follows callable arguments line
    · exact fail _ _

/-! ### Expressions and statements -/

section

variable {fuel : Nat}

theorem evaluate_succ
    (evaluates : ∀ scope expression,
      Follows .value (evaluate fuel scope expression) (Course.evaluate fuel scope expression))
    (executes : ∀ scope statement,
      Follows Completion.exit (execute fuel scope statement) (Course.execute fuel scope statement))
    (scope : ScopeId) (expression : Expr) :
    Follows .value (evaluate (fuel + 1) scope expression)
      (Course.evaluate (fuel + 1) scope expression) := by
  cases expression with
  | literal literal => exact pure rfl
  | grouping inner => exact evaluates scope inner
  | «variable» name => exact lookup scope name
  | assign name value =>
    refine bind (rejectConstant scope name) fun _ => bind (evaluates scope value) fun value => ?_
    exact bind (assign scope name value) fun _ => pure rfl
  | unary operator operand => exact bind (evaluates scope operand) fun _ => ofExcept _ _
  | binary left operator right =>
    exact bind (evaluates scope left) fun _ => bind (evaluates scope right) fun _ => ofExcept _ _
  | logical left operator right =>
    refine bind (evaluates scope left) fun left => ?_
    show Follows .value (if _ then _ else _) (if _ then _ else _)
    split
    · exact pure rfl
    · exact evaluates scope right
  | call callee paren arguments =>
    refine bind (evaluates scope callee) fun callee => ?_
    refine bind (each (evaluates scope) arguments) fun arguments => ?_
    exact callValue (fun inner => inOrder (executes inner)) callee arguments paren.line

theorem execute_succ
    (evaluates : ∀ scope expression,
      Follows .value (evaluate fuel scope expression) (Course.evaluate fuel scope expression))
    (executes : ∀ scope statement,
      Follows Completion.exit (execute fuel scope statement) (Course.execute fuel scope statement))
    (scope : ScopeId) (statement : Stmt) :
    Follows Completion.exit (execute (fuel + 1) scope statement)
      (Course.execute (fuel + 1) scope statement) := by
  cases statement with
  | expression value => exact bind (evaluates scope value) fun _ => pure rfl
  | print value => exact bind (evaluates scope value) fun _ => modify_normal fun _ => rfl
  | var constant name initializer =>
    refine bind (rejectDeclared scope name) fun _ => ?_
    cases initializer with
    | none => exact bind (pure rfl) (declareVariable scope name.lexeme constant)
    | some initializer =>
      exact bind (evaluates scope initializer) (declareVariable scope name.lexeme constant)
  | block body => exact bind (openScope scope) fun inner => inOrder (executes inner) body
  | ifThen condition consequent =>
    refine bind (evaluates scope condition) fun value => bind (record _) fun _ => ?_
    show Follows Completion.exit (if _ then _ else _) (if _ then _ else _)
    split
    · exact executes scope consequent
    · exact pure rfl
  | ifElse condition consequent alternative =>
    refine bind (evaluates scope condition) fun value => bind (record _) fun _ => ?_
    show Follows Completion.exit (if _ then _ else _) (if _ then _ else _)
    split
    · exact executes scope consequent
    · exact executes scope alternative
  | «while» condition body =>
    refine bind (evaluates scope condition) fun value => ?_
    show Follows Completion.exit (if _ then _ else _) (if _ then _ else _)
    split
    · exact unlessReturned (executes scope body) (executes scope (.while condition body))
    · exact pure rfl
  | function name parameters body =>
    exact bind (modify fun _ => rfl) fun _ => record_normal _
  | «return» keyword value =>
    cases value with
    | none => exact leave .nil
    | some value => exact bind (evaluates scope value) fun value => leave value

end

/-- The evaluator follows its courses. -/
theorem evaluate_execute (fuel : Nat) :
    (∀ scope expression,
      Follows .value (evaluate fuel scope expression) (Course.evaluate fuel scope expression)) ∧
    ∀ scope statement,
      Follows Completion.exit (execute fuel scope statement)
        (Course.execute fuel scope statement) := by
  induction fuel with
  | zero =>
    refine ⟨fun _ _ => ?_, fun _ _ => ?_⟩
    · rw [evaluate, Course.evaluate]
      exact starve
    · rw [execute, Course.execute]
      exact starve
  | succ fuel inductionHypothesis =>
    obtain ⟨evaluates, executes⟩ := inductionHypothesis
    exact ⟨evaluate_succ evaluates executes, execute_succ evaluates executes⟩

theorem evaluate (fuel : Nat) (scope : ScopeId) (expression : Expr) :
    Follows .value (evaluate fuel scope expression) (Course.evaluate fuel scope expression) :=
  (evaluate_execute fuel).1 scope expression

theorem execute (fuel : Nat) (scope : ScopeId) (statement : Stmt) :
    Follows Completion.exit (execute fuel scope statement) (Course.execute fuel scope statement) :=
  (evaluate_execute fuel).2 scope statement

/-- A run is out of fuel exactly if its course is. -/
theorem outOfFuel_iff {exit : α → Exit β} {run : Run α} {course : Course β}
    (follows : Follows exit run course) (ends : ∀ value, exit value ≠ .outOfFuel)
    (machine : Machine) : (course machine).2 = .outOfFuel ↔ (run machine).1 = .outOfFuel := by
  rw [(follows machine).1]
  cases (run machine).1 with
  | value value => simp [Outcome.exit, ends value]
  | error error => simp [Outcome.exit]
  | outOfFuel => simp [Outcome.exit]

end Follows

theorem Completion.exit_ne_outOfFuel (completion : Completion) : completion.exit ≠ .outOfFuel := by
  cases completion <;> simp [exit]

/-! ### Sources -/

namespace Session

/-- A span of actions and its ending agree with a run. -/
theorem interpret_eq (fuel : Nat) (statements : List Stmt) (machine : Machine) :
    interpret fuel statements machine =
      ((Course.interpret fuel statements machine).2,
        machine.performAll (Course.interpret fuel statements machine).1) := by
  obtain ⟨ends, reaches⟩ :=
    Follows.inOrder (Follows.execute fuel globalScope) statements machine
  rw [interpret, Course.interpret]
  generalize Run.untilReturn (execute fuel globalScope) statements machine = run at ends reaches
  generalize Course.inOrder (Course.execute fuel globalScope) statements machine = part
    at ends reaches
  obtain ⟨outcome, reached⟩ := run
  obtain ⟨actions, exit⟩ := part
  obtain rfl : machine.performAll actions = reached := reaches
  obtain rfl : exit = outcome.exit Completion.exit := ends
  cases outcome with
  | value completion => cases completion <;> rfl
  | error error =>
    simp only [Outcome.exit, Machine.performAll_append, Machine.performAll_cons,
      Machine.perform_record, Machine.perform_print, Machine.performAll_nil]
  | outOfFuel => rfl

theorem runScanned_eq (fuel : Nat) (stream : TokenStream) (machine : Machine) :
    runScanned fuel stream machine =
      ((Course.runScanned fuel stream machine).2,
        machine.performAll (Course.runScanned fuel stream machine).1) := by
  simp only [runScanned, Course.runScanned]
  split
  · simp only [interpret_eq, Machine.performAll_append, Machine.performAll_cons,
      Machine.perform_record, Machine.perform_print, Machine.performAll_nil]
  · simp only [Machine.performAll_cons, Machine.perform_record, Machine.perform_print,
      Machine.performAll_nil]

theorem runSource_eq (fuel : Nat) (source : String) (machine : Machine) :
    runSource fuel source machine =
      ((Course.runSource fuel source machine).2,
        machine.performAll (Course.runSource fuel source machine).1) := by
  simp only [runSource, Course.runSource]
  split
  · simp only [runScanned_eq, Machine.performAll_append, Machine.performAll_cons,
      Machine.perform_record, Machine.perform_print, Machine.performAll_nil]
  · simp only [Machine.performAll_cons, Machine.perform_record, Machine.perform_print,
      Machine.performAll_nil]

/-- A session ends on the machine behind all its actions. -/
theorem runSources_eq (fuel : Nat) (sources : List String) (machine : Machine) :
    runSources fuel sources machine =
      machine.performAll (Course.runSources fuel sources machine) := by
  induction sources generalizing machine with
  | nil => rfl
  | cons source rest inductionHypothesis =>
    simp only [runSources, Course.runSources, runSource_eq, Machine.performAll_append,
      inductionHypothesis]

end Session

/-! ### The agreement -/

/-- A `return` that is handed from construct to construct does what an exception does that only
calls catch. Statements, statement lists, calls and whole runs end as their courses do and leave
the same machine, with its output, its inputs and all its scopes. A run that ends with no amount of
fuel has a course that ends with none, and a run that ends does so in the same way with more. -/
theorem executes_as_course :
    (∀ fuel scope statement,
      Follows Completion.exit (execute fuel scope statement)
        (Course.execute fuel scope statement)) ∧
    (∀ fuel scope statements,
      Follows Completion.exit (Run.untilReturn (execute fuel scope) statements)
        (Course.inOrder (Course.execute fuel scope) statements)) ∧
    (∀ fuel callable arguments line,
      Follows .value
        (Run.invoke (fun inner => Run.untilReturn (execute fuel inner)) callable arguments line)
        (Course.invoke (fun inner => Course.inOrder (Course.execute fuel inner)) callable
          arguments line)) ∧
    (∀ fuel statements machine,
      Session.interpret fuel statements machine =
        ((Course.interpret fuel statements machine).2,
          machine.performAll (Course.interpret fuel statements machine).1)) ∧
    (∀ scope statements machine,
      (∀ fuel, (Run.untilReturn (execute fuel scope) statements machine).1 = .outOfFuel) ↔
        ∀ fuel,
          (Course.inOrder (Course.execute fuel scope) statements machine).2 = .outOfFuel) ∧
    ∀ fuel extra scope statements,
      (Run.untilReturn (execute (fuel + extra) scope) statements).Extends
        (Run.untilReturn (execute fuel scope) statements) := by
  have lists : ∀ fuel scope statements,
      Follows Completion.exit (Run.untilReturn (execute fuel scope) statements)
        (Course.inOrder (Course.execute fuel scope) statements) :=
    fun fuel scope => Follows.inOrder (Follows.execute fuel scope)
  refine ⟨Follows.execute, lists, fun fuel => ?_, Session.interpret_eq, ?_, ?_⟩
  · exact Follows.invoke fun inner => lists fuel inner
  · intro scope statements machine
    refine forall_congr' fun fuel => Iff.symm ?_
    exact (lists fuel scope statements).outOfFuel_iff Completion.exit_ne_outOfFuel machine
  · intro fuel extra scope statements
    exact Run.Extends.untilReturn (execute_extends (Nat.le_add_right fuel extra) scope) statements

end Lox
