/-
This file proves that no program can read the lines of its tokens. Run on a
machine with other lines, an expression or a statement with the same other
lines does the same with other lines and ends in the same way. Only the line of
an error shows the difference.

Courses read nothing of a machine but its scopes and its inputs, so the outputs
and the traces of the two machines can be any.
-/

import Lox.Proofs.Lines.Renumbering

namespace Lox

variable {α β γ δ : Type} {lines : Nat → Nat}

/-! ### Machines and courses -/

/-- The second machine has the scopes of the first with other lines, and the same inputs. -/
structure Machine.Renumbered (lines : Nat → Nat) (machine machine' : Machine) : Prop where
  store : machine'.store = machine.store.renumber lines
  inputs : machine'.inputs = machine.inputs

theorem Machine.Renumbered.performAll {machine machine' : Machine}
    (renumbered : machine.Renumbered lines machine') (actions : List Action) :
    (machine.performAll actions).Renumbered lines
      (machine'.performAll (actions.map (Action.renumber lines))) := by
  induction actions generalizing machine machine' with
  | nil => exact renumbered
  | cons action actions inductionHypothesis =>
    refine @inductionHypothesis (machine.perform action) _ ⟨?_, ?_⟩
    · show machine'.store.perform (action.renumber lines) = _
      rw [renumbered.store, Store.perform_renumber, store_perform]
    · show machine'.inputs.perform (action.renumber lines) = machine.inputs.perform action
      rw [renumbered.inputs, Inputs.perform_renumber]

/-- The exit with other lines and the other value. -/
def Exit.renumber (lines : Nat → Nat) (answer : α → β) : Exit α → Exit β
  | .value found => .value (answer found)
  | .returned found => .returned (found.renumber lines)
  | .error reason => .error (reason.renumber lines)
  | .outOfFuel => .outOfFuel

namespace Course

/-- On machines with other lines the second course does what the first does with other lines, and
ends in the same way. -/
def Renumbered (lines : Nat → Nat) (answer : α → β) (course : Course α) (course' : Course β) :
    Prop :=
  ∀ ⦃machine machine' : Machine⦄, machine.Renumbered lines machine' →
    course' machine' =
      ((course machine).1.map (Action.renumber lines), (course machine).2.renumber lines answer)

/-! ### Single steps -/

theorem renumbered_pure {answer : α → β} (value : α) :
    Renumbered lines answer (pure value) (pure (answer value)) :=
  fun _ _ _ => rfl

theorem renumbered_nil : Renumbered lines (Value.renumber lines) (pure .nil) (pure .nil) :=
  renumbered_pure Value.nil

theorem Renumbered.bind {answer : α → β} {after : γ → δ} {first : Course α} {first' : Course β}
    {next : α → Course γ} {next' : β → Course δ}
    (firstRenumbered : Renumbered lines answer first first')
    (nextRenumbered : ∀ value, Renumbered lines after (next value) (next' (answer value))) :
    Renumbered lines after (first >>= next) (first' >>= next') := by
  intro machine machine' renumbered
  have part' := firstRenumbered renumbered
  rcases part : first machine with ⟨actions, exit⟩
  rw [part] at part'
  cases exit with
  | value value =>
    rw [bind_of_value part, bind_of_value part',
      nextRenumbered value (renumbered.performAll actions), List.map_append]
  | returned value => rw [bind_of_returned part, bind_of_returned part']; rfl
  | error error => rw [bind_of_error part, bind_of_error part']; rfl
  | outOfFuel => rw [bind_of_outOfFuel part, bind_of_outOfFuel part']; rfl

theorem renumbered_starve {answer : α → β} : Renumbered lines answer starve starve :=
  fun _ _ _ => rfl

theorem renumbered_fail {answer : α → β} (fault : Fault) (line : Nat) :
    Renumbered lines answer (fail fault line) (fail fault (lines line)) :=
  fun _ _ _ => rfl

theorem renumbered_leave {answer : α → β} (value : Value) :
    Renumbered lines answer (leave value) (leave (value.renumber lines)) :=
  fun _ _ _ => rfl

theorem renumbered_act (action : Action) :
    Renumbered lines id (act action) (act (action.renumber lines)) :=
  fun _ _ _ => rfl

theorem renumbered_openScope (scope : ScopeId) :
    Renumbered lines id (openScope scope) (openScope scope) := by
  intro machine machine' renumbered
  have sizes : machine'.store.size = machine.store.size := by
    rw [renumbered.store, Store.size_renumber]
  rw [openScope, sizes]
  rfl

theorem renumbered_ofExcept (line : Nat) {result : Except Fault Value}
    (noFunction : ∀ value, result = .ok value → value.NoFunction) :
    Renumbered lines (Value.renumber lines) (ofExcept line result)
      (ofExcept (lines line) result) := by
  cases result with
  | ok value =>
    have pure := @renumbered_pure _ _ lines (Value.renumber lines) value
    rwa [(noFunction value rfl).renumber] at pure
  | error fault => exact renumbered_fail fault line

theorem renumbered_lookup (scope : ScopeId) (name : Token) :
    Renumbered lines (Value.renumber lines) (lookup scope name)
      (lookup scope (name.renumber lines)) := by
  intro machine machine' renumbered
  rw [lookup_apply, lookup_apply, renumbered.store, Store.get?_renumber]
  rw [name.lexeme_renumber]
  cases machine.store.get? scope name.lexeme <;> rfl

theorem renumbered_assign (scope : ScopeId) (name : Token) (value : Value) :
    Renumbered lines id (assign scope name value)
      (assign scope (name.renumber lines) (value.renumber lines)) := by
  intro machine machine' renumbered
  rw [assign_apply, assign_apply, renumbered.store, Store.owner?_renumber]
  rw [name.lexeme_renumber]
  cases machine.store.owner? name.lexeme scope <;> rfl

theorem renumbered_callNative (native : Native) (arguments : List Value) (line : Nat) :
    Renumbered lines (Value.renumber lines) (callNative native arguments line)
      (callNative native (arguments.map (Value.renumber lines)) (lines line)) := by
  intro machine machine' renumbered
  rw [callNative_apply, callNative_apply, renumbered.inputs, Native.call_renumber]
  cases answer : (native.call arguments machine.inputs).1 with
  | ok value =>
    have same := (Native.noFunction_call answer).renumber lines
    simp only [Exit.renumber, same]
    rfl
  | error fault => rfl

theorem renumbered_rejectConstant (scope : ScopeId) (name : Token) :
    Renumbered lines id (rejectConstant scope name)
      (rejectConstant scope (name.renumber lines)) := by
  intro machine machine' renumbered
  rw [rejectConstant_apply, rejectConstant_apply, renumbered.store, Store.isConstant_renumber]
  rw [name.lexeme_renumber]
  cases machine.store.isConstant scope name.lexeme <;> rfl

theorem renumbered_rejectDeclared (scope : ScopeId) (name : Token) :
    Renumbered lines id (rejectDeclared scope name)
      (rejectDeclared scope (name.renumber lines)) := by
  intro machine machine' renumbered
  rw [rejectDeclared_apply, rejectDeclared_apply, renumbered.store, Store.binds_renumber]
  rw [name.lexeme_renumber]
  cases machine.store.binds scope name.lexeme <;> rfl

theorem Renumbered.ite {answer : α → β} {condition : Prop} [Decidable condition]
    {course other : Course α} {course' other' : Course β}
    (positive : Renumbered lines answer course course')
    (negative : Renumbered lines answer other other') :
    Renumbered lines answer (if condition then course else other)
      (if condition then course' else other') := by
  split
  · exact positive
  · exact negative

/-! ### Lists and calls -/

theorem renumbered_each {change : γ → δ} {course : γ → Course Value} {course' : δ → Course Value}
    (renumbered : ∀ item, Renumbered lines (Value.renumber lines) (course item)
      (course' (change item))) (items : List γ) :
    Renumbered lines (List.map (Value.renumber lines)) (each course items)
      (each course' (items.map change)) := by
  induction items with
  | nil => exact renumbered_pure []
  | cons first rest inductionHypothesis =>
    refine (renumbered first).bind fun value => inductionHypothesis.bind fun values => ?_
    exact renumbered_pure (value :: values)

theorem renumbered_inOrder {change : γ → δ} {course : γ → Course Unit} {course' : δ → Course Unit}
    (renumbered : ∀ item, Renumbered lines id (course item) (course' (change item)))
    (items : List γ) :
    Renumbered lines id (inOrder course items) (inOrder course' (items.map change)) := by
  induction items with
  | nil => exact renumbered_pure ()
  | cons first rest inductionHypothesis =>
    exact (renumbered first).bind fun _ => inductionHypothesis

theorem renumbered_bindParameters (scope : ScopeId) (parameters : List String)
    (arguments : List Value) :
    Renumbered lines id (bindParameters scope (parameters.zip arguments))
      (bindParameters scope (parameters.zip (arguments.map (Value.renumber lines)))) := by
  rw [List.zip_map_right]
  refine renumbered_inOrder (fun binding => ?_) _
  exact renumbered_act (.bindParameter scope binding.1 binding.2)

theorem Renumbered.catchReturn {body body' : Course Unit}
    (renumbered : Renumbered lines id body body') :
    Renumbered lines (Value.renumber lines) (catchReturn body) (catchReturn body') := by
  intro machine machine' machines
  rw [Course.catchReturn, Course.catchReturn, renumbered machines]
  generalize body machine = part
  obtain ⟨actions, exit⟩ := part
  cases exit <;> rfl

/-- Functions with other lines do the same with other lines if their bodies do. -/
theorem renumbered_callValue {body body' : ScopeId → List Stmt → Course Unit}
    (renumbered : ∀ scope statements, Renumbered lines id (body scope statements)
      (body' scope (statements.map (Stmt.renumber lines))))
    (callee : Value) (arguments : List Value) (line : Nat) :
    Renumbered lines (Value.renumber lines) (callValue body callee arguments line)
      (callValue body' (callee.renumber lines) (arguments.map (Value.renumber lines))
        (lines line)) := by
  rw [callValue, callValue, Value.callable?_renumber]
  cases callee.callable? with
  | none => exact renumbered_fail _ line
  | some callable =>
    simp only [Option.map_some, Callable.arity_renumber, List.length_map]
    refine Renumbered.ite ?_ (renumbered_fail _ line)
    refine (renumbered_act (.record (.called callable arguments.length line))).bind fun _ => ?_
    cases callable with
    | native native => exact renumbered_callNative native arguments line
    | closure closure =>
      refine (renumbered_openScope closure.scope).bind fun scope => ?_
      refine (renumbered_bindParameters scope closure.parameters arguments).bind fun _ => ?_
      exact (renumbered scope closure.body).catchReturn

/-! ### Expressions and statements -/

section

variable {fuel : Nat}
  (evaluates : ∀ scope expression, Renumbered lines (Value.renumber lines)
    (evaluate fuel scope expression) (evaluate fuel scope (expression.renumber lines)))
  (executes : ∀ scope statement, Renumbered lines id (execute fuel scope statement)
    (execute fuel scope (statement.renumber lines)))

include evaluates executes

theorem renumbered_evaluate_succ (scope : ScopeId) (expression : Expr) :
    Renumbered lines (Value.renumber lines) (evaluate (fuel + 1) scope expression)
      (evaluate (fuel + 1) scope (expression.renumber lines)) := by
  cases expression with
  | literal literal =>
    have pure := @renumbered_pure _ _ lines (Value.renumber lines) literal.value
    rwa [literal.noFunction_value.renumber] at pure
  | grouping inner => exact evaluates scope inner
  | «variable» name => exact renumbered_lookup scope name
  | assign name value =>
    refine (renumbered_rejectConstant scope name).bind fun _ => ?_
    refine (evaluates scope value).bind fun value => ?_
    exact (renumbered_assign scope name value).bind fun _ => renumbered_pure value
  | unary operator operand =>
    refine (evaluates scope operand).bind fun operand => ?_
    rw [Operator.unary_renumber]
    exact renumbered_ofExcept operator.line fun _ => Operator.noFunction_unary
  | binary left operator right =>
    refine (evaluates scope left).bind fun left => (evaluates scope right).bind fun right => ?_
    rw [Operator.binary_renumber]
    exact renumbered_ofExcept operator.line fun _ => Operator.noFunction_binary
  | logical left operator right =>
    refine (evaluates scope left).bind fun left => ?_
    rw [Value.truthy_renumber]
    exact Renumbered.ite (renumbered_pure left) (evaluates scope right)
  | call callee paren arguments =>
    rw [Expr.renumber, Expr.renumberAll_eq_map]
    refine (evaluates scope callee).bind fun callee => ?_
    refine (renumbered_each (evaluates scope) arguments).bind fun arguments => ?_
    exact renumbered_callValue (fun inner => renumbered_inOrder (executes inner)) callee arguments
      paren.line

theorem renumbered_execute_succ (scope : ScopeId) (statement : Stmt) :
    Renumbered lines id (execute (fuel + 1) scope statement)
      (execute (fuel + 1) scope (statement.renumber lines)) := by
  cases statement with
  | expression value => exact (evaluates scope value).bind fun _ => renumbered_pure ()
  | print value =>
    refine (evaluates scope value).bind fun value => ?_
    rw [Value.text_renumber]
    exact renumbered_act (.print (value.text ++ "\n"))
  | var constant name initializer =>
    have declares : ∀ value, Renumbered lines id
        (do
          act (.declareVariable scope name.lexeme value constant)
          act (.record (.declared constant name.lexeme value)))
        (do
          act (.declareVariable scope name.lexeme (value.renumber lines) constant)
          act (.record (.declared constant name.lexeme (value.renumber lines)))) := fun value =>
      (renumbered_act (.declareVariable scope name.lexeme value constant)).bind fun _ =>
        renumbered_act (.record (.declared constant name.lexeme value))
    refine (renumbered_rejectDeclared scope name).bind fun _ => ?_
    cases initializer with
    | none => exact renumbered_nil.bind declares
    | some initializer => exact (evaluates scope initializer).bind declares
  | block body =>
    rw [Stmt.renumber, Stmt.renumberAll_eq_map]
    exact (renumbered_openScope scope).bind fun inner => renumbered_inOrder (executes inner) body
  | ifThen condition consequent =>
    refine (evaluates scope condition).bind fun value => ?_
    refine (renumbered_act (.record (.decided value))).bind fun _ => ?_
    rw [Value.truthy_renumber]
    exact Renumbered.ite (executes scope consequent) (renumbered_pure ())
  | ifElse condition consequent alternative =>
    refine (evaluates scope condition).bind fun value => ?_
    refine (renumbered_act (.record (.decided value))).bind fun _ => ?_
    rw [Value.truthy_renumber]
    exact Renumbered.ite (executes scope consequent) (executes scope alternative)
  | «while» condition body =>
    refine (evaluates scope condition).bind fun value => ?_
    rw [Value.truthy_renumber]
    refine Renumbered.ite ?_ (renumbered_pure ())
    exact (executes scope body).bind fun _ => executes scope (.while condition body)
  | function name parameters body =>
    let closure : Closure := ⟨name.lexeme, parameters.map Token.lexeme, body, scope⟩
    have declares : execute (fuel + 1) scope ((Stmt.function name parameters body).renumber lines) =
        (do
          act (.declareFunction (closure.renumber lines))
          act (.record (.defined name.lexeme parameters.length))) := by
      rw [Stmt.renumber, Stmt.renumberAll_eq_map, execute, List.map_map, List.length_map]
      rfl
    rw [declares]
    refine (renumbered_act (.declareFunction closure)).bind fun _ => ?_
    exact renumbered_act (.record (.defined name.lexeme parameters.length))
  | «return» keyword value =>
    cases value with
    | none => exact renumbered_nil.bind renumbered_leave
    | some value => exact (evaluates scope value).bind renumbered_leave

end

theorem renumbered_evaluate_execute (lines : Nat → Nat) (fuel : Nat) :
    (∀ scope expression, Renumbered lines (Value.renumber lines)
      (evaluate fuel scope expression) (evaluate fuel scope (expression.renumber lines))) ∧
    ∀ scope statement, Renumbered lines id (execute fuel scope statement)
      (execute fuel scope (statement.renumber lines)) := by
  induction fuel with
  | zero => exact ⟨fun _ _ => renumbered_starve, fun _ _ => renumbered_starve⟩
  | succ fuel inductionHypothesis =>
    obtain ⟨evaluates, executes⟩ := inductionHypothesis
    exact ⟨renumbered_evaluate_succ evaluates executes,
      renumbered_execute_succ evaluates executes⟩

/-- Statements with other lines do the same with other lines. -/
theorem renumbered_statements (lines : Nat → Nat) (fuel : Nat) (scope : ScopeId)
    (statements : List Stmt) :
    Renumbered lines id (inOrder (execute fuel scope) statements)
      (inOrder (execute fuel scope) (statements.map (Stmt.renumber lines))) :=
  renumbered_inOrder ((renumbered_evaluate_execute lines fuel).2 scope) statements

end Course

end Lox
