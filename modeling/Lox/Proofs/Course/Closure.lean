/-
This file is the induction over programs, done once for all properties of
courses. What holds of the single steps and passes from parts to sequences and
to calls holds of the courses of all expressions, statements and sources.

It is for properties that say the same of all courses. Properties that speak of
the scope or of the tree that is run need an induction of their own.
-/

import Lox.Proofs.Course

namespace Lox.Course

/-- The property holds of the single steps of courses, and of what is made of courses that have
it. -/
structure Closed (holds : ∀ {α : Type}, Course α → Prop) : Prop where
  pure : ∀ {α : Type} (value : α), holds (pure value : Course α)
  bind : ∀ {α β : Type} {first : Course α} {next : α → Course β},
    holds first → (∀ value, holds (next value)) → holds (first >>= next)
  fail : ∀ {α : Type} fault line, holds (fail fault line : Course α)
  starve : ∀ {α : Type}, holds (starve : Course α)
  leave : ∀ {α : Type} value, holds (leave value : Course α)
  act : ∀ action, holds (act action)
  /-- What a course looks at by itself are the scopes. -/
  get : ∀ {α : Type} (view : Store → α), holds (get fun machine => view machine.store)
  callNative : ∀ native arguments line, holds (callNative native arguments line)
  catchReturn : ∀ {body : Course Unit}, holds body → holds (catchReturn body)

namespace Closed

variable {α β : Type} {holds : ∀ {α : Type}, Course α → Prop}

/-! ### Steps and lists -/

theorem branch {condition : Prop} [Decidable condition] {positive negative : Course α}
    (positiveHolds : holds positive) (negativeHolds : holds negative) :
    holds (if condition then positive else negative) := by
  split
  · exact positiveHolds
  · exact negativeHolds

variable (closed : Closed holds)

include closed

theorem openScope (enclosing : ScopeId) : holds (openScope enclosing) :=
  closed.bind (closed.get Store.size) fun size =>
    closed.bind (closed.act (.openScope enclosing)) fun _ => closed.pure size

theorem ofExcept (line : Nat) (result : Except Fault α) : holds (ofExcept line result) := by
  cases result with
  | ok value => exact closed.pure value
  | error fault => exact closed.fail fault line

theorem lookup (scope : ScopeId) (name : Token) : holds (lookup scope name) := by
  refine closed.bind (closed.get fun store => store.get? scope name.lexeme) fun found => ?_
  cases found with
  | some value => exact closed.pure value
  | none => exact closed.fail _ _

theorem assign (scope : ScopeId) (name : Token) (value : Value) :
    holds (assign scope name value) := by
  refine closed.bind (closed.get fun store => store.owner? name.lexeme scope) fun found => ?_
  cases found with
  | some owner => exact closed.act _
  | none => exact closed.fail _ _

theorem rejectConstant (scope : ScopeId) (name : Token) : holds (rejectConstant scope name) :=
  closed.bind (closed.get fun store => store.isConstant scope name.lexeme) fun _ =>
    branch (closed.fail _ _) (closed.pure ())

theorem rejectDeclared (scope : ScopeId) (name : Token) : holds (rejectDeclared scope name) :=
  closed.bind (closed.get fun store => store.binds scope name.lexeme) fun _ =>
    branch (closed.fail _ _) (closed.pure ())

theorem each {course : α → Course β} (itemHolds : ∀ item, holds (course item)) (items : List α) :
    holds (each course items) := by
  induction items with
  | nil => exact closed.pure []
  | cons first rest inductionHypothesis =>
    exact closed.bind (itemHolds first) fun _ =>
      closed.bind inductionHypothesis fun _ => closed.pure _

theorem inOrder {course : α → Course Unit} (itemHolds : ∀ item, holds (course item))
    (items : List α) : holds (inOrder course items) := by
  induction items with
  | nil => exact closed.pure ()
  | cons first rest inductionHypothesis =>
    exact closed.bind (itemHolds first) fun _ => inductionHypothesis

theorem callValue {body : ScopeId → List Stmt → Course Unit}
    (bodyHolds : ∀ scope statements, holds (body scope statements)) (callee : Value)
    (arguments : List Value) (line : Nat) : holds (callValue body callee arguments line) := by
  rw [Course.callValue]
  cases callee.callable? with
  | none => exact closed.fail _ _
  | some callable =>
    refine branch (closed.bind (closed.act _) fun _ => ?_) (closed.fail _ _)
    cases callable with
    | native native => exact closed.callNative native arguments line
    | closure closure =>
      refine closed.bind (closed.openScope closure.scope) fun scope => ?_
      refine closed.bind (closed.inOrder (fun _ => closed.act _) _) fun _ => ?_
      exact closed.catchReturn (bodyHolds scope closure.body)

/-! ### Expressions and statements -/

section

variable {fuel : Nat} (evaluates : ∀ scope expression, holds (evaluate fuel scope expression))
  (executes : ∀ scope statement, holds (execute fuel scope statement))

include evaluates executes

theorem evaluate_succ (scope : ScopeId) (expression : Expr) :
    holds (evaluate (fuel + 1) scope expression) := by
  cases expression with
  | literal literal => exact closed.pure _
  | grouping inner => exact evaluates scope inner
  | «variable» name => exact closed.lookup scope name
  | assign name value =>
    exact closed.bind (closed.rejectConstant scope name) fun _ =>
      closed.bind (evaluates scope value) fun value =>
        closed.bind (closed.assign scope name value) fun _ => closed.pure value
  | unary operator operand =>
    exact closed.bind (evaluates scope operand) fun _ => closed.ofExcept _ _
  | binary left operator right =>
    exact closed.bind (evaluates scope left) fun _ =>
      closed.bind (evaluates scope right) fun _ => closed.ofExcept _ _
  | logical left operator right =>
    exact closed.bind (evaluates scope left) fun _ =>
      branch (closed.pure _) (evaluates scope right)
  | call callee paren arguments =>
    refine closed.bind (evaluates scope callee) fun callee => ?_
    refine closed.bind (closed.each (evaluates scope) arguments) fun arguments => ?_
    exact closed.callValue (fun inner => closed.inOrder (executes inner)) callee arguments
      paren.line

theorem execute_succ (scope : ScopeId) (statement : Stmt) :
    holds (execute (fuel + 1) scope statement) := by
  cases statement with
  | expression value => exact closed.bind (evaluates scope value) fun _ => closed.pure ()
  | print value => exact closed.bind (evaluates scope value) fun _ => closed.act _
  | var constant name initializer =>
    refine closed.bind (closed.rejectDeclared scope name) fun _ => ?_
    have declares : ∀ value, holds (do
        Course.act (.declareVariable scope name.lexeme value constant)
        Course.act (.record (.declared constant name.lexeme value))) :=
      fun value => closed.bind (closed.act _) fun _ => closed.act _
    cases initializer with
    | none => exact closed.bind (closed.pure Value.nil) declares
    | some initializer => exact closed.bind (evaluates scope initializer) declares
  | block body =>
    exact closed.bind (closed.openScope scope) fun inner => closed.inOrder (executes inner) body
  | ifThen condition consequent =>
    exact closed.bind (evaluates scope condition) fun _ => closed.bind (closed.act _) fun _ =>
      branch (executes scope consequent) (closed.pure ())
  | ifElse condition consequent alternative =>
    exact closed.bind (evaluates scope condition) fun _ => closed.bind (closed.act _) fun _ =>
      branch (executes scope consequent) (executes scope alternative)
  | «while» condition body =>
    refine closed.bind (evaluates scope condition) fun _ => branch ?_ (closed.pure ())
    exact closed.bind (executes scope body) fun _ => executes scope (.while condition body)
  | function name parameters body => exact closed.bind (closed.act _) fun _ => closed.act _
  | «return» keyword value =>
    cases value with
    | none => exact closed.bind (closed.pure Value.nil) closed.leave
    | some value => exact closed.bind (evaluates scope value) closed.leave

end

theorem evaluate_execute (fuel : Nat) :
    (∀ scope expression, holds (evaluate fuel scope expression)) ∧
      ∀ scope statement, holds (execute fuel scope statement) := by
  induction fuel with
  | zero =>
    refine ⟨fun _ _ => ?_, fun _ _ => ?_⟩
    · rw [Course.evaluate]
      exact closed.starve
    · rw [Course.execute]
      exact closed.starve
  | succ fuel inductionHypothesis =>
    obtain ⟨evaluates, executes⟩ := inductionHypothesis
    exact ⟨closed.evaluate_succ evaluates executes, closed.execute_succ evaluates executes⟩

/-- What is closed holds of statement lists. -/
theorem statements (fuel : Nat) (scope : ScopeId) (statements : List Stmt) :
    holds (Course.inOrder (execute fuel scope) statements) :=
  closed.inOrder ((closed.evaluate_execute fuel).2 scope) statements

end Closed

end Lox.Course
