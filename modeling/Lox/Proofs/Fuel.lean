/-
This file proves that fuel is only a bound: a run that has enough of it does the
same with more.
-/

import Lox.Session

namespace Lox

variable {α β : Type}

/-- The long run does what the short run does, unless that used up its fuel. -/
def Run.Extends (long short : Run α) : Prop :=
  ∀ ⦃machine⦄, (short machine).1 ≠ .outOfFuel → long machine = short machine

namespace Run.Extends

theorem refl (run : Run α) : run.Extends run := fun _ _ => rfl

/-! ### Combinators -/

theorem bind {long short : Run α} {longNext shortNext : α → Run β} (first : long.Extends short)
    (next : ∀ value, (longNext value).Extends (shortNext value)) :
    Run.Extends (long >>= longNext) (short >>= shortNext) := by
  intro machine finishes
  change (Run.bind short shortNext machine).1 ≠ .outOfFuel at finishes
  show Run.bind long longNext machine = Run.bind short shortNext machine
  have firstSame := @first machine
  rw [Run.bind] at finishes
  rw [Run.bind, Run.bind]
  generalize short machine = result at finishes firstSame
  obtain ⟨outcome, reached⟩ := result
  cases outcome with
  | value value =>
    rw [firstSame (by simp)]
    exact next value finishes
  | error error => rw [firstSame (by simp)]
  | outOfFuel => exact absurd rfl finishes

theorem starve (long : Run α) : long.Extends Run.starve := fun _ finishes => absurd rfl finishes

theorem ite {condition : Prop} [Decidable condition] {long short longElse shortElse : Run α}
    (positive : long.Extends short) (negative : longElse.Extends shortElse) :
    Run.Extends (if condition then long else longElse) (if condition then short else shortElse) := by
  split
  · exact positive
  · exact negative

theorem each {long short : α → Run β} (item : ∀ value, (long value).Extends (short value))
    (items : List α) : (Run.each long items).Extends (Run.each short items) := by
  induction items with
  | nil => exact refl _
  | cons first rest inductionHypothesis =>
    exact bind (item first) fun _ => bind inductionHypothesis fun _ => refl _

theorem untilReturn {long short : α → Run Completion}
    (item : ∀ value, (long value).Extends (short value)) (items : List α) :
    (Run.untilReturn long items).Extends (Run.untilReturn short items) := by
  induction items with
  | nil => exact refl _
  | cons first rest inductionHypothesis =>
    refine bind (item first) fun completion => ?_
    cases completion with
    | normal => exact inductionHypothesis
    | returned value => exact refl _

variable {long short : ScopeId → List Stmt → Run Completion}

theorem invoke (body : ∀ scope statements, (long scope statements).Extends (short scope statements))
    (callable : Callable) (arguments : List Value) (line : Nat) :
    (Run.invoke long callable arguments line).Extends
      (Run.invoke short callable arguments line) := by
  cases callable with
  | closure closure =>
    refine bind (refl _) fun scope => bind (refl _) fun _ => ?_
    exact bind (body scope closure.body) fun _ => refl _
  | native native => exact refl _

theorem callValue
    (body : ∀ scope statements, (long scope statements).Extends (short scope statements))
    (callee : Value) (arguments : List Value) (line : Nat) :
    (Run.callValue long callee arguments line).Extends
      (Run.callValue short callee arguments line) := by
  rw [Run.callValue, Run.callValue]
  cases callee.callable? with
  | none => exact refl _
  | some callable =>
    exact ite (bind (refl _) fun _ => invoke body callable arguments line) (refl _)

/-! ### Expressions and statements -/

section

variable {more fuel : Nat}
  (evaluates : ∀ scope expression,
    (evaluate more scope expression).Extends (evaluate fuel scope expression))
  (executes : ∀ scope statement,
    (execute more scope statement).Extends (execute fuel scope statement))

include evaluates executes

theorem evaluate_succ (scope : ScopeId) (expression : Expr) :
    (evaluate (more + 1) scope expression).Extends (evaluate (fuel + 1) scope expression) := by
  cases expression with
  | literal literal => exact refl _
  | grouping inner => exact evaluates scope inner
  | «variable» name => exact refl _
  | assign name value => exact bind (refl _) fun _ => bind (evaluates scope value) fun _ => refl _
  | unary operator operand => exact bind (evaluates scope operand) fun _ => refl _
  | binary left operator right =>
    exact bind (evaluates scope left) fun _ => bind (evaluates scope right) fun _ => refl _
  | logical left operator right =>
    exact bind (evaluates scope left) fun _ => ite (refl _) (evaluates scope right)
  | call callee paren arguments =>
    refine bind (evaluates scope callee) fun callee => ?_
    refine bind (each (evaluates scope) arguments) fun arguments => ?_
    exact callValue (fun inner => untilReturn (executes inner)) callee arguments paren.line

theorem execute_succ (scope : ScopeId) (statement : Stmt) :
    (execute (more + 1) scope statement).Extends (execute (fuel + 1) scope statement) := by
  cases statement with
  | expression value => exact bind (evaluates scope value) fun _ => refl _
  | print value => exact bind (evaluates scope value) fun _ => refl _
  | var constant name initializer =>
    refine bind (refl _) fun _ => ?_
    cases initializer with
    | none => exact refl _
    | some initializer => exact bind (evaluates scope initializer) fun _ => refl _
  | block body => exact bind (refl _) fun inner => untilReturn (executes inner) body
  | ifThen condition consequent =>
    refine bind (evaluates scope condition) fun _ => bind (refl _) fun _ => ?_
    exact ite (executes scope consequent) (refl _)
  | ifElse condition consequent alternative =>
    refine bind (evaluates scope condition) fun _ => bind (refl _) fun _ => ?_
    exact ite (executes scope consequent) (executes scope alternative)
  | «while» condition body =>
    refine bind (evaluates scope condition) fun _ => ite ?_ (refl _)
    refine bind (executes scope body) fun completion => ?_
    cases completion with
    | normal => exact executes scope (.while condition body)
    | returned value => exact refl _
  | function name parameters body => exact refl _
  | «return» keyword value =>
    cases value with
    | none => exact refl _
    | some value => exact bind (evaluates scope value) fun _ => refl _

end

theorem evaluate_execute {fuel more : Nat} (enough : fuel ≤ more) :
    (∀ scope expression,
      (evaluate more scope expression).Extends (evaluate fuel scope expression)) ∧
    ∀ scope statement, (execute more scope statement).Extends (execute fuel scope statement) := by
  induction fuel generalizing more with
  | zero =>
    refine ⟨fun _ _ => ?_, fun _ _ => ?_⟩
    · rw [evaluate.eq_def 0]
      exact starve _
    · rw [execute.eq_def 0]
      exact starve _
  | succ fuel inductionHypothesis =>
    obtain ⟨less, rfl⟩ := Nat.exists_eq_add_of_le' (Nat.one_le_iff_ne_zero.mpr (by omega : more ≠ 0))
    obtain ⟨evaluates, executes⟩ := inductionHypothesis (Nat.le_of_succ_le_succ enough)
    exact ⟨evaluate_succ evaluates executes, execute_succ evaluates executes⟩

end Run.Extends

/-- An expression that has enough fuel has the same outcome with more. -/
theorem evaluate_extends {fuel more : Nat} (enough : fuel ≤ more) (scope : ScopeId)
    (expression : Expr) : (evaluate more scope expression).Extends (evaluate fuel scope expression) :=
  (Run.Extends.evaluate_execute enough).1 scope expression

/-- A statement that has enough fuel has the same outcome with more. -/
theorem execute_extends {fuel more : Nat} (enough : fuel ≤ more) (scope : ScopeId)
    (statement : Stmt) : (execute more scope statement).Extends (execute fuel scope statement) :=
  (Run.Extends.evaluate_execute enough).2 scope statement

/-! ### Values with enough fuel -/

/-- With enough fuel the expression has the value and leaves the machine as it is. -/
def Expr.Evaluates (expression : Expr) (scope : ScopeId) (machine : Machine) (value : Value) :
    Prop :=
  ∃ enough, ∀ fuel, enough ≤ fuel →
    evaluate fuel scope expression machine = (.value value, machine)

namespace Expr

variable {scope : ScopeId} {machine : Machine}

theorem Evaluates.of_succ {expression : Expr} {value : Value} (enough : Nat)
    (evaluates : ∀ fuel, enough ≤ fuel →
      evaluate (fuel + 1) scope expression machine = (.value value, machine)) :
    expression.Evaluates scope machine value := by
  refine ⟨enough + 1, fun fuel sufficient => ?_⟩
  obtain ⟨fuel, rfl⟩ : ∃ less, fuel = less + 1 := ⟨fuel - 1, by omega⟩
  exact evaluates fuel (Nat.le_of_succ_le_succ sufficient)

/-- An expression has one value only. -/
theorem Evaluates.unique {expression : Expr} {first second : Value}
    (evaluates : expression.Evaluates scope machine first)
    (evaluatesAgain : expression.Evaluates scope machine second) : first = second := by
  obtain ⟨enough, ends⟩ := evaluates
  obtain ⟨enoughAgain, endsAgain⟩ := evaluatesAgain
  have same := (ends (max enough enoughAgain) (Nat.le_max_left _ _)).symm.trans
    (endsAgain _ (Nat.le_max_right _ _))
  cases same
  rfl

theorem evaluates_literal (literal : Literal) :
    (Expr.literal literal).Evaluates scope machine literal.value :=
  .of_succ 0 fun fuel _ => by rw [evaluate]; rfl

theorem evaluates_variable {name : Token} {value : Value}
    (found : machine.store.get? scope name.lexeme = some value) :
    (Expr.variable name).Evaluates scope machine value :=
  .of_succ 0 fun fuel _ => by rw [evaluate, Run.lookup, found]

theorem Evaluates.grouping {inner : Expr} {value : Value}
    (evaluates : inner.Evaluates scope machine value) :
    (Expr.grouping inner).Evaluates scope machine value := by
  obtain ⟨enough, ends⟩ := evaluates
  exact .of_succ enough fun fuel sufficient => by rw [evaluate, ends fuel sufficient]

theorem Evaluates.unary {operator : Token} {operand : Expr} {value result : Value}
    (evaluates : operand.Evaluates scope machine value)
    (computes : Operator.unary operator value = .ok result) :
    (Expr.unary operator operand).Evaluates scope machine result := by
  obtain ⟨enough, ends⟩ := evaluates
  refine .of_succ enough fun fuel sufficient => ?_
  rw [evaluate, Run.bind_of_value (ends fuel sufficient), computes]
  rfl

theorem Evaluates.binary {left right : Expr} {operator : Token} {first second result : Value}
    (evaluatesLeft : left.Evaluates scope machine first)
    (evaluatesRight : right.Evaluates scope machine second)
    (computes : Operator.binary operator first second = .ok result) :
    (Expr.binary left operator right).Evaluates scope machine result := by
  obtain ⟨enough, ends⟩ := evaluatesLeft
  obtain ⟨enoughRight, endsRight⟩ := evaluatesRight
  refine .of_succ (max enough enoughRight) fun fuel sufficient => ?_
  rw [evaluate, Run.bind_of_value (ends fuel (Nat.le_trans (Nat.le_max_left _ _) sufficient)),
    Run.bind_of_value (endsRight fuel (Nat.le_trans (Nat.le_max_right _ _) sufficient)), computes]
  rfl

end Expr

end Lox
