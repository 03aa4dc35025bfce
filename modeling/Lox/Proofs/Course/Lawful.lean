/-
This file proves that courses are lawful: every declaration binds its name in a
scope of its own, nothing is bound over a constant but by a function
declaration, and only variables are assigned to.

What a statement may declare in is its scope, if it is a declaration, and the
scopes that are opened while it runs. The tests that come before the evaluation
of an initializer or an assigned value still hold behind it, because all that
the evaluation declares is in newer scopes.
-/

import Lox.Proofs.Course
import Lox.Proofs.Parsing.Branches
import Lox.Proofs.Scopes.Frame

namespace Lox

variable {α β : Type} {own other : ScopeId → Prop}

/-! ### Lawful actions -/

/-- The action declares only in scopes that are its own, and changes no constant unless it declares
a function. -/
def Action.Lawful (own : ScopeId → Prop) (store : Store) : Action → Prop
  | .bindParameter scope name _ =>
    own scope ∧ ∃ found, store.scope? scope = some found ∧
      (found.find? name).any Binding.constant = false
  | .declareVariable scope name _ _ =>
    own scope ∧ ∃ found, store.scope? scope = some found ∧ found.binds name = false
  | .declareFunction closure => own closure.scope ∧ closure.scope < store.size
  | .update owner name _ =>
    ∃ found binding, store.scope? owner = some found ∧ found.find? name = some binding ∧
      binding.constant = false
  | .openScope _ | .print _ | .record _ | .callNative _ _ => True

/-- Each of the actions is lawful behind the ones before it. -/
def Store.Lawful (own : ScopeId → Prop) : Store → List Action → Prop
  | _, [] => True
  | store, action :: actions =>
    action.Lawful own store ∧ Lawful own (store.perform action) actions

theorem Action.Lawful.mono {store : Store} {action : Action} (lawful : action.Lawful own store)
    (wider : ∀ id, own id → other id) : action.Lawful other store := by
  cases action with
  | bindParameter scope name value => exact ⟨wider _ lawful.1, lawful.2⟩
  | declareVariable scope name value constant => exact ⟨wider _ lawful.1, lawful.2⟩
  | declareFunction closure => exact ⟨wider _ lawful.1, lawful.2⟩
  | update owner name value => exact lawful
  | openScope _ | print _ | record _ | callNative _ _ => trivial

namespace Store

theorem Lawful.mono {store : Store} {actions : List Action} (lawful : store.Lawful own actions)
    (wider : ∀ id, own id → other id) : store.Lawful other actions := by
  induction actions generalizing store with
  | nil => trivial
  | cons action actions inductionHypothesis =>
    exact ⟨lawful.1.mono wider, inductionHypothesis lawful.2⟩

theorem lawful_append {store : Store} {first later : List Action} :
    store.Lawful own (first ++ later) ↔
      store.Lawful own first ∧ (store.performAll first).Lawful own later := by
  induction first generalizing store with
  | nil => exact ⟨fun lawful => ⟨trivial, lawful⟩, And.right⟩
  | cons action first inductionHypothesis =>
    rw [List.cons_append, Lawful, Lawful, inductionHypothesis, performAll_cons, and_assoc]

/-! ### Frames -/

theorem keepsOn_modify {store : Store} {chosen : ScopeId → Prop} {id : ScopeId}
    (spared : ¬ chosen id) (change : List Binding → List Binding) :
    store.KeepsOn chosen (store.modify id change) := by
  intro picked scope member found
  have different : picked ≠ id := fun same => spared (same ▸ member)
  exact ⟨scope, (scope?_modify_of_ne store change different).trans found, .refl scope⟩

/-- A lawful action keeps the scopes that are not its own. -/
theorem keepsOn_perform {store : Store} {action : Action} (lawful : action.Lawful own store) :
    store.KeepsOn (fun id => ¬ own id) (store.perform action) := by
  cases action with
  | openScope enclosing =>
    intro id scope _ found
    have older := lt_size_of_scope? found
    exact ⟨scope, (scope?_push_of_lt store _ older).trans found, .refl scope⟩
  | bindParameter scope name value => exact keepsOn_modify (not_not_intro lawful.1) _
  | declareVariable scope name value constant => exact keepsOn_modify (not_not_intro lawful.1) _
  | declareFunction closure => exact keepsOn_modify (not_not_intro lawful.1) _
  | update owner name value =>
    obtain ⟨ownerScope, binding, foundOwner, bound, notConstant⟩ := lawful
    intro id scope _ found
    show ∃ later, (store.update owner name value).scope? id = some later ∧ _
    by_cases same : id = owner
    · subst same
      obtain rfl : ownerScope = scope := Option.some.inj (foundOwner.symm.trans found)
      refine ⟨_, (scope?_modify_self store id _).trans (by rw [found, Option.map_some]), ?_⟩
      refine Scope.keeps_update (fun other foundOther => ?_) value
      obtain rfl : binding = other := Option.some.inj (bound.symm.trans foundOther)
      exact notConstant
    · exact ⟨scope, (scope?_modify_of_ne store _ same).trans found, .refl scope⟩
  | print _ | record _ | callNative _ _ => exact .refl _ store

/-- Lawful actions keep the scopes that are not their own. -/
theorem keepsOn_performAll {store : Store} {actions : List Action}
    (lawful : store.Lawful own actions) :
    store.KeepsOn (fun id => ¬ own id) (store.performAll actions) := by
  induction actions generalizing store with
  | nil => exact .refl _ store
  | cons action actions inductionHypothesis =>
    exact (keepsOn_perform lawful.1).trans (inductionHypothesis lawful.2)

/-- Actions that declare only in new scopes keep all scopes. -/
theorem keeps_performAll {store : Store} {actions : List Action}
    (lawful : store.Lawful (store.size ≤ ·) actions) : store.Keeps (store.performAll actions) :=
  fun id scope found =>
    keepsOn_performAll lawful id scope (Nat.not_le_of_lt (lt_size_of_scope? found)) found

end Store

namespace Course

/-! ### Lawful courses -/

theorem lawful_bind {first : Course α} {next : α → Course β} {machine : Machine}
    (firstLawful : machine.store.Lawful own (first machine).1)
    (nextLawful : ∀ actions value, first machine = (actions, .value value) →
      (machine.performAll actions).store.Lawful own (next value (machine.performAll actions)).1) :
    machine.store.Lawful own ((first >>= next) machine).1 := by
  cases ends : first machine with
  | mk actions exit =>
    rw [ends] at firstLawful
    cases exit with
    | value value =>
      rw [bind_of_value ends]
      refine Store.lawful_append.mpr ⟨firstLawful, ?_⟩
      rw [← Machine.store_performAll]
      exact nextLawful actions value ends
    | returned value => rwa [bind_of_returned ends]
    | error error => rwa [bind_of_error ends]
    | outOfFuel => rwa [bind_of_outOfFuel ends]

/-- In every machine that has the scope, the course is lawful and declares only in scopes that it
opens, and in the scope itself if it may. -/
def Within (scope : ScopeId) (declaring : Prop) (course : Course α) : Prop :=
  ∀ machine : Machine, scope < machine.store.size →
    machine.store.Lawful (fun id => declaring ∧ id = scope ∨ machine.store.size ≤ id)
      (course machine).1

variable {scope : ScopeId} {declaring : Prop}

theorem Within.mono {course : Course α} {more : Prop} (within : course.Within scope declaring)
    (allowed : declaring → more) : course.Within scope more :=
  fun machine older => (within machine older).mono fun _ => Or.imp_left (And.imp_left allowed)

theorem Within.bind {first : Course α} {next : α → Course β}
    (firstWithin : first.Within scope declaring)
    (nextWithin : ∀ value, (next value).Within scope declaring) :
    Course.Within scope declaring (first >>= next) := by
  intro machine older
  refine lawful_bind (firstWithin machine older) fun actions value _ => ?_
  have grows : machine.store.size ≤ (machine.performAll actions).store.size := by
    rw [Machine.store_performAll]
    exact Store.size_performAll _ _
  refine (nextWithin value _ (Nat.lt_of_lt_of_le older grows)).mono fun id => Or.imp_right ?_
  exact Nat.le_trans grows

/-! ### Single steps -/

/-- A course that does nothing is lawful. -/
theorem within_of_silent {course : Course α} (silent : ∀ machine, (course machine).1 = []) :
    course.Within scope declaring := by
  intro machine _
  rw [silent]
  trivial

theorem within_pure (value : α) : Within scope declaring (pure value) :=
  within_of_silent fun _ => rfl

theorem within_leave (value : Value) : Within scope declaring (leave value : Course α) :=
  within_of_silent fun _ => rfl

theorem within_fail (fault : Fault) (line : Nat) :
    Within scope declaring (fail fault line : Course α) :=
  within_of_silent fun _ => rfl

theorem within_starve : Within scope declaring (starve : Course α) :=
  within_of_silent fun _ => rfl

theorem within_ofExcept (line : Nat) (result : Except Fault α) :
    Within scope declaring (ofExcept line result) := by
  cases result with
  | ok value => exact within_pure value
  | error fault => exact within_fail fault line

theorem within_lookup (name : Token) : Within scope declaring (lookup scope name) := by
  refine within_of_silent fun machine => ?_
  rw [lookup_apply]
  cases machine.store.get? scope name.lexeme <;> rfl

theorem within_print (text : String) : Within scope declaring (act (.print text)) :=
  fun _ _ => ⟨trivial, trivial⟩

theorem within_record (event : TraceEvent) : Within scope declaring (act (.record event)) :=
  fun _ _ => ⟨trivial, trivial⟩

theorem within_callNative (native : Native) (arguments : List Value) (line : Nat) :
    Within scope declaring (callNative native arguments line) := by
  intro machine _
  rw [callNative_apply]
  exact ⟨trivial, trivial⟩

theorem Within.ite {condition : Prop} [Decidable condition] {positive negative : Course α}
    (positiveWithin : positive.Within scope declaring)
    (negativeWithin : negative.Within scope declaring) :
    Within scope declaring (if condition then positive else negative) := by
  split
  · exact positiveWithin
  · exact negativeWithin

/-! ### Lists and calls -/

theorem within_each {course : α → Course β}
    (within : ∀ item, (course item).Within scope declaring) (items : List α) :
    Within scope declaring (each course items) := by
  induction items with
  | nil => exact within_pure []
  | cons first rest inductionHypothesis =>
    exact (within first).bind fun _ => inductionHypothesis.bind fun _ => within_pure _

theorem within_inOrder {course : α → Course Unit}
    (within : ∀ item, (course item).Within scope declaring) (items : List α) :
    Within scope declaring (inOrder course items) := by
  induction items with
  | nil => exact within_pure ()
  | cons first rest inductionHypothesis => exact (within first).bind fun _ => inductionHypothesis

/-- In a scope without constants any parameters can be bound. -/
theorem lawful_bindParameters {store : Store} {found : Scope} (owned : own scope)
    (foundScope : store.scope? scope = some found)
    (free : ∀ name, (found.find? name).any Binding.constant = false)
    (bindings : List (String × Value)) :
    store.Lawful own
      (bindings.map fun binding => .bindParameter scope binding.1 binding.2) := by
  induction bindings generalizing store found with
  | nil => trivial
  | cons first rest inductionHypothesis =>
    obtain ⟨name, value⟩ := first
    refine ⟨⟨owned, found, foundScope, free name⟩, ?_⟩
    refine inductionHypothesis ((Store.scope?_modify_self _ _ _).trans
      (congrArg (Option.map _) foundScope)) fun other => ?_
    show (Binding.find? other (Binding.define name value false found.bindings)).any _ = false
    rw [Binding.find?_define]
    split
    · exact (Bool.or_false _).trans (free name)
    · exact free other

/-- What may declare in a scope that was opened declares only in new scopes. -/
theorem Within.opened {course : Course α} {store : Store} {machine : Machine}
    (within : course.Within store.size True) (grows : store.size < machine.store.size) :
    machine.store.Lawful (store.size ≤ ·) (course machine).1 := by
  refine (within machine grows).mono fun id declares => ?_
  cases declares with
  | inl same => exact Nat.le_of_eq same.2.symm
  | inr newer => exact Nat.le_trans (Nat.le_of_lt grows) newer

theorem within_openScope {next : ScopeId → Course α} (enclosing : ScopeId)
    (behind : ∀ (store : Store) (machine : Machine),
      machine.store = store.perform (.openScope enclosing) →
      machine.store.Lawful (store.size ≤ ·) (next store.size machine).1) :
    Within scope declaring (openScope enclosing >>= next) := by
  intro machine _
  refine Store.Lawful.mono ?_ fun id => Or.inr
  exact ⟨trivial, behind machine.store (machine.perform (.openScope enclosing)) rfl⟩

variable {body : ScopeId → List Stmt → Course Unit}

theorem within_invoke (within : ∀ inner statements, (body inner statements).Within inner True)
    (callable : Callable) (arguments : List Value) (line : Nat) :
    Within scope declaring (invoke body callable arguments line) := by
  cases callable with
  | native native => exact within_callNative native arguments line
  | closure closure =>
    refine within_openScope closure.scope fun store machine opened => ?_
    have empty : machine.store.scope? store.size = some ⟨some closure.scope, []⟩ := by
      rw [opened]
      exact Store.scope?_push_self store _
    refine lawful_bind ?_ fun actions _ binds => ?_
    · rw [bindParameters_apply]
      exact lawful_bindParameters (Nat.le_refl _) empty (fun _ => rfl) _
    · have grows : store.size < (machine.performAll actions).store.size := by
        rw [Machine.store_performAll]
        exact Nat.lt_of_lt_of_le (Store.lt_size_of_scope? empty) (Store.size_performAll _ _)
      rw [fst_catchReturn]
      exact (within store.size closure.body).opened grows

theorem within_callValue (within : ∀ inner statements, (body inner statements).Within inner True)
    (callee : Value) (arguments : List Value) (line : Nat) :
    Within scope declaring (callValue body callee arguments line) := by
  rw [callValue]
  cases callee.callable? with
  | none => exact within_fail _ _
  | some callable =>
    refine Within.ite (Within.bind (within_record _) fun _ => ?_) (within_fail _ _)
    exact within_invoke within callable arguments line

/-! ### Declarations and assignments -/

/-- What declares only in new scopes keeps all scopes. -/
theorem Within.keeps {course : Course α} (within : course.Within scope False) {machine : Machine}
    (older : scope < machine.store.size) :
    machine.store.Keeps (machine.performAll (course machine).1).store := by
  rw [Machine.store_performAll]
  refine Store.keeps_performAll ((within machine older).mono fun id declares => ?_)
  exact declares.resolve_left fun here => here.1

/-- An assignment finds the variable that the test before its value has found. -/
theorem within_assign {course : Course Value} (within : course.Within scope False) (name : Token) :
    Within scope declaring (do
      rejectConstant scope name
      let value ← course
      assign scope name value
      return value) := by
  intro machine older
  refine lawful_bind (by rw [rejectConstant_apply]; trivial) fun actions _ tests => ?_
  rw [rejectConstant_apply] at tests
  split at tests
  · cases tests
  next assignable =>
  cases tests
  refine lawful_bind (within.mono False.elim machine older) fun actions value ends => ?_
  have keeps := within.keeps older
  rw [Machine.performAll_nil] at ends ⊢
  rw [ends] at keeps
  refine lawful_bind ?_ fun _ _ _ => trivial
  rw [assign_apply]
  cases owned : (machine.performAll actions).store.owner? name.lexeme scope with
  | none => trivial
  | some owner =>
    obtain ⟨found, binding, foundOwner, bound⟩ := Store.find?_of_owner? owned
    refine ⟨⟨found, binding, foundOwner, bound, ?_⟩, trivial⟩
    have same := keeps.isConstant name.lexeme older
    rw [Store.isConstant_eq owned foundOwner, bound, Option.any_some] at same
    rw [same]
    exact Bool.eq_false_iff.mpr assignable

/-- A declaration binds a name that is still unbound behind its initializer. -/
theorem within_declareVariable {course : Course Value} (within : course.Within scope False)
    (name : Token) (constant : Bool) :
    Within scope True (do
      rejectDeclared scope name
      let value ← course
      act (.declareVariable scope name.lexeme value constant)
      act (.record (.declared constant name.lexeme value))) := by
  intro machine older
  refine lawful_bind (by rw [rejectDeclared_apply]; trivial) fun actions _ tests => ?_
  rw [rejectDeclared_apply] at tests
  split at tests
  · cases tests
  next unbound =>
  cases tests
  refine lawful_bind (within.mono False.elim machine older) fun actions value ends => ?_
  have keeps := within.keeps older
  rw [Machine.performAll_nil] at ends ⊢
  rw [ends] at keeps
  refine lawful_bind ⟨⟨.inl ⟨trivial, rfl⟩, ?_⟩, trivial⟩ fun _ _ _ => ⟨trivial, trivial⟩
  obtain ⟨before, foundBefore⟩ := Store.exists_scope?_of_lt older
  obtain ⟨found, foundScope, kept⟩ := keeps scope before foundBefore
  refine ⟨found, foundScope, ?_⟩
  rw [Store.binds, foundBefore, Option.any_some] at unbound
  rw [kept.binds]
  exact Bool.eq_false_iff.mpr unbound

theorem within_declareFunction (closure : Closure) (event : TraceEvent) :
    Within closure.scope True (do
      act (.declareFunction closure)
      act (.record event)) :=
  fun _ older => ⟨⟨.inl ⟨trivial, rfl⟩, older⟩, trivial, trivial⟩

/-! ### Expressions and statements -/

section

variable {fuel : Nat}
  (evaluates : ∀ scope expression, (evaluate fuel scope expression).Within scope False)
  (executes : ∀ scope statement, (execute fuel scope statement).Within scope statement.Declares)

include evaluates executes

theorem within_evaluate_succ (scope : ScopeId) (expression : Expr) :
    (evaluate (fuel + 1) scope expression).Within scope False := by
  cases expression with
  | literal literal => exact within_pure _
  | grouping inner => exact evaluates scope inner
  | «variable» name => exact within_lookup name
  | assign name value => exact within_assign (evaluates scope value) name
  | unary operator operand =>
    exact (evaluates scope operand).bind fun _ => within_ofExcept _ _
  | binary left operator right =>
    refine (evaluates scope left).bind fun _ => (evaluates scope right).bind fun _ => ?_
    exact within_ofExcept _ _
  | logical left operator right =>
    exact (evaluates scope left).bind fun _ => (within_pure _).ite (evaluates scope right)
  | call callee paren arguments =>
    refine (evaluates scope callee).bind fun callee => ?_
    refine (within_each (evaluates scope) arguments).bind fun arguments => ?_
    refine within_callValue (fun inner statements => ?_) callee arguments paren.line
    exact within_inOrder (fun statement => (executes inner statement).mono fun _ => trivial) _

theorem within_execute_succ (scope : ScopeId) (statement : Stmt) :
    (execute (fuel + 1) scope statement).Within scope statement.Declares := by
  have evaluatesHere : ∀ {declaring : Prop} expression,
      (evaluate fuel scope expression).Within scope declaring :=
    fun expression => (evaluates scope expression).mono False.elim
  cases statement with
  | expression value => exact (evaluatesHere value).bind fun _ => within_pure ()
  | print value => exact (evaluatesHere value).bind fun _ => within_print _
  | var constant name initializer =>
    cases initializer with
    | none => exact within_declareVariable (within_pure .nil) name constant
    | some initializer => exact within_declareVariable (evaluates scope initializer) name constant
  | block body =>
    refine within_openScope scope fun store machine opened => ?_
    have grows : store.size < machine.store.size := by
      rw [opened]
      exact Nat.lt_of_lt_of_eq (Nat.lt_succ_self _) (Store.size_push store _).symm
    refine Within.opened (within_inOrder (fun statement => ?_) body) grows
    exact (executes store.size statement).mono fun _ => trivial
  | ifThen condition consequent =>
    refine (evaluatesHere condition).bind fun _ => (within_record _).bind fun _ => ?_
    exact (executes scope consequent).ite (within_pure ())
  | ifElse condition consequent alternative =>
    refine (evaluatesHere condition).bind fun _ => (within_record _).bind fun _ => ?_
    exact ((executes scope consequent).mono Or.inl).ite ((executes scope alternative).mono Or.inr)
  | «while» condition body =>
    refine (evaluatesHere condition).bind fun _ => Within.ite ?_ (within_pure ())
    exact (executes scope body).bind fun _ => executes scope (.while condition body)
  | function name parameters body =>
    exact within_declareFunction ⟨name.lexeme, parameters.map Token.lexeme, body, scope⟩ _
  | «return» keyword value =>
    cases value with
    | none => exact within_leave _
    | some value => exact (evaluatesHere value).bind fun _ => within_leave _

end

theorem within_evaluate_execute (fuel : Nat) :
    (∀ scope expression, (evaluate fuel scope expression).Within scope False) ∧
      ∀ scope statement, (execute fuel scope statement).Within scope statement.Declares := by
  induction fuel with
  | zero =>
    refine ⟨fun _ _ => ?_, fun _ _ => ?_⟩
    · rw [evaluate]
      exact within_starve
    · rw [execute]
      exact within_starve
  | succ fuel inductionHypothesis =>
    obtain ⟨evaluates, executes⟩ := inductionHypothesis
    exact ⟨within_evaluate_succ evaluates executes, within_execute_succ evaluates executes⟩

/-- An expression declares only in scopes that it opens. -/
theorem within_evaluate (fuel : Nat) (scope : ScopeId) (expression : Expr) :
    (evaluate fuel scope expression).Within scope False :=
  (within_evaluate_execute fuel).1 scope expression

/-- A statement declares only in scopes that it opens, and in its own if it is a declaration or
hides one. -/
theorem within_execute (fuel : Nat) (scope : ScopeId) (statement : Stmt) :
    (execute fuel scope statement).Within scope statement.Declares :=
  (within_evaluate_execute fuel).2 scope statement

/-! ### Sources -/

/-- All actions of a session are lawful. -/
theorem lawful_runSources (fuel : Nat) (sources : List String) {machine : Machine}
    (older : globalScope < machine.store.size) :
    machine.store.Lawful (fun _ => True) (runSources fuel sources machine) := by
  refine @runSources_induction fuel sources
    (fun machine actions => globalScope < machine.store.size →
      machine.store.Lawful (fun _ => True) actions)
    (fun _ _ => trivial) (fun machine first later firstLawful laterLawful older => ?_)
    (fun _ _ _ => ⟨trivial, trivial⟩) (fun _ _ _ => ⟨trivial, trivial⟩)
    (fun source _ _ _ machine older => ?_) machine older
  · refine Store.lawful_append.mpr ⟨firstLawful older, ?_⟩
    rw [← Machine.store_performAll]
    refine laterLawful ?_
    rw [Machine.store_performAll]
    exact Nat.lt_of_lt_of_le older (Store.size_performAll _ _)
  · have within := fun statement : Stmt =>
      (within_execute fuel globalScope statement).mono fun _ => trivial
    exact (within_inOrder within _ machine older).mono fun _ _ => trivial

end Course

end Lox
