/-
This file proves how values come about: a property that literals have, that
operators and natives hand on, and that declared functions have, is a property
of all values that a program ever binds, passes, returns or computes.

The property may speak of the scopes, as long as no action takes it away from a
value again, and it may be asked of the values in a region of scopes only, as
long as nothing leads out of the region. What a program computes in a scope is
not only fine itself: the actions on the way carry nothing but fine values and
touch nothing but scopes of the region, so all bindings there stay fine. A run
that fails does so in one of the ways that are allowed.
-/

import Lox.Proofs.Course.Agreement
import Lox.Proofs.Parsing.Parts

namespace Lox

/-! ### Properties of values -/

/-- A value as asked for, or a fault that is allowed. -/
def Meets {ε α : Type} (fine : α → Prop) (allowed : ε → Prop) : Except ε α → Prop
  | .ok value => fine value
  | .error fault => allowed fault

theorem meets_of_ok {ε α : Type} {fine : α → Prop} {result : Except ε α}
    (ok : ∀ value, result = .ok value → fine value) : Meets fine (fun _ => True) result := by
  cases result with
  | ok value => exact ok value rfl
  | error fault => exact trivial

/-- A property of values in a store that literals of programs made of certain parts have, that every
operation hands on, that no action takes away, and that allows functions to be called. It is asked
of the values in a region that has all scopes from a number on and all scopes of fine functions.
Every fault that an operation can find is allowed. -/
structure Quality where
  parts : Parts
  ready : Inputs → Prop
  region : ScopeId → Prop
  base : Nat
  fine : Store → Value → Prop
  allowed : RuntimeError → Prop
  region_of_base_le {id : ScopeId} (newer : base ≤ id) : region id
  nil (store : Store) : fine store .nil
  literal {store : Store} {literal : Literal} (plain : parts.literal literal) :
    fine store literal.value
  unary {store : Store} {operator : Token} {operand : Value} (sign : parts.sign operator)
    (operandFine : fine store operand) :
    Meets (fine store) (fun fault => allowed ⟨fault, operator.line⟩)
      (Operator.unary operator operand)
  binary {store : Store} {operator : Token} {left right : Value} (binary : parts.binary operator)
    (leftFine : fine store left) (rightFine : fine store right) :
    Meets (fine store) (fun fault => allowed ⟨fault, operator.line⟩)
      (Operator.binary operator left right)
  native {store : Store} {native : Native} {arguments : List Value} {inputs : Inputs}
    {paren : Token} (closing : parts.closing paren) (inputsReady : ready inputs)
    (argumentsFine : ∀ argument ∈ arguments, fine store argument)
    (counted : arguments.length = native.arity) :
    Meets (fine store) (fun fault => allowed ⟨.native fault, paren.line⟩)
      (native.call arguments inputs).1
  ready_call {inputs : Inputs} (inputsReady : ready inputs) (native : Native)
    (arguments : List Value) : ready (native.call arguments inputs).2
  perform {store : Store} {value : Value} (valueFine : fine store value) (action : Action) :
    fine (store.perform action) value
  declare {store : Store} {scope : ScopeId} {name : Token} {parameters : List String}
    {body : List Stmt} (named : parts.name name) (inside : region scope)
    (older : scope < store.size) (built : ∀ statement ∈ body, statement.Built parts) :
    fine (store.perform (.declareFunction ⟨name.lexeme, parameters, body, scope⟩))
      (.function ⟨name.lexeme, parameters, body, scope⟩)
  function {store : Store} {closure : Closure} (closureFine : fine store (.function closure)) :
    region closure.scope ∧ closure.scope < store.size ∧
      ∀ statement ∈ closure.body, statement.Built parts
  undefined {name : Token} (named : parts.name name) :
    allowed ⟨.undefinedVariable name.lexeme, name.line⟩
  constant {name : Token} (named : parts.name name) :
    allowed ⟨.constantReassigned name.lexeme, name.line⟩
  declared {name : Token} (named : parts.name name) :
    allowed ⟨.alreadyDeclared name.lexeme, name.line⟩
  notCallable {paren : Token} (closing : parts.closing paren) : allowed ⟨.notCallable, paren.line⟩
  argumentCount {paren : Token} {expected got : Nat} (closing : parts.closing paren)
    (miscounted : got ≠ expected) : allowed ⟨.argumentCount expected got, paren.line⟩

/-- All values in the action are fine, a declared function as soon as it is declared. -/
def Action.Carries (quality : Quality) (store : Store) : Action → Prop
  | .bindParameter _ _ value => quality.fine store value
  | .declareVariable _ _ value _ => quality.fine store value
  | .declareFunction closure =>
    quality.fine (store.perform (.declareFunction closure)) (.function closure)
  | .update _ _ value => quality.fine store value
  | .callNative _ arguments => ∀ argument ∈ arguments, quality.fine store argument
  | .openScope _ | .print _ | .record _ => True

/-- All scopes that the action writes to are in the region, and so is what encloses a new scope. -/
def Action.Stays (region : ScopeId → Prop) (store : Store) : Action → Prop
  | .openScope enclosing => region enclosing ∧ enclosing < store.size
  | .bindParameter scope _ _ | .declareVariable scope _ _ _ | .update scope _ _ => region scope
  | .declareFunction closure => region closure.scope
  | .print _ | .record _ | .callNative _ _ => True

/-- Each of the actions carries fine values behind the ones before it, and stays in the region. -/
def Store.Carries (quality : Quality) : Store → List Action → Prop
  | _, [] => True
  | store, action :: actions =>
    action.Carries quality store ∧ action.Stays quality.region store ∧
      Carries quality (store.perform action) actions

theorem Store.carries_append {quality : Quality} {store : Store} {first later : List Action} :
    store.Carries quality (first ++ later) ↔
      store.Carries quality first ∧ (store.performAll first).Carries quality later := by
  induction first generalizing store with
  | nil => exact ⟨fun carries => ⟨trivial, carries⟩, And.right⟩
  | cons action first inductionHypothesis =>
    rw [List.cons_append, Carries, Carries, inductionHypothesis, performAll_cons, and_assoc,
      and_assoc]

/-! ### Bindings stay fine -/

namespace Binding

theorem mem_of_find? {name : String} {bindings : List Binding} {binding : Binding}
    (found : find? name bindings = some binding) : binding ∈ bindings := by
  induction bindings with
  | nil => exact nomatch found
  | cons first rest inductionHypothesis =>
    rw [find?] at found
    split at found
    · exact Option.some.inj found ▸ List.mem_cons_self
    · exact List.mem_cons_of_mem _ (inductionHypothesis found)

/-- What is bound after a definition was bound before or has the new value. -/
theorem mem_define {name : String} {value : Value} {constant : Bool} {bindings : List Binding}
    {binding : Binding} (member : binding ∈ define name value constant bindings) :
    binding ∈ bindings ∨ binding.value = value := by
  induction bindings with
  | nil => exact .inr (congrArg Binding.value (List.mem_singleton.mp member))
  | cons first rest inductionHypothesis =>
    rw [define] at member
    split at member
    · rcases List.mem_cons.mp member with rfl | old
      · exact .inr rfl
      · exact .inl (List.mem_cons_of_mem _ old)
    · rcases List.mem_cons.mp member with rfl | behind
      · exact .inl List.mem_cons_self
      · exact (inductionHypothesis behind).imp_left (List.mem_cons_of_mem _)

/-- What is bound after an update was bound before or has the new value. -/
theorem mem_update {name : String} {value : Value} {bindings : List Binding} {binding : Binding}
    (member : binding ∈ update name value bindings) :
    binding ∈ bindings ∨ binding.value = value := by
  induction bindings with
  | nil => exact absurd member List.not_mem_nil
  | cons first rest inductionHypothesis =>
    rw [update] at member
    split at member
    · rcases List.mem_cons.mp member with rfl | old
      · exact .inr rfl
      · exact .inl (List.mem_cons_of_mem _ old)
    · rcases List.mem_cons.mp member with rfl | behind
      · exact .inl List.mem_cons_self
      · exact (inductionHypothesis behind).imp_left (List.mem_cons_of_mem _)

end Binding

namespace Store

/-- The scopes of the region bind only values with the property, and are enclosed by older scopes of
the region. -/
structure Sealed (store : Store) (region : ScopeId → Prop) (fine : Value → Prop) : Prop where
  binds {id : ScopeId} {scope : Scope} {binding : Binding} :
    region id → store.scope? id = some scope → binding ∈ scope.bindings → fine binding.value
  enclosing {id : ScopeId} {scope : Scope} {parent : ScopeId} :
    region id → store.scope? id = some scope → scope.enclosing = some parent →
      region parent ∧ parent < id

variable {store : Store} {region : ScopeId → Prop} {fine : Value → Prop}

theorem Sealed.mono {better : Value → Prop} (sealed : store.Sealed region fine)
    (better_of_fine : ∀ value, fine value → better value) : store.Sealed region better where
  binds inside found member := better_of_fine _ (sealed.binds inside found member)
  enclosing := sealed.enclosing

theorem Sealed.modify (sealed : store.Sealed region fine)
    {change : List Binding → List Binding}
    (changed : ∀ bindings binding, binding ∈ change bindings →
      binding ∈ bindings ∨ fine binding.value) (id : ScopeId) :
    (store.modify id change).Sealed region fine := by
  have origin {other scope} (found : (store.modify id change).scope? other = some scope) :
      ∃ before, store.scope? other = some before ∧ scope.enclosing = before.enclosing ∧
        ∀ binding ∈ scope.bindings, binding ∈ before.bindings ∨ fine binding.value := by
    by_cases same : other = id
    · subst same
      rw [scope?_modify_self] at found
      obtain ⟨before, foundBefore, rfl⟩ := Option.map_eq_some_iff.mp found
      exact ⟨before, foundBefore, rfl, changed before.bindings⟩
    · rw [scope?_modify_of_ne store change same] at found
      exact ⟨scope, found, rfl, fun _ => Or.inl⟩
  constructor
  · intro other scope binding inside found member
    obtain ⟨before, foundBefore, _, bindings⟩ := origin found
    exact (bindings binding member).elim (sealed.binds inside foundBefore) fun holds => holds
  · intro other scope parent inside found enclosed
    obtain ⟨before, foundBefore, same, _⟩ := origin found
    exact sealed.enclosing inside foundBefore (same ▸ enclosed)

theorem Sealed.define (sealed : store.Sealed region fine) {value : Value} (valueFine : fine value)
    (id : ScopeId) (name : String) (constant : Bool) :
    (store.define id name value constant).Sealed region fine := by
  refine sealed.modify (fun bindings binding member => ?_) id
  exact (Binding.mem_define member).imp_right fun same => by rwa [same]

theorem Sealed.update (sealed : store.Sealed region fine) {value : Value} (valueFine : fine value)
    (id : ScopeId) (name : String) : (store.update id name value).Sealed region fine := by
  refine sealed.modify (fun bindings binding member => ?_) id
  exact (Binding.mem_update member).imp_right fun same => by rwa [same]

/-- A new scope is empty, and the others are as before. -/
theorem eq_or_scope?_of_push {enclosing : Option ScopeId} {id : ScopeId} {scope : Scope}
    (found : (store.push enclosing).scope? id = some scope) :
    id = store.size ∧ scope = ⟨enclosing, []⟩ ∨ store.scope? id = some scope := by
  rcases Nat.lt_trichotomy id store.size with older | rfl | newer
  · rw [scope?_push_of_lt store enclosing older] at found
    exact .inr found
  · rw [scope?_push_self] at found
    exact .inl ⟨rfl, (Option.some.inj found).symm⟩
  · have beyond : (store.push enclosing).scope? id = none :=
      Array.getElem?_eq_none (by rw [← size, size_push]; exact newer)
    rw [beyond] at found
    cases found

theorem Sealed.push (sealed : store.Sealed region fine) {enclosing : Option ScopeId}
    (inside : ∀ parent ∈ enclosing, region parent ∧ parent < store.size) :
    (store.push enclosing).Sealed region fine := by
  constructor
  · intro id scope binding insideScope found member
    rcases eq_or_scope?_of_push found with ⟨_, rfl⟩ | foundBefore
    · exact absurd member List.not_mem_nil
    · exact sealed.binds insideScope foundBefore member
  · intro id scope parent insideScope found enclosed
    rcases eq_or_scope?_of_push found with ⟨rfl, rfl⟩ | foundBefore
    · exact inside parent enclosed
    · exact sealed.enclosing insideScope foundBefore enclosed

/-- A name that is seen from the region is owned by a scope of the region. -/
theorem Sealed.owner? (sealed : store.Sealed region fine) {name : String} {id owner : ScopeId}
    (inside : region id) (owned : store.owner? name id = some owner) : region owner := by
  induction id using Nat.strongRecOn with
  | ind id inductionHypothesis =>
    rw [Store.owner?.eq_def] at owned
    split at owned
    · contradiction
    · next scope found =>
      split at owned
      · exact Option.some.inj owned ▸ inside
      · split at owned
        · contradiction
        · next parent enclosed =>
          have outer := sealed.enclosing inside found enclosed
          rw [if_pos outer.2] at owned
          exact inductionHypothesis parent outer.2 outer.1 owned

theorem Sealed.get? (sealed : store.Sealed region fine) {scope : ScopeId} (inside : region scope)
    {name : String} {value : Value} (found : store.get? scope name = some value) : fine value := by
  rw [Store.get?, binding?] at found
  obtain ⟨binding, bound, rfl⟩ := Option.map_eq_some_iff.mp found
  split at bound
  · cases bound
  · next owner owned =>
    obtain ⟨ownerScope, foundOwner, foundBinding⟩ := Option.bind_eq_some_iff.mp bound
    exact sealed.binds (sealed.owner? inside owned) foundOwner (Binding.mem_of_find? foundBinding)

/-- Behind an action that carries fine values, all bindings are fine again. -/
theorem Sealed.perform {quality : Quality} {store : Store} {action : Action}
    (sealed : store.Sealed quality.region (quality.fine store))
    (carries : action.Carries quality store) (stays : action.Stays quality.region store) :
    (store.perform action).Sealed quality.region (quality.fine (store.perform action)) := by
  have later := sealed.mono fun value valueFine => quality.perform valueFine action
  cases action with
  | openScope enclosing => exact later.push fun _ member => Option.some.inj member ▸ stays
  | bindParameter scope name value =>
    exact later.define (quality.perform carries (.bindParameter scope name value)) scope name false
  | declareVariable scope name value constant =>
    exact later.define (quality.perform carries (.declareVariable scope name value constant)) scope
      name constant
  | declareFunction closure => exact later.define carries closure.scope closure.name false
  | update owner name value =>
    exact later.update (quality.perform carries (.update owner name value)) owner name
  | print _ | record _ | callNative _ _ => exact later

end Store

/-! ### Courses that carry fine values -/

/-- Behind actions that carry fine values, values that were fine still are. -/
theorem Quality.performAll (quality : Quality) {store : Store} {value : Value}
    (valueFine : quality.fine store value) (actions : List Action) :
    quality.fine (store.performAll actions) value := by
  induction actions generalizing store with
  | nil => exact valueFine
  | cons action actions inductionHypothesis =>
    exact inductionHypothesis (quality.perform valueFine action)

/-- The machine has the scope in the region, fine values in all bindings there, and inputs that are
ready. -/
structure Quality.Holds (quality : Quality) (scope : ScopeId) (machine : Machine) : Prop where
  older : scope < machine.store.size
  inside : quality.region scope
  grown : quality.base ≤ machine.store.size
  sealed : machine.store.Sealed quality.region (quality.fine machine.store)
  inputsReady : quality.ready machine.inputs

theorem Quality.Holds.perform {quality : Quality} {scope : ScopeId} {machine : Machine}
    (holds : quality.Holds scope machine) {action : Action}
    (carries : action.Carries quality machine.store)
    (stays : action.Stays quality.region machine.store) :
    quality.Holds scope (machine.perform action) where
  older := Nat.lt_of_lt_of_le holds.older (machine.store.size_perform action)
  inside := holds.inside
  grown := Nat.le_trans holds.grown (machine.store.size_perform action)
  sealed := holds.sealed.perform carries stays
  inputsReady := by
    cases action with
    | callNative native arguments => exact quality.ready_call holds.inputsReady native arguments
    | openScope _ | bindParameter _ _ _ | declareVariable _ _ _ _ | declareFunction _
    | update _ _ _ | print _ | record _ => exact holds.inputsReady

/-- Another scope of the region takes the place of the first. -/
theorem Quality.Holds.move {quality : Quality} {scope other : ScopeId} {machine : Machine}
    (holds : quality.Holds scope machine) (older : other < machine.store.size)
    (inside : quality.region other) : quality.Holds other machine :=
  { holds with older, inside }

theorem Quality.Holds.performAll {quality : Quality} {scope : ScopeId} {machine : Machine}
    (holds : quality.Holds scope machine) {actions : List Action}
    (carries : machine.store.Carries quality actions) :
    quality.Holds scope (machine.performAll actions) := by
  induction actions generalizing machine with
  | nil => exact holds
  | cons action actions inductionHypothesis =>
    exact inductionHypothesis (holds.perform carries.1 carries.2.1) carries.2.2

/-- An exit with an answer that is as asked for, with a fine value on its way to a call, or with an
error that is allowed. -/
def Exit.Fine (quality : Quality) (store : Store) {α : Type} (answer : Store → α → Prop) :
    Exit α → Prop
  | .value result => answer store result
  | .returned result => quality.fine store result
  | .error reason => quality.allowed reason
  | .outOfFuel => True

namespace Course

variable {α β : Type} {quality : Quality} {scope : ScopeId} {machine : Machine}

/-- On this machine the actions of the course carry fine values, and its exit is fine. -/
def Flows (quality : Quality) (answer : Store → α → Prop) (course : Course α)
    (machine : Machine) : Prop :=
  machine.store.Carries quality (course machine).1 ∧
    (course machine).2.Fine quality (machine.performAll (course machine).1).store answer

theorem Flows.bind {first : Course α} {next : α → Course β} {between : Store → α → Prop}
    {answer : Store → β → Prop} (flows : first.Flows quality between machine)
    (holds : quality.Holds scope machine)
    (behind : ∀ value reached, quality.Holds scope reached →
      (∀ old, quality.fine machine.store old → quality.fine reached.store old) →
      between reached.store value → (next value).Flows quality answer reached) :
    Flows quality answer (first >>= next) machine := by
  obtain ⟨carries, exitFine⟩ := flows
  cases ends : first machine with
  | mk actions exit =>
    rw [ends] at carries exitFine
    cases exit with
    | value value =>
      have holdsBehind := holds.performAll carries
      obtain ⟨carriesLater, exitFineLater⟩ := behind value _ holdsBehind
        (fun old oldFine => by
          rw [Machine.store_performAll]
          exact quality.performAll oldFine actions) exitFine
      rw [Flows, bind_of_value ends]
      refine ⟨Store.carries_append.mpr ⟨carries, ?_⟩, ?_⟩
      · rwa [Machine.store_performAll] at carriesLater
      · rwa [Machine.performAll_append]
    | returned value =>
      rw [Flows, bind_of_returned ends]
      exact ⟨carries, exitFine⟩
    | error error =>
      rw [Flows, bind_of_error ends]
      exact ⟨carries, exitFine⟩
    | outOfFuel =>
      rw [Flows, bind_of_outOfFuel ends]
      exact ⟨carries, trivial⟩

/-! ### Single steps -/

theorem flows_pure {answer : Store → α → Prop} {value : α} (fine : answer machine.store value) :
    Flows quality answer (pure value) machine :=
  ⟨trivial, fine⟩

theorem flows_leave {answer : Store → α → Prop} {value : Value}
    (fine : quality.fine machine.store value) : Flows quality answer (leave value) machine :=
  ⟨trivial, fine⟩

theorem flows_fail {answer : Store → α → Prop} {fault : Fault} {line : Nat}
    (allowed : quality.allowed ⟨fault, line⟩) : Flows quality answer (fail fault line) machine :=
  ⟨trivial, allowed⟩

theorem flows_starve {answer : Store → α → Prop} : Flows quality answer starve machine :=
  ⟨trivial, trivial⟩

theorem flows_ofExcept {answer : Store → α → Prop} {result : Except Fault α} {line : Nat}
    (meets : Meets (answer machine.store) (fun fault => quality.allowed ⟨fault, line⟩) result) :
    Flows quality answer (ofExcept line result) machine := by
  cases result with
  | ok value => exact flows_pure meets
  | error fault => exact flows_fail meets

theorem flows_act {action : Action} (carries : action.Carries quality machine.store)
    (stays : action.Stays quality.region machine.store) :
    Flows quality (fun _ _ => True) (act action) machine :=
  ⟨⟨carries, stays, trivial⟩, trivial⟩

theorem flows_lookup (holds : quality.Holds scope machine) {name : Token}
    (named : quality.parts.name name) :
    Flows quality quality.fine (lookup scope name) machine := by
  rw [Flows, lookup_apply]
  cases found : machine.store.get? scope name.lexeme with
  | none => exact ⟨trivial, quality.undefined named⟩
  | some value => exact ⟨trivial, holds.sealed.get? holds.inside found⟩

theorem flows_assign (holds : quality.Holds scope machine) {name : Token}
    (named : quality.parts.name name) {value : Value} (fine : quality.fine machine.store value) :
    Flows quality (fun _ _ => True) (assign scope name value) machine := by
  rw [Flows, assign_apply]
  cases owned : machine.store.owner? name.lexeme scope with
  | none => exact ⟨trivial, quality.undefined named⟩
  | some owner => exact ⟨⟨fine, holds.sealed.owner? holds.inside owned, trivial⟩, trivial⟩

theorem flows_rejectConstant {name : Token} (named : quality.parts.name name) :
    Flows quality (fun _ _ => True) (rejectConstant scope name) machine := by
  rw [Flows, rejectConstant_apply]
  split
  · exact ⟨trivial, quality.constant named⟩
  · exact ⟨trivial, trivial⟩

theorem flows_rejectDeclared {name : Token} (named : quality.parts.name name) :
    Flows quality (fun _ _ => True) (rejectDeclared scope name) machine := by
  rw [Flows, rejectDeclared_apply]
  split
  · exact ⟨trivial, quality.declared named⟩
  · exact ⟨trivial, trivial⟩

theorem flows_callNative (holds : quality.Holds scope machine) {native : Native}
    {arguments : List Value} (fine : ∀ argument ∈ arguments, quality.fine machine.store argument)
    (counted : arguments.length = native.arity) {paren : Token}
    (closing : quality.parts.closing paren) :
    Flows quality quality.fine (callNative native arguments paren.line) machine := by
  have meets := quality.native closing holds.inputsReady fine counted
  rw [Flows, callNative_apply]
  refine ⟨⟨fine, trivial, trivial⟩, ?_⟩
  cases answer : (native.call arguments machine.inputs).1 with
  | ok value =>
    rw [answer] at meets
    exact quality.perform meets (.callNative native arguments)
  | error fault =>
    rw [answer] at meets
    exact meets

/-! ### Lists and calls -/

theorem flows_each {course : α → Course Value} (holds : quality.Holds scope machine)
    {items : List α}
    (flows : ∀ item ∈ items, ∀ machine, quality.Holds scope machine →
      (course item).Flows quality quality.fine machine) :
    Flows quality (fun store values => ∀ value ∈ values, quality.fine store value)
      (each course items) machine := by
  induction items generalizing machine with
  | nil => exact flows_pure fun value member => absurd member List.not_mem_nil
  | cons first rest inductionHypothesis =>
    refine (flows first List.mem_cons_self machine holds).bind holds
      fun value _ holdsBehind _ valueFine => ?_
    refine (inductionHypothesis holdsBehind fun item member =>
      flows item (List.mem_cons_of_mem _ member)).bind holdsBehind
        fun values _ _ keeps valuesFine => flows_pure fun other member => ?_
    rcases List.mem_cons.mp member with rfl | behind
    · exact keeps other valueFine
    · exact valuesFine other behind

theorem flows_inOrder {course : α → Course Unit} (holds : quality.Holds scope machine)
    {items : List α}
    (flows : ∀ item ∈ items, ∀ machine, quality.Holds scope machine →
      (course item).Flows quality (fun _ _ => True) machine) :
    Flows quality (fun _ _ => True) (inOrder course items) machine := by
  induction items generalizing machine with
  | nil => exact flows_pure trivial
  | cons first rest inductionHypothesis =>
    refine (flows first List.mem_cons_self machine holds).bind holds
      fun _ _ holdsBehind _ _ => ?_
    exact inductionHypothesis holdsBehind fun item member =>
      flows item (List.mem_cons_of_mem _ member)

theorem flows_bindParameters (holds : quality.Holds scope machine)
    {bindings : List (String × Value)}
    (fine : ∀ binding ∈ bindings, quality.fine machine.store binding.2) :
    Flows quality (fun _ _ => True) (bindParameters scope bindings) machine := by
  induction bindings generalizing machine with
  | nil => exact flows_pure trivial
  | cons first rest inductionHypothesis =>
    refine Flows.bind (flows_act (fine first List.mem_cons_self) holds.inside) holds
      fun _ _ holdsBehind keeps _ => ?_
    exact inductionHypothesis holdsBehind fun binding member =>
      keeps _ (fine binding (List.mem_cons_of_mem _ member))

/-- What a call catches is fine, and so is nil. -/
theorem flows_catchReturn {body : Course Unit}
    (flows : body.Flows quality (fun _ _ => True) machine) :
    Flows quality quality.fine (catchReturn body) machine := by
  obtain ⟨carries, exitFine⟩ := flows
  rw [Flows, catchReturn]
  generalize body machine = part at carries exitFine
  obtain ⟨actions, exit⟩ := part
  cases exit with
  | value _ => exact ⟨carries, quality.nil _⟩
  | returned value => exact ⟨carries, exitFine⟩
  | error error => exact ⟨carries, exitFine⟩
  | outOfFuel => exact ⟨carries, trivial⟩

theorem flows_openScope {next : ScopeId → Course α} {answer : Store → α → Prop}
    (holds : quality.Holds scope machine)
    (behind : ∀ inner reached, quality.Holds inner reached →
      (∀ old, quality.fine machine.store old → quality.fine reached.store old) →
      (next inner).Flows quality answer reached) :
    Flows quality answer (openScope scope >>= next) machine := by
  have stays : Action.Stays quality.region machine.store (.openScope scope) :=
    ⟨holds.inside, holds.older⟩
  have opened : machine.store.size < (machine.perform (.openScope scope)).store.size :=
    Nat.lt_of_lt_of_eq (Nat.lt_succ_self _) (Store.size_push _ _).symm
  have carries : Action.Carries quality machine.store (.openScope scope) := trivial
  have behindOpening := holds.perform carries stays
  have inside := behindOpening.move opened (quality.region_of_base_le holds.grown)
  have flows := behind _ _ inside fun old oldFine => quality.perform oldFine (.openScope scope)
  exact ⟨⟨trivial, stays, flows.1⟩, flows.2⟩

/-- In every machine with fine values the body of a function carries fine values. -/
def BodyFlows (quality : Quality) (body : ScopeId → List Stmt → Course Unit) : Prop :=
  ∀ inner statements machine, (∀ statement ∈ statements, statement.Built quality.parts) →
    quality.Holds inner machine → (body inner statements).Flows quality (fun _ _ => True) machine

theorem flows_invoke {body : ScopeId → List Stmt → Course Unit} (flows : BodyFlows quality body)
    (holds : quality.Holds scope machine) {callee : Value} {callable : Callable}
    (calls : callee.callable? = some callable) (calleeFine : quality.fine machine.store callee)
    {arguments : List Value}
    (argumentsFine : ∀ argument ∈ arguments, quality.fine machine.store argument)
    (counted : arguments.length = callable.arity) {paren : Token}
    (closing : quality.parts.closing paren) :
    Flows quality quality.fine (invoke body callable arguments paren.line) machine := by
  cases callee with
  | native native =>
    cases calls
    exact flows_callNative holds argumentsFine counted closing
  | function closure =>
    cases calls
    obtain ⟨inside, older, built⟩ := quality.function calleeFine
    refine flows_openScope (holds.move older inside) fun inner reached insideBody keeps => ?_
    refine Flows.bind (flows_bindParameters insideBody fun binding member => ?_) insideBody
      fun _ reached insideBehind _ _ => ?_
    · exact keeps _ (argumentsFine _ (List.of_mem_zip member).2)
    · exact flows_catchReturn (flows inner closure.body reached built insideBehind)
  | nil | boolean _ | int _ | float _ | string _ => exact nomatch calls

theorem flows_callValue {body : ScopeId → List Stmt → Course Unit}
    (flows : BodyFlows quality body) (holds : quality.Holds scope machine) {callee : Value}
    (calleeFine : quality.fine machine.store callee) {arguments : List Value}
    (argumentsFine : ∀ argument ∈ arguments, quality.fine machine.store argument) {paren : Token}
    (closing : quality.parts.closing paren) :
    Flows quality quality.fine (callValue body callee arguments paren.line) machine := by
  rw [callValue]
  cases calls : callee.callable? with
  | none => exact flows_fail (quality.notCallable closing)
  | some callable =>
    show Flows quality quality.fine (if _ then _ else _) machine
    split
    · next counted =>
      refine Flows.bind (flows_act trivial trivial) holds fun _ reached holdsBehind keeps _ => ?_
      exact flows_invoke flows holdsBehind calls (keeps _ calleeFine)
        (fun argument member => keeps _ (argumentsFine argument member)) counted closing
    · next miscounted => exact flows_fail (quality.argumentCount closing miscounted)

/-! ### Expressions and statements -/

section

variable {fuel : Nat}
  (evaluates : ∀ scope expression machine, expression.Built quality.parts →
    quality.Holds scope machine →
    (evaluate fuel scope expression).Flows quality quality.fine machine)
  (executes : ∀ scope statement machine, statement.Built quality.parts →
    quality.Holds scope machine →
    (execute fuel scope statement).Flows quality (fun _ _ => True) machine)

include evaluates executes

theorem flows_evaluate_succ {expression : Expr} (built : expression.Built quality.parts)
    (holds : quality.Holds scope machine) :
    (evaluate (fuel + 1) scope expression).Flows quality quality.fine machine := by
  cases built with
  | literal plain => exact flows_pure (quality.literal plain)
  | grouping built => exact evaluates scope _ machine built holds
  | «variable» named => exact flows_lookup holds named
  | assign named built =>
    refine Flows.bind (flows_rejectConstant named) holds fun _ _ holdsTested _ _ => ?_
    refine (evaluates scope _ _ built holdsTested).bind holdsTested
      fun value _ holdsBehind _ valueFine => ?_
    refine Flows.bind (flows_assign holdsBehind named valueFine) holdsBehind
      fun _ _ _ keeps _ => ?_
    exact flows_pure (keeps value valueFine)
  | unary sign built =>
    refine (evaluates scope _ machine built holds).bind holds fun operand _ _ _ operandFine => ?_
    exact flows_ofExcept (quality.unary sign operandFine)
  | binary builtLeft binary builtRight =>
    refine (evaluates scope _ machine builtLeft holds).bind holds
      fun left _ holdsLeft _ leftFine => ?_
    refine (evaluates scope _ _ builtRight holdsLeft).bind holdsLeft
      fun right _ _ keeps rightFine => ?_
    exact flows_ofExcept (quality.binary binary (keeps left leftFine) rightFine)
  | logical builtLeft _ builtRight =>
    refine (evaluates scope _ machine builtLeft holds).bind holds
      fun left reached holdsLeft _ leftFine => ?_
    show Flows quality quality.fine (if _ then _ else _) reached
    split
    · exact flows_pure leftFine
    · exact evaluates scope _ reached builtRight holdsLeft
  | call builtCallee closing builtArguments =>
    refine (evaluates scope _ machine builtCallee holds).bind holds
      fun callee _ holdsCallee _ calleeFine => ?_
    refine (flows_each holdsCallee fun argument member machine holds =>
      evaluates scope argument machine (builtArguments argument member) holds).bind holdsCallee
        fun arguments _ holdsArguments keeps argumentsFine => ?_
    refine flows_callValue (fun inner statements machine built inside => ?_) holdsArguments
      (keeps callee calleeFine) argumentsFine closing
    exact flows_inOrder inside fun statement member machine inside =>
      executes inner statement machine (built statement member) inside

theorem flows_execute_succ {statement : Stmt} (built : statement.Built quality.parts)
    (holds : quality.Holds scope machine) :
    (execute (fuel + 1) scope statement).Flows quality (fun _ _ => True) machine := by
  cases built with
  | expression built =>
    exact (evaluates scope _ machine built holds).bind holds fun _ _ _ _ _ => flows_pure trivial
  | print built =>
    exact (evaluates scope _ machine built holds).bind holds fun _ _ _ _ _ => flows_act trivial trivial
  | @var constant name initializer named built =>
    refine Flows.bind (flows_rejectDeclared named) holds fun _ tested holdsTested _ _ => ?_
    have declares : ∀ value reached, quality.Holds scope reached →
        quality.fine reached.store value →
        Flows quality (fun _ _ => True)
          (act (.declareVariable scope name.lexeme value constant) >>= fun _ =>
            act (.record (.declared constant name.lexeme value))) reached :=
      fun value reached holdsReached valueFine =>
        Flows.bind (flows_act valueFine holdsReached.inside) holdsReached
          fun _ _ _ _ _ => flows_act trivial trivial
    cases initializer with
    | none => exact declares .nil tested holdsTested (quality.nil _)
    | some initializer =>
      refine (evaluates scope _ tested (built initializer rfl) holdsTested).bind holdsTested ?_
      exact fun value reached holdsReached _ valueFine =>
        declares value reached holdsReached valueFine
  | block built =>
    refine flows_openScope holds fun inner reached inside _ => ?_
    exact flows_inOrder inside fun statement member machine inside =>
      executes inner statement machine (built statement member) inside
  | ifThen builtCondition builtConsequent =>
    refine (evaluates scope _ machine builtCondition holds).bind holds
      fun condition _ holdsCondition _ _ => ?_
    refine Flows.bind (flows_act trivial trivial) holdsCondition fun _ reached holdsBehind _ _ => ?_
    show Flows quality (fun _ _ => True) (if _ then _ else _) reached
    split
    · exact executes scope _ reached builtConsequent holdsBehind
    · exact flows_pure trivial
  | ifElse builtCondition builtConsequent builtAlternative =>
    refine (evaluates scope _ machine builtCondition holds).bind holds
      fun condition _ holdsCondition _ _ => ?_
    refine Flows.bind (flows_act trivial trivial) holdsCondition fun _ reached holdsBehind _ _ => ?_
    show Flows quality (fun _ _ => True) (if _ then _ else _) reached
    split
    · exact executes scope _ reached builtConsequent holdsBehind
    · exact executes scope _ reached builtAlternative holdsBehind
  | «while» builtCondition builtBody =>
    refine (evaluates scope _ machine builtCondition holds).bind holds
      fun condition reached holdsCondition _ _ => ?_
    show Flows quality (fun _ _ => True) (if _ then _ else _) reached
    split
    · refine (executes scope _ reached builtBody holdsCondition).bind holdsCondition
        fun _ behind holdsBehind _ _ => ?_
      exact executes scope _ behind (.while builtCondition builtBody) holdsBehind
    · exact flows_pure trivial
  | function named _ built =>
    refine Flows.bind (flows_act ?_ holds.inside) holds fun _ _ _ _ _ => flows_act trivial trivial
    exact quality.declare named holds.inside holds.older built
  | @«return» keyword value built =>
    cases value with
    | none => exact flows_leave (quality.nil _)
    | some value =>
      refine (evaluates scope _ machine (built value rfl) holds).bind holds ?_
      exact fun result _ _ _ resultFine => flows_leave resultFine

end

theorem flows_evaluate_execute (fuel : Nat) :
    (∀ scope expression machine, expression.Built quality.parts → quality.Holds scope machine →
      (evaluate fuel scope expression).Flows quality quality.fine machine) ∧
    ∀ scope statement machine, statement.Built quality.parts → quality.Holds scope machine →
      (execute fuel scope statement).Flows quality (fun _ _ => True) machine := by
  induction fuel with
  | zero =>
    refine ⟨fun _ _ _ _ _ => ?_, fun _ _ _ _ _ => ?_⟩
    · rw [evaluate]
      exact flows_starve
    · rw [execute]
      exact flows_starve
  | succ fuel inductionHypothesis =>
    obtain ⟨evaluates, executes⟩ := inductionHypothesis
    exact ⟨fun _ _ _ built holds => flows_evaluate_succ evaluates executes built holds,
      fun _ _ _ built holds => flows_execute_succ evaluates executes built holds⟩

/-- The actions of a session carry fine values if its programs are made of the right parts. -/
theorem carries_runSources (fuel : Nat) {sources : List String}
    (built : ∀ source ∈ sources, (Program.ofStream (Lexer.scan source).stream).clean = true →
      ∀ statement ∈ (Program.ofStream (Lexer.scan source).stream).statements,
        statement.Built quality.parts)
    (holds : quality.Holds globalScope machine) :
    machine.store.Carries quality (runSources fuel sources machine) := by
  refine @runSources_induction fuel sources
    (fun machine actions => quality.Holds globalScope machine →
      machine.store.Carries quality actions)
    (fun _ _ => trivial) (fun machine first later firstCarries laterCarries holds => ?_)
    (fun _ _ _ => ⟨trivial, trivial, trivial⟩) (fun _ _ _ => ⟨trivial, trivial, trivial⟩)
    (fun source member _ parses machine holds => ?_) machine holds
  · refine Store.carries_append.mpr ⟨firstCarries holds, ?_⟩
    rw [← Machine.store_performAll]
    exact laterCarries (holds.performAll (firstCarries holds))
  · exact (flows_inOrder holds fun statement inside machine holds =>
      (flows_evaluate_execute fuel).2 globalScope statement machine
        (built source member parses statement inside) holds).1

end Course

/-! ### New machines -/

/-- What holds of natives holds of all values on a new machine. -/
theorem Machine.sealed_initialStore {fine : Value → Prop} (region : ScopeId → Prop)
    (native : ∀ native, fine (.native native)) : initialStore.Sealed region fine := by
  have defines : ∀ (natives : List Native) (store : Store), store.Sealed region fine →
      (natives.foldl (fun store native =>
        store.define globalScope native.name (.native native) false) store).Sealed region fine := by
    intro natives
    induction natives with
    | nil => exact fun _ sealed => sealed
    | cons first rest inductionHypothesis =>
      exact fun store sealed =>
        inductionHypothesis _ (sealed.define (native first) globalScope first.name false)
  have absent (id : ScopeId) : Store.empty.scope? id = none :=
    Array.getElem?_eq_none (Nat.zero_le id)
  have empty : Store.empty.Sealed region fine := by
    constructor
    · intro id scope binding _ found _
      exact nomatch (absent id).symm.trans found
    · intro id scope parent _ found _
      exact nomatch (absent id).symm.trans found
  exact defines Native.all _ (empty.push fun _ member => absurd member (Option.not_mem_none _))

/-- A new machine has the global scope. -/
theorem Machine.globalScope_lt_size (inputs : Inputs) (debugLevel : Nat) :
    globalScope < (Machine.start inputs debugLevel).store.size := by
  show 0 < initialStore.size
  decide

/-- A new machine has fine values if natives are fine. -/
theorem Quality.holds_start {quality : Quality} {inputs : Inputs} (debugLevel : Nat)
    (inside : quality.region globalScope) (base : quality.base = 0)
    (native : ∀ native, quality.fine Machine.initialStore (.native native))
    (inputsReady : quality.ready inputs) :
    quality.Holds globalScope (Machine.start inputs debugLevel) where
  older := Machine.globalScope_lt_size inputs debugLevel
  inside := inside
  grown := base ▸ Nat.zero_le _
  sealed := Machine.sealed_initialStore _ native
  inputsReady := inputsReady

end Lox
