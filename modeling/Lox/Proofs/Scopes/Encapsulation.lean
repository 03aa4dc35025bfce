/-
This file proves that programs touch only what they can reach. A scope reaches
the scopes around it, and the scopes that the functions bound in reached scopes
were declared in.

What runs in a scope leaves all old scopes alone that the scope does not reach.
Behind it the functions in reached and in new scopes, and a function that it
returns, were declared in scopes that were reached before or are new: no run
gets hold of a scope that was out of its reach.
-/

import Lox.Proofs.Course.Reachable

namespace Lox

/-! ### Reach -/

/-- The scopes that can be reached from a scope along enclosing scopes and along the functions that
are bound on the way. -/
inductive Store.Reaches (store : Store) (origin : ScopeId) : ScopeId → Prop
  | self : Reaches store origin origin
  | enclosing {id parent : ScopeId} {scope : Scope} :
    Reaches store origin id → store.scope? id = some scope → scope.enclosing = some parent →
    Reaches store origin parent
  | function {id : ScopeId} {scope : Scope} {binding : Binding} {closure : Closure} :
    Reaches store origin id → store.scope? id = some scope → binding ∈ scope.bindings →
    binding.value = .function closure → Reaches store origin closure.scope

/-- The scope could be reached before, or there was no such scope yet. -/
def Store.Allows (before : Store) (origin id : ScopeId) : Prop :=
  before.Reaches origin id ∨ before.size ≤ id

/-- The value is no function, or one that was declared in an allowed scope that exists. -/
def Value.Confined (before : Store) (origin : ScopeId) (store : Store) (value : Value) : Prop :=
  ∀ closure, value = .function closure →
    before.Allows origin closure.scope ∧ closure.scope < store.size

theorem Value.NoFunction.confined {value : Value} (noFunction : value.NoFunction)
    (before : Store) (origin : ScopeId) (store : Store) : value.Confined before origin store :=
  fun closure same => absurd same (noFunction closure)

/-- The old scopes out of reach are as they were, and nothing leads out of the allowed scopes: they
are enclosed by allowed scopes, and the functions bound there are confined. -/
structure Store.Shields (before : Store) (origin : ScopeId) (after : Store) : Prop where
  kept (id : ScopeId) (older : id < before.size) (apart : ¬ before.Reaches origin id) :
    after.scope? id = before.scope? id
  enclosed (id parent : ScopeId) (scope : Scope) (allowed : before.Allows origin id)
    (found : after.scope? id = some scope) (enclosing : scope.enclosing = some parent) :
    before.Allows origin parent
  confined (id : ScopeId) (scope : Scope) (binding : Binding) (allowed : before.Allows origin id)
    (found : after.scope? id = some scope) (member : binding ∈ scope.bindings) :
    binding.value.Confined before origin after

/-! ### Confined values -/

/-- To be confined is handed on by all that programs do. -/
def Quality.confined (before : Store) (origin : ScopeId) : Quality where
  parts := .any
  ready _ := True
  region := before.Allows origin
  base := before.size
  fine store value := value.Confined before origin store
  allowed _ := True
  region_of_base_le := Or.inr
  nil store := (Literal.noFunction_value .nil).confined before origin store
  literal _ := (Literal.noFunction_value _).confined before origin _
  unary _ _ :=
    meets_of_ok fun _ computes => (Operator.noFunction_unary computes).confined before origin _
  binary _ _ _ :=
    meets_of_ok fun _ computes => (Operator.noFunction_binary computes).confined before origin _
  native _ _ _ _ :=
    meets_of_ok fun _ computes => (Native.noFunction_call computes).confined before origin _
  ready_call _ _ _ := trivial
  perform confined action closure same :=
    (confined closure same).imp_right fun older =>
      Nat.lt_of_lt_of_le older (Store.size_perform _ action)
  declare _ inside older _ closure same := by
    cases same
    exact ⟨inside, Nat.lt_of_lt_of_le older (Store.size_perform _ _)⟩
  function confined :=
    ⟨(confined _ rfl).1, (confined _ rfl).2, fun statement _ => statement.built_any⟩
  undefined _ := trivial
  constant _ := trivial
  declared _ := trivial
  notCallable _ := trivial
  argumentCount _ _ := trivial

variable {machine : Machine} {scope : ScopeId}

/-- Before a run everything that its scope reaches is confined. -/
theorem Machine.Reachable.confined (reachable : machine.Reachable)
    (older : scope < machine.store.size) :
    (Quality.confined machine.store scope).Holds scope machine where
  older := older
  inside := .inl .self
  grown := Nat.le_refl _
  inputsReady := trivial
  sealed := by
    constructor
    · intro id found binding allowed foundScope member closure same
      have inside := reachable.closure_lt_size foundScope member same
      rcases allowed with reaches | newer
      · exact ⟨.inl (reaches.function foundScope member same), inside⟩
      · exact absurd (Store.lt_size_of_scope? foundScope) (Nat.not_lt_of_le newer)
    · intro id found parent allowed foundScope enclosed
      have outer := reachable.enclosing_lt foundScope enclosed
      rcases allowed with reaches | newer
      · exact ⟨.inl (reaches.enclosing foundScope enclosed), outer⟩
      · exact absurd (Store.lt_size_of_scope? foundScope) (Nat.not_lt_of_le newer)

namespace Store

/-- An action in a region leaves the old scopes outside alone. -/
theorem scope?_perform_of_stays {store : Store} {region : ScopeId → Prop} {action : Action}
    (stays : action.Stays region store) {id : ScopeId} (older : id < store.size)
    (outside : ¬ region id) : (store.perform action).scope? id = store.scope? id := by
  have apart {written : ScopeId} (inside : region written) : id ≠ written := by
    rintro rfl
    exact outside inside
  cases action with
  | openScope enclosing => exact scope?_push_of_lt store _ older
  | bindParameter written _ _ | declareVariable written _ _ _ | update written _ _ =>
    exact scope?_modify_of_ne store _ (apart stays)
  | declareFunction closure => exact scope?_modify_of_ne store _ (apart stays)
  | print _ | record _ | callNative _ _ => rfl

theorem scope?_performAll_of_carries {store : Store} {quality : Quality} {actions : List Action}
    (carries : store.Carries quality actions) {id : ScopeId} (older : id < store.size)
    (outside : ¬ quality.region id) : (store.performAll actions).scope? id = store.scope? id := by
  induction actions generalizing store with
  | nil => rfl
  | cons action actions inductionHypothesis =>
    obtain ⟨_, stays, carriesLater⟩ := carries
    have olderBehind := Nat.lt_of_lt_of_le older (store.size_perform action)
    rw [performAll_cons, inductionHypothesis carriesLater olderBehind,
      scope?_perform_of_stays stays older outside]

/-- What is reached behind a run was in reach before or is new. -/
theorem Shields.allows_of_reaches {before after : Store} {origin : ScopeId}
    (shields : before.Shields origin after) {id : ScopeId} (reaches : after.Reaches origin id) :
    before.Allows origin id := by
  induction reaches with
  | self => exact .inl .self
  | enclosing _ found parent allowed => exact shields.enclosed _ _ _ allowed found parent
  | function _ found member same allowed =>
    exact (shields.confined _ _ _ allowed found member _ same).1

end Store

/-! ### Runs -/

/-- A course shields what its scope does not reach, and a value that it returns is confined. -/
theorem Course.Flows.shields {α : Type} {course : Course α}
    {answer : Store → α → Prop} (holds : (Quality.confined machine.store scope).Holds scope machine)
    (flows : course.Flows (.confined machine.store scope) answer machine) :
    machine.store.Shields scope (machine.performAll (course machine).1).store where
  kept id older apart := by
    rw [Machine.store_performAll]
    refine Store.scope?_performAll_of_carries flows.1 older fun allowed => ?_
    exact allowed.elim apart fun newer => Nat.not_lt_of_le newer older
  enclosed id parent found allowed foundScope enclosing :=
    ((holds.performAll flows.1).sealed.enclosing allowed foundScope enclosing).1
  confined id found binding allowed foundScope member :=
    (holds.performAll flows.1).sealed.binds allowed foundScope member

/-- A statement touches no old scope that is out of reach of its scope. Behind it the functions in
reached and in new scopes, and a returned function, were declared in scopes that were reached before
or are new, and so nothing else comes into reach. -/
theorem execute_shields (reachable : machine.Reachable) (older : scope < machine.store.size)
    (fuel : Nat) (statement : Stmt) :
    let before := machine.store
    let run := execute fuel scope statement machine
    before.Shields scope run.2.store ∧
      (∀ value, run.1 = .value (.returned value) → value.Confined before scope run.2.store) ∧
      ∀ id, run.2.store.Reaches scope id → before.Allows scope id := by
  intro before run
  have holds := reachable.confined older
  have flows := (Course.flows_evaluate_execute fuel).2 scope statement machine
    statement.built_any holds
  obtain ⟨ends, reaches⟩ := Follows.execute fuel scope statement machine
  have exitFine := flows.2
  rw [reaches, ends] at exitFine
  have shields := flows.shields holds
  rw [reaches] at shields
  refine ⟨shields, fun value returns => ?_, fun _ => shields.allows_of_reaches⟩
  change Exit.Fine _ run.2.store _ (run.1.exit Completion.exit) at exitFine
  rw [returns] at exitFine
  exact exitFine

/-- The block `{ fun f() {} return f; }` returns a function of its own new scope. -/
theorem execute_shields_block :
    let machine := Machine.start (.start "" fun _ => 0) 0
    let name : Token := ⟨.identifier, "f", 1⟩
    let body : List Stmt :=
      [.function name [] [], .return ⟨.return, "return", 1⟩ (some (.variable name))]
    let run := execute 4 globalScope (.block body) machine
    run.1 = .value (.returned (.function ⟨"f", [], [], 1⟩)) ∧
      machine.store.Shields globalScope run.2.store ∧ machine.store.Allows globalScope 1 := by
  intro machine name body run
  have returns : run.1 = .value (.returned (.function ⟨"f", [], [], 1⟩)) := by
    with_unfolding_all rfl
  obtain ⟨shields, confined, _⟩ := execute_shields (.start (.start "" fun _ => 0) 0)
    (Machine.globalScope_lt_size _ _) 4 (.block body)
  exact ⟨returns, shields, (confined _ returns _ rfl).1⟩

end Lox
