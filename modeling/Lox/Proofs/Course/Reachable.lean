/-
This file says which machines sessions go through, and proves what is common to
all of them: functions know scopes that exist, and a scope is enclosed by an
older one.
-/

import Lox.Proofs.Scopes.Anchors

namespace Lox

/-- The machines that sessions go through: new ones, and those behind some of the actions of a
source that is run on another. The trace may be closed in between. -/
inductive Machine.Reachable : Machine → Prop
  | start (inputs : Inputs) (debugLevel : Nat) : Reachable (start inputs debugLevel)
  | close {machine : Machine} : Reachable machine → Reachable machine.close
  | run {machine : Machine} {fuel : Nat} {source : String} {before after : List Action} :
    Reachable machine → (Course.runSource fuel source machine).1 = before ++ after →
    Reachable (machine.performAll before)

namespace Machine.Reachable

variable {machine : Machine}

/-- On all machines of sessions functions are anchored. -/
theorem anchored (reachable : machine.Reachable) :
    Quality.anchored.Holds globalScope machine := by
  induction reachable with
  | start inputs debugLevel => exact Quality.anchored_start inputs debugLevel
  | close _ holds => exact { holds with sealed := holds.sealed }
  | @run machine fuel source before after _ runs holds =>
    have carries : machine.store.Carries .anchored (Course.runSources fuel [source] machine) :=
      Course.carries_runSources fuel (fun _ _ _ statement _ => statement.built_any) holds
    rw [Course.runSources, runs, List.append_assoc] at carries
    exact holds.performAll (Store.carries_append.mp carries).1

/-- A scope is enclosed by an older one. -/
theorem enclosing_lt (reachable : machine.Reachable) {id parent : ScopeId} {scope : Scope}
    (found : machine.store.scope? id = some scope) (enclosed : scope.enclosing = some parent) :
    parent < id :=
  (reachable.anchored.sealed.enclosing trivial found enclosed).2

/-- The scope of a function that is bound somewhere exists. -/
theorem closure_lt_size (reachable : machine.Reachable) {id : ScopeId} {scope : Scope}
    {binding : Binding} {closure : Closure} (found : machine.store.scope? id = some scope)
    (member : binding ∈ scope.bindings) (isFunction : binding.value = .function closure) :
    closure.scope < machine.store.size := by
  have anchored := reachable.anchored.sealed.binds trivial found member
  rw [isFunction] at anchored
  exact Value.Anchored.lt_size anchored

end Machine.Reachable

end Lox
