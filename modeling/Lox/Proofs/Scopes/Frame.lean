/-
This file says what it means that scopes keep what was declared in them: their
names, which of these are constant, the values of the constants, and their
enclosing scopes. Only the values of variables may change.

Scopes that keep this much also keep the answers to the questions that a
program asks before it evaluates an expression: which scope owns a name, and
whether the name is a constant there.
-/

import Lox.Store

namespace Lox

/-! ### Bindings -/

namespace Binding

/-- After a definition the name has the new value, and every other name what it had before. -/
theorem find?_define (name other : String) (value : Value) (constant : Bool)
    (bindings : List Binding) :
    find? other (define name value constant bindings) =
      if name = other then
        some ⟨name, value, (find? name bindings).any Binding.constant || constant⟩
      else find? other bindings := by
  induction bindings with
  | nil => simp [define, find?]
  | cons binding rest inductionHypothesis =>
    by_cases same : binding.name = name
    · simp only [define, find?, same, if_true]
      split <;> simp_all
    · simp only [define, find?, same, if_false, inductionHypothesis]
      split
      · next found => rw [if_neg fun equal => same (found.trans equal.symm)]
      · rfl

/-- After an update a bound name has the new value, and every other name what it had before. -/
theorem find?_update (name other : String) (value : Value) (bindings : List Binding) :
    find? other (update name value bindings) =
      if name = other then (find? name bindings).map ({ · with value })
      else find? other bindings := by
  induction bindings with
  | nil => simp [update, find?]
  | cons binding rest inductionHypothesis =>
    by_cases same : binding.name = name
    · simp only [update, find?, same, if_true]
      split <;> simp_all
    · simp only [update, find?, same, if_false, inductionHypothesis]
      split
      · next found => rw [if_neg fun equal => same (found.trans equal.symm)]
      · rfl

theorem map_name_update (name : String) (value : Value) (bindings : List Binding) :
    (update name value bindings).map Binding.name = bindings.map Binding.name := by
  induction bindings with
  | nil => rfl
  | cons binding rest inductionHypothesis =>
    rw [update]
    split
    · rfl
    · rw [List.map_cons, List.map_cons, inductionHypothesis]

theorem constants_update (name : String) (value : Value) (bindings : List Binding) :
    ((update name value bindings).filter Binding.constant).map Binding.name =
      (bindings.filter Binding.constant).map Binding.name := by
  induction bindings with
  | nil => rfl
  | cons binding rest inductionHypothesis =>
    rw [update]
    split
    · cases constant : binding.constant <;> simp [constant]
    · cases constant : binding.constant <;> simp [constant, inductionHypothesis]

end Binding

/-! ### Scopes that keep their declarations -/

/-- What was declared in a scope is still there, and nothing else is. -/
structure Scope.Keeps (before after : Scope) : Prop where
  enclosing : after.enclosing = before.enclosing
  names : after.names = before.names
  constants : after.constants = before.constants
  constancy : ∀ name, (after.find? name).map Binding.constant =
    (before.find? name).map Binding.constant
  values : ∀ name binding, before.find? name = some binding → binding.constant = true →
    after.find? name = some binding

namespace Scope

theorem Keeps.refl (scope : Scope) : scope.Keeps scope where
  enclosing := rfl
  names := rfl
  constants := rfl
  constancy _ := rfl
  values _ _ found _ := found

theorem Keeps.trans {before between after : Scope} (first : before.Keeps between)
    (second : between.Keeps after) : before.Keeps after where
  enclosing := second.enclosing.trans first.enclosing
  names := second.names.trans first.names
  constants := second.constants.trans first.constants
  constancy name := (second.constancy name).trans (first.constancy name)
  values name binding found constant :=
    second.values name binding (first.values name binding found constant) constant

theorem Keeps.binds {before after : Scope} (keeps : before.Keeps after) (name : String) :
    after.binds name = before.binds name := by
  have same := congrArg Option.isSome (keeps.constancy name)
  rwa [Option.isSome_map, Option.isSome_map] at same

theorem Keeps.any_constant {before after : Scope} (keeps : before.Keeps after) (name : String) :
    (after.find? name).any Binding.constant = (before.find? name).any Binding.constant := by
  have same := congrArg (Option.any id) (keeps.constancy name)
  rwa [Option.any_map, Option.any_map] at same

/-- Giving a variable a new value keeps a scope. -/
theorem keeps_update {scope : Scope} {name : String}
    (notConstant : ∀ binding, scope.find? name = some binding → binding.constant = false)
    (value : Value) :
    scope.Keeps { scope with bindings := Binding.update name value scope.bindings } where
  enclosing := rfl
  names := Binding.map_name_update name value scope.bindings
  constants := Binding.constants_update name value scope.bindings
  constancy other := by
    simp only [find?, Binding.find?_update]
    split
    · next same =>
      subst same
      cases Binding.find? name scope.bindings <;> rfl
    · rfl
  values other binding found constant := by
    simp only [find?, Binding.find?_update]
    split
    · next same =>
      subst same
      exact absurd (notConstant binding found) (by simp [constant])
    · exact found

end Scope

/-! ### Stores that keep their declarations -/

namespace Store

theorem exists_scope?_of_lt {store : Store} {id : ScopeId} (older : id < store.size) :
    ∃ scope, store.scope? id = some scope :=
  ⟨store.scopes[id], Array.getElem?_eq_getElem older⟩

theorem lt_size_of_scope? {store : Store} {id : ScopeId} {scope : Scope}
    (found : store.scope? id = some scope) : id < store.size :=
  (Array.getElem?_eq_some_iff.mp found).1

/-- The chosen scopes are still there, and keep what was declared in them. -/
def KeepsOn (before : Store) (chosen : ScopeId → Prop) (after : Store) : Prop :=
  ∀ id scope, chosen id → before.scope? id = some scope →
    ∃ later, after.scope? id = some later ∧ scope.Keeps later

theorem KeepsOn.refl (chosen : ScopeId → Prop) (store : Store) : store.KeepsOn chosen store :=
  fun _ scope _ found => ⟨scope, found, .refl scope⟩

theorem KeepsOn.trans {chosen : ScopeId → Prop} {before between after : Store}
    (first : before.KeepsOn chosen between) (second : between.KeepsOn chosen after) :
    before.KeepsOn chosen after := by
  intro id scope picked found
  obtain ⟨middle, foundMiddle, keeps⟩ := first id scope picked found
  obtain ⟨later, foundLater, keepsLater⟩ := second id middle picked foundMiddle
  exact ⟨later, foundLater, keeps.trans keepsLater⟩

/-- All scopes are still there, and keep what was declared in them. -/
def Keeps (before after : Store) : Prop :=
  ∀ id scope, before.scope? id = some scope →
    ∃ later, after.scope? id = some later ∧ scope.Keeps later

variable {before after : Store}

theorem Keeps.refl (store : Store) : store.Keeps store :=
  fun _ scope found => ⟨scope, found, .refl scope⟩

/-- No scope is lost. -/
theorem Keeps.lt_size (keeps : before.Keeps after) {id : ScopeId} (older : id < before.size) :
    id < after.size := by
  obtain ⟨scope, found⟩ := exists_scope?_of_lt older
  obtain ⟨later, foundLater, _⟩ := keeps id scope found
  exact lt_size_of_scope? foundLater

/-- A name that is seen from an old scope is still owned by the same scope. -/
theorem Keeps.owner? (keeps : before.Keeps after) (name : String) {id : ScopeId}
    (older : id < before.size) : after.owner? name id = before.owner? name id := by
  induction id using Nat.strongRecOn with
  | ind id inductionHypothesis =>
    obtain ⟨scope, found⟩ := exists_scope?_of_lt older
    obtain ⟨later, foundLater, kept⟩ := keeps id scope found
    rw [Store.owner?.eq_def after, Store.owner?.eq_def before]
    simp only [found, foundLater, kept.binds, kept.enclosing]
    split
    · rfl
    · split
      · rfl
      · next parent enclosed =>
        split
        · next inner => exact inductionHypothesis parent inner (Nat.lt_trans inner older)
        · rfl

/-- The owner of a name binds it. -/
theorem find?_of_owner? {store : Store} {name : String} {id owner : ScopeId}
    (owned : store.owner? name id = some owner) :
    ∃ scope binding, store.scope? owner = some scope ∧ scope.find? name = some binding := by
  induction id using Nat.strongRecOn with
  | ind id inductionHypothesis =>
    rw [Store.owner?.eq_def] at owned
    split at owned
    · contradiction
    · next scope found =>
      split at owned
      · next binds =>
        obtain ⟨binding, bound⟩ := Option.isSome_iff_exists.mp binds
        exact ⟨scope, binding, Option.some.inj owned ▸ found, bound⟩
      · split at owned
        · contradiction
        · split at owned
          · next inner => exact inductionHypothesis _ inner owned
          · contradiction

/-- A name is constant as seen from a scope exactly if its owner binds it as a constant. -/
theorem isConstant_eq {store : Store} {name : String} {id owner : ScopeId} {scope : Scope}
    (owned : store.owner? name id = some owner) (found : store.scope? owner = some scope) :
    store.isConstant id name = (scope.find? name).any Binding.constant := by
  rw [isConstant, binding?, owned]
  simp only [found, Option.bind_some]

/-- A name that is seen from an old scope is a constant if it was one. -/
theorem Keeps.isConstant (keeps : before.Keeps after) (name : String) {id : ScopeId}
    (older : id < before.size) : after.isConstant id name = before.isConstant id name := by
  have ownerSame := keeps.owner? name older
  cases owned : before.owner? name id with
  | none =>
    rw [owned] at ownerSame
    simp only [Store.isConstant, binding?, owned, ownerSame]
  | some owner =>
    obtain ⟨scope, _, found, _⟩ := find?_of_owner? owned
    obtain ⟨later, foundLater, kept⟩ := keeps owner scope found
    rw [isConstant_eq owned found, isConstant_eq (ownerSame.trans owned) foundLater]
    exact kept.any_constant name

/-- An old scope binds the names that it bound. -/
theorem Keeps.binds (keeps : before.Keeps after) (name : String) {id : ScopeId}
    (older : id < before.size) : after.binds id name = before.binds id name := by
  obtain ⟨scope, found⟩ := exists_scope?_of_lt older
  obtain ⟨later, foundLater, kept⟩ := keeps id scope found
  simp only [Store.binds, found, foundLater, Option.any_some, kept.binds]

end Store

end Lox
