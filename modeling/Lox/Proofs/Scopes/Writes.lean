/-
This file proves who sees a write. Scopes form a forest: they are opened inside
scopes that exist or inside none, and filled by definitions and assignments.
Every scope sees a name along its chain of enclosing scopes, as the first one
that binds it does.

An assignment writes to the first of them. It is seen from just those scopes
that see the same one, and no scope comes to see another one by it. A definition
makes a scope an owner of the name, so it is seen from the scopes whose chain
comes to that scope before any other owner.
-/

import Lox.Machine
import Lox.Proofs.Scopes.Growth

namespace Lox

/-! ### Bindings -/

namespace Binding

theorem isSome_find?_define (name other : String) (value : Value) (constant : Bool)
    (bindings : List Binding) :
    (find? other (define name value constant bindings)).isSome =
      (decide (name = other) || (find? other bindings).isSome) := by
  rw [find?_define]
  by_cases same : name = other <;> simp [same]

/-- A definition binds no name twice. -/
theorem nodup_define {bindings : List Binding} (distinct : (bindings.map name).Nodup)
    (defined : String) (value : Value) (constant : Bool) :
    ((define defined value constant bindings).map name).Nodup := by
  induction bindings with
  | nil => exact List.pairwise_singleton _ _
  | cons binding rest inductionHypothesis =>
    obtain ⟨first, others⟩ := List.nodup_cons.mp distinct
    rw [define]
    split
    · next same =>
      rw [List.map_cons]
      exact List.nodup_cons.mpr ⟨same ▸ first, others⟩
    · next different =>
      rw [List.map_cons]
      refine List.nodup_cons.mpr ⟨fun member => ?_, inductionHypothesis others⟩
      rw [← find?_isSome_iff, isSome_find?_define, decide_eq_false (Ne.symm different),
        Bool.false_or, find?_isSome_iff] at member
      exact first member

/-- The names of constants are those that are bound as constants, if no name is bound twice. -/
theorem mem_constants_iff {bindings : List Binding} (distinct : (bindings.map name).Nodup)
    (asked : String) :
    asked ∈ (bindings.filter constant).map name ↔
      (find? asked bindings).any constant = true := by
  induction bindings with
  | nil => simp [find?]
  | cons binding rest inductionHypothesis =>
    obtain ⟨first, others⟩ := List.nodup_cons.mp distinct
    have elsewhere : binding.name ∉ (rest.filter constant).map name := fun member =>
      first (List.map_subset _ (List.filter_subset_self rest) member)
    rw [find?]
    by_cases same : binding.name = asked
    · subst same
      rw [if_pos rfl, Option.any_some]
      cases isConstant : binding.constant <;> simp [isConstant, elsewhere]
    · rw [if_neg same, ← inductionHypothesis others]
      cases isConstant : binding.constant <;> simp [isConstant, Ne.symm same]

end Binding

namespace Store

/-! ### Scopes alone -/

/-- The binding of a name in one scope alone. -/
def own? (store : Store) (id : ScopeId) (name : String) : Option Binding :=
  (store.scope? id).bind fun scope => scope.find? name

/-- The name is one of the constants of the scope. -/
def HasConstant (store : Store) (id : ScopeId) (name : String) : Prop :=
  ∃ scope, store.scope? id = some scope ∧ name ∈ scope.constants

variable {store : Store} {id : ScopeId}

theorem binds_eq_isSome (store : Store) (id : ScopeId) (name : String) :
    store.binds id name = (store.own? id name).isSome := by
  rw [binds, own?]
  cases store.scope? id <;> rfl

theorem binding?_eq (store : Store) (id : ScopeId) (name : String) :
    store.binding? id name = (store.owner? name id).bind fun owner => store.own? owner name := by
  rw [binding?]
  cases store.owner? name id <;> rfl

theorem own?_define (older : id < store.size) (name : String) (value : Value) (constant : Bool)
    (other : ScopeId) (asked : String) :
    (store.define id name value constant).own? other asked =
      if other = id ∧ name = asked then
        some ⟨name, value, (store.own? id name).any Binding.constant || constant⟩
      else store.own? other asked := by
  obtain ⟨scope, found⟩ := exists_scope?_of_lt older
  by_cases same : other = id
  · subst same
    rw [own?, define, scope?_modify_self, own?, own?, found, Option.map_some, Option.bind_some,
      Option.bind_some, Option.bind_some, Scope.find?, Binding.find?_define]
    simp only [true_and]
    rfl
  · rw [if_neg fun both => same both.1, own?, define, scope?_modify_of_ne store _ same]
    rfl

theorem own?_update (store : Store) (id : ScopeId) (name : String) (value : Value)
    (other : ScopeId) (asked : String) :
    (store.update id name value).own? other asked =
      if other = id ∧ name = asked then (store.own? id name).map ({ · with value })
      else store.own? other asked := by
  by_cases same : other = id
  · subst same
    rw [own?, update, scope?_modify_self, own?, own?]
    cases store.scope? other with
    | none => simp
    | some scope =>
      rw [Option.map_some, Option.bind_some, Option.bind_some, Option.bind_some, Scope.find?,
        Binding.find?_update]
      simp only [true_and]
      rfl
  · rw [if_neg fun both => same both.1, own?, update, scope?_modify_of_ne store _ same]
    rfl

theorem binds_define_eq (older : id < store.size) (name : String) (value : Value)
    (constant : Bool) (other : ScopeId) (asked : String) :
    (store.define id name value constant).binds other asked =
      (decide (other = id ∧ name = asked) || store.binds other asked) := by
  rw [binds_eq_isSome, binds_eq_isSome, own?_define older]
  split
  · next both => rw [decide_eq_true both, Bool.true_or]; rfl
  · next differ => rw [decide_eq_false differ, Bool.false_or]

theorem binds_update_eq (store : Store) (id : ScopeId) (name : String) (value : Value)
    (other : ScopeId) (asked : String) :
    (store.update id name value).binds other asked = store.binds other asked := by
  rw [binds_eq_isSome, binds_eq_isSome, own?_update]
  split
  · next both =>
    obtain ⟨rfl, rfl⟩ := both
    rw [Option.isSome_map]
  · rfl

/-! ### Owners -/

theorem owner?_of_size_le (beyond : store.size ≤ id) (name : String) :
    store.owner? name id = none := by
  have absent : store.scope? id = none := Array.getElem?_eq_none beyond
  rw [owner?, absent]

/-- Scopes on the same chains have the same owners of a name if they bind it alike. -/
theorem owner?_eq_of_binds {next : Store} (ordered : store.Ordered) (orderedNext : next.Ordered)
    (grows : store.Grows next) (size : next.size = store.size) {name : String}
    (binds : ∀ member, next.binds member name = store.binds member name) (other : ScopeId) :
    next.owner? name other = store.owner? name other := by
  rcases Nat.lt_or_ge other store.size with older | beyond
  · obtain ⟨chain, derives⟩ := exists_chain ordered older
    rw [derives.owner?_eq ordered, (grows.chain derives).owner?_eq orderedNext]
    simp only [binds]
  · rw [owner?_of_size_le beyond, owner?_of_size_le (size ▸ beyond)]

/-- A name has a value along the chain if it is bound there. -/
theorem exists_owner?_iff (ordered : store.Ordered) (older : id < store.size) (name : String) :
    (∃ owner, store.owner? name id = some owner) ↔
      ∃ chain, store.Chain id chain ∧ ∃ member ∈ chain, store.binds member name = true := by
  constructor
  · rintro ⟨owner, owned⟩
    obtain ⟨chain, derives⟩ := exists_chain ordered older
    rw [derives.owner?_eq ordered] at owned
    have binds : store.binds owner name = true := by simpa using List.find?_some owned
    exact ⟨chain, derives, owner, List.mem_of_find?_eq_some owned, binds⟩
  · rintro ⟨chain, derives, member, inside, binds⟩
    rw [derives.owner?_eq ordered]
    exact Option.isSome_iff_exists.mp (List.find?_isSome.mpr ⟨member, inside, binds⟩)

/-- The owner of a name has a binding for it. -/
theorem exists_binding?_of_owner? {name : String} {owner : ScopeId}
    (owned : store.owner? name id = some owner) :
    ∃ binding, store.binding? id name = some binding := by
  obtain ⟨scope, binding, found, bound⟩ := find?_of_owner? owned
  refine ⟨binding, ?_⟩
  rw [binding?_eq, owned, Option.bind_some, own?, found, Option.bind_some, bound]

/-! ### Assignments -/

/-- An assignment changes no owner. -/
theorem owner?_update (ordered : store.Ordered) (owner : ScopeId) (name : String) (value : Value)
    (asked : String) (other : ScopeId) :
    (store.update owner name value).owner? asked other = store.owner? asked other :=
  owner?_eq_of_binds ordered (ordered.modify owner _)
    (store.grows_perform (.update owner name value)) (size_modify _ _ _)
    (fun member => binds_update_eq store owner name value member asked) other

section

variable (ordered : store.Ordered) {owner : ScopeId} {name : String}
  (owned : store.owner? name id = some owner) (value : Value) (other : ScopeId) (asked : String)

include ordered owned

/-- The binding that an assignment leaves: the owner's with the new value, and every other one as it
was. -/
theorem binding?_update :
    (store.update owner name value).binding? other asked =
      if asked = name ∧ store.owner? name other = store.owner? name id then
        (store.binding? other asked).map ({ · with value })
      else store.binding? other asked := by
  rw [binding?_eq, binding?_eq, owner?_update ordered, owned]
  by_cases same : asked = name
  · subst same
    cases store.owner? asked other with
    | none => simp
    | some seen =>
      rw [Option.bind_some, Option.bind_some, own?_update]
      simp only [and_true, true_and, Option.some.injEq]
      split
      · next isOwner => rw [isOwner]
      · rfl
  · rw [if_neg fun both => same both.1]
    congr 1
    funext seen
    rw [own?_update, if_neg fun both => same both.2.symm]

theorem get?_update :
    (store.update owner name value).get? other asked =
      if asked = name ∧ store.owner? name other = store.owner? name id then some value
      else store.get? other asked := by
  rw [get?, binding?_update ordered owned]
  split
  · next both =>
    obtain ⟨rfl, same⟩ := both
    obtain ⟨binding, bound⟩ := exists_binding?_of_owner? (same.trans owned)
    rw [bound]
    rfl
  · rfl

theorem isConstant_update :
    (store.update owner name value).isConstant other asked = store.isConstant other asked := by
  rw [isConstant, isConstant, binding?_update ordered owned]
  split
  · cases store.binding? other asked <;> rfl
  · rfl

end

/-! ### Definitions -/

/-- From the other scope the chain comes to the scope before any other owner of the name. -/
def Unshadowed (store : Store) (name : String) (id other : ScopeId) : Prop :=
  ∃ before after, store.Chain other (before ++ id :: after) ∧
    ∀ nearer ∈ before, store.binds nearer name = false

/-- In a list with a further member that counts, the first that counts is the further one if none
counts in front of it. -/
theorem find?_or_of_append (test : ScopeId → Bool) {before after : List ScopeId}
    (passed : ∀ nearer ∈ before, test nearer = false) :
    ((before ++ id :: after).find? fun member => decide (member = id) || test member) =
      some id := by
  induction before with
  | nil => simp
  | cons nearer before inductionHypothesis =>
    obtain ⟨first, others⟩ := List.forall_mem_cons.mp passed
    rw [List.cons_append, List.find?_cons, first, Bool.or_false]
    by_cases same : nearer = id
    · rw [decide_eq_true same, same]
    · rw [decide_eq_false same]
      exact inductionHypothesis others

/-- Behind another that counts a further one makes no difference. -/
theorem find?_or_of_not_append (test : ScopeId → Bool) {chain : List ScopeId}
    (hidden : ¬ ∃ before after, chain = before ++ id :: after ∧
      ∀ nearer ∈ before, test nearer = false) :
    (chain.find? fun member => decide (member = id) || test member) = chain.find? test := by
  induction chain with
  | nil => rfl
  | cons member rest inductionHypothesis =>
    have different : member ≠ id := by
      rintro rfl
      exact hidden ⟨[], rest, rfl, fun _ inside => absurd inside List.not_mem_nil⟩
    rw [List.find?_cons, List.find?_cons, decide_eq_false different, Bool.false_or]
    cases counts : test member with
    | true => rfl
    | false =>
      refine inductionHypothesis ?_
      rintro ⟨before, after, rfl, passed⟩
      exact hidden ⟨member :: before, after, rfl, List.forall_mem_cons.mpr ⟨counts, passed⟩⟩

/-- From a scope the chain comes to the owner of a name before any other one. -/
theorem unshadowed_of_owner? (ordered : store.Ordered) {name : String} {other : ScopeId}
    (owned : store.owner? name other = some id) : store.Unshadowed name id other := by
  have exist : other < store.size := by
    refine Nat.lt_of_not_ge fun beyond => ?_
    rw [owner?_of_size_le beyond] at owned
    cases owned
  obtain ⟨chain, derives⟩ := exists_chain ordered exist
  rw [derives.owner?_eq ordered, List.find?_eq_some_iff_append] at owned
  obtain ⟨_, before, after, rfl, passed⟩ := owned
  exact ⟨before, after, derives, fun nearer inside => by simpa using passed nearer inside⟩

/-- A scope that exists is the first on its own chain. -/
theorem unshadowed_self (ordered : store.Ordered) (older : id < store.size) (name : String) :
    store.Unshadowed name id id := by
  obtain ⟨chain, derives⟩ := exists_chain ordered older
  cases derives with
  | outermost found outside => exact ⟨[], [], .outermost found outside, List.forall_mem_nil _⟩
  | inner found enclosed rest => exact ⟨[], _, .inner found enclosed rest, List.forall_mem_nil _⟩

section

variable (ordered : store.Ordered) (older : id < store.size) (name : String) (value : Value)
  (constant : Bool)

include ordered older

/-- A definition makes the scope the owner for all scopes from which it is unshadowed. -/
theorem owner?_define_of_unshadowed {other : ScopeId}
    (unshadowed : store.Unshadowed name id other) :
    (store.define id name value constant).owner? name other = some id := by
  obtain ⟨before, after, derives, passed⟩ := unshadowed
  have orderedNext : (store.define id name value constant).Ordered := ordered.modify id _
  rw [((store.grows_define id name value constant).chain derives).owner?_eq orderedNext]
  simp only [binds_define_eq older, and_true]
  exact find?_or_of_append _ passed

/-- For every other scope, and for every other name, the owner stays the same. -/
theorem owner?_define_of_not {other : ScopeId} {asked : String}
    (unseen : ¬ (asked = name ∧ store.Unshadowed name id other)) :
    (store.define id name value constant).owner? asked other = store.owner? asked other := by
  have orderedNext : (store.define id name value constant).Ordered := ordered.modify id _
  have grows := store.grows_define id name value constant
  by_cases same : asked = name
  · subst same
    rcases Nat.lt_or_ge other store.size with exist | beyond
    · obtain ⟨chain, derives⟩ := exists_chain ordered exist
      rw [(grows.chain derives).owner?_eq orderedNext, derives.owner?_eq ordered]
      simp only [binds_define_eq older, and_true]
      refine find?_or_of_not_append _ ?_
      rintro ⟨before, after, rfl, passed⟩
      exact unseen ⟨rfl, before, after, derives, passed⟩
    · have size := size_define store id asked value constant
      rw [owner?_of_size_le beyond, owner?_of_size_le (size ▸ beyond)]
  · refine owner?_eq_of_binds ordered orderedNext grows (size_define _ _ _ _ _) (fun member => ?_) _
    rw [binds_define_eq older, decide_eq_false fun both => same both.2.symm, Bool.false_or]

theorem binding?_define_of_unshadowed {other : ScopeId}
    (unshadowed : store.Unshadowed name id other) :
    (store.define id name value constant).binding? other name =
      some ⟨name, value, (store.own? id name).any Binding.constant || constant⟩ := by
  rw [binding?_eq, owner?_define_of_unshadowed ordered older name value constant unshadowed,
    Option.bind_some, own?_define older, if_pos ⟨rfl, rfl⟩]

theorem binding?_define_of_not {other : ScopeId} {asked : String}
    (unseen : ¬ (asked = name ∧ store.Unshadowed name id other)) :
    (store.define id name value constant).binding? other asked = store.binding? other asked := by
  rw [binding?_eq, binding?_eq, owner?_define_of_not ordered older name value constant unseen]
  cases owned : store.owner? asked other with
  | none => rfl
  | some owner =>
    rw [Option.bind_some, Option.bind_some, own?_define older, if_neg]
    -- if the scope itself owned the name it would be unshadowed
    rintro ⟨rfl, rfl⟩
    exact unseen ⟨rfl, unshadowed_of_owner? ordered owned⟩

end

/-! ### Names bound once -/

/-- No scope binds a name twice. -/
def Distinct (store : Store) : Prop :=
  ∀ id scope, store.scope? id = some scope → scope.names.Nodup

theorem Distinct.push (distinct : store.Distinct) (enclosing : Option ScopeId) :
    (store.push enclosing).Distinct := by
  intro id scope found
  rcases eq_or_scope?_of_push found with ⟨_, rfl⟩ | foundBefore
  · exact List.nodup_nil
  · exact distinct id scope foundBefore

theorem Distinct.modify (distinct : store.Distinct) (changed : ScopeId)
    {change : List Binding → List Binding}
    (keeps : ∀ {bindings : List Binding}, (bindings.map Binding.name).Nodup →
      ((change bindings).map Binding.name).Nodup) :
    (store.modify changed change).Distinct := by
  intro id scope found
  by_cases same : id = changed
  · subst same
    rw [scope?_modify_self] at found
    obtain ⟨before, foundBefore, rfl⟩ := Option.map_eq_some_iff.mp found
    exact keeps (distinct id before foundBefore)
  · rw [scope?_modify_of_ne store change same] at found
    exact distinct id scope found

/-! ### Forests of scopes -/

/-- Stores that new scopes, definitions and assignments build from the one without scopes. A new
scope is opened inside a scope that exists or inside none. -/
inductive Forest : Store → Prop
  | empty : Forest Store.empty
  | push {store : Store} {enclosing : Option ScopeId} :
    Forest store → (∀ parent ∈ enclosing, parent < store.size) → Forest (store.push enclosing)
  | define {store : Store} {id : ScopeId} (name : String) (value : Value) (constant : Bool) :
    Forest store → id < store.size → Forest (store.define id name value constant)
  | assign {store next : Store} {id : ScopeId} {name : String} {value : Value} :
    Forest store → store.assign? id name value = some next → Forest next

namespace Forest

theorem ordered (forest : store.Forest) : store.Ordered := by
  induction forest with
  | empty => exact ⟨fun _ _ _ => trivial, fun _ found => nomatch found⟩
  | push _ older inductionHypothesis =>
    exact Sealed.push inductionHypothesis fun parent member => ⟨trivial, older parent member⟩
  | define _ _ _ _ _ inductionHypothesis => exact inductionHypothesis.modify _ _
  | assign _ assigned inductionHypothesis =>
    obtain ⟨owner, _, rfl⟩ := Option.map_eq_some_iff.mp assigned
    exact inductionHypothesis.modify owner _

theorem distinct (forest : store.Forest) : store.Distinct := by
  induction forest with
  | empty => exact fun _ _ found => nomatch found
  | push _ _ inductionHypothesis => exact inductionHypothesis.push _
  | define name value constant _ _ inductionHypothesis =>
    exact inductionHypothesis.modify _
      fun distinct => Binding.nodup_define distinct name value constant
  | assign _ assigned inductionHypothesis =>
    obtain ⟨owner, _, rfl⟩ := Option.map_eq_some_iff.mp assigned
    refine inductionHypothesis.modify owner fun distinct => ?_
    rw [Binding.map_name_update]
    exact distinct

/-- The constants of a scope are the names that it binds as constants. -/
theorem hasConstant_iff (forest : store.Forest) (id : ScopeId) (name : String) :
    store.HasConstant id name ↔ (store.own? id name).any Binding.constant = true := by
  rw [own?]
  constructor
  · rintro ⟨scope, found, member⟩
    rw [found, Option.bind_some]
    exact (Binding.mem_constants_iff (forest.distinct _ _ found) name).mp member
  · intro isConstant
    cases found : store.scope? id with
    | none =>
      rw [found] at isConstant
      cases isConstant
    | some scope =>
      rw [found, Option.bind_some] at isConstant
      exact ⟨scope, found, (Binding.mem_constants_iff (forest.distinct _ _ found) name).mpr isConstant⟩

/-- A definition makes a name a constant of the scope if it asks for that, and it leaves it one if
it was. -/
theorem hasConstant_define_iff (forest : store.Forest) (older : id < store.size) (name : String)
    (value : Value) (constant : Bool) :
    (store.define id name value constant).HasConstant id name ↔
      constant = true ∨ store.HasConstant id name := by
  rw [(forest.define name value constant older).hasConstant_iff, forest.hasConstant_iff,
    own?_define older, if_pos ⟨rfl, rfl⟩, Option.any_some, Bool.or_eq_true, Or.comm]

/-- Who sees a write, on any forest of scopes.

A scope sees a name as the first scope on its chain that binds it. An assignment succeeds exactly if
there is one. It is then seen from the scopes that see the same one, and from no other; no name
moves to another owner or becomes or ceases to be a constant by it.

A definition is seen from just those scopes whose chain comes to its scope before any other owner of
the name, and its scope is one of them. For them it owns the name, with the new value, as a constant
if the definition asks for one or the name was a constant there already. All else is as before.

A run that assigns to a name that is not bound, or reads one, fails and leaves the machine. -/
theorem writes_reach (forest : store.Forest) (older : id < store.size) (name : Token)
    (value : Value) (constant : Bool) :
    let defined := store.define id name.lexeme value constant
    (∀ other asked chain, store.Chain other chain →
      store.owner? asked other = chain.find? fun member => store.binds member asked) ∧
    ((∃ next, store.assign? id name.lexeme value = some next) ↔
      ∃ chain, store.Chain id chain ∧ ∃ member ∈ chain, store.binds member name.lexeme = true) ∧
    (∀ next, store.assign? id name.lexeme value = some next → ∀ other asked,
      next.get? other asked =
          (if asked = name.lexeme ∧
              store.owner? name.lexeme other = store.owner? name.lexeme id then some value
          else store.get? other asked) ∧
        next.owner? asked other = store.owner? asked other ∧
        next.isConstant other asked = store.isConstant other asked) ∧
    (∀ other asked, ¬ (asked = name.lexeme ∧ store.Unshadowed name.lexeme id other) →
      defined.get? other asked = store.get? other asked ∧
        defined.owner? asked other = store.owner? asked other ∧
        defined.isConstant other asked = store.isConstant other asked) ∧
    (∀ other, store.Unshadowed name.lexeme id other →
      defined.get? other name.lexeme = some value ∧
        defined.owner? name.lexeme other = some id ∧
        (defined.isConstant other name.lexeme = true ↔ defined.HasConstant id name.lexeme)) ∧
    store.Unshadowed name.lexeme id id ∧
    (defined.HasConstant id name.lexeme ↔
      constant = true ∨ store.HasConstant id name.lexeme) ∧
    ∀ machine : Machine, machine.store = store →
      (∀ next, store.assign? id name.lexeme value = some next →
        Run.assign id name value machine = (.value (), { machine with store := next })) ∧
      (store.assign? id name.lexeme value = none →
        Run.assign id name value machine =
          (.error ⟨.undefinedVariable name.lexeme, name.line⟩, machine)) ∧
      (∀ found, store.get? id name.lexeme = some found →
        Run.lookup id name machine = (.value found, machine)) ∧
      (store.get? id name.lexeme = none →
        Run.lookup id name machine =
          (.error ⟨.undefinedVariable name.lexeme, name.line⟩, machine)) := by
  intro defined
  have ordered := forest.ordered
  have succeeds : (∃ next, store.assign? id name.lexeme value = some next) ↔
      ∃ owner, store.owner? name.lexeme id = some owner := by
    simp only [← Option.isSome_iff_exists, assign?, Option.isSome_map]
  refine ⟨fun _ asked _ derives => derives.owner?_eq ordered asked,
    succeeds.trans (exists_owner?_iff ordered older name.lexeme), ?assigned, ?unseen, ?seen,
    unshadowed_self ordered older name.lexeme,
    forest.hasConstant_define_iff older name.lexeme value constant, ?runs⟩
  case assigned =>
    intro next assigned other asked
    obtain ⟨owner, owned, rfl⟩ := Option.map_eq_some_iff.mp assigned
    exact ⟨get?_update ordered owned value other asked,
      owner?_update ordered owner name.lexeme value asked other,
      isConstant_update ordered owned value other asked⟩
  case unseen =>
    intro other asked unseen
    have binding := binding?_define_of_not ordered older name.lexeme value constant unseen
    refine ⟨congrArg (Option.map Binding.value) binding,
      owner?_define_of_not ordered older name.lexeme value constant unseen,
      congrArg (fun binding => binding.any Binding.constant) binding⟩
  case seen =>
    intro other unshadowed
    have binding :=
      binding?_define_of_unshadowed ordered older name.lexeme value constant unshadowed
    refine ⟨congrArg (Option.map Binding.value) binding,
      owner?_define_of_unshadowed ordered older name.lexeme value constant unshadowed, ?_⟩
    rw [(forest.define name.lexeme value constant older).hasConstant_iff, own?_define older,
      if_pos ⟨rfl, rfl⟩, isConstant, binding]
  case runs =>
    rintro machine rfl
    refine ⟨fun next assigned => ?_, fun unbound => ?_, fun found bound => ?_, fun unbound => ?_⟩
    · obtain ⟨owner, owned, rfl⟩ := Option.map_eq_some_iff.mp assigned
      simp only [Run.assign, owned]
    · simp only [Run.assign, Option.map_eq_none_iff.mp unbound]
    · simp only [Run.lookup, bound]
    · simp only [Run.lookup, unbound]

/-- Below a constant of the outermost scope there are two scopes, and below the first of them two
more, one with a variable of the same name. An assignment in the first passes by that variable, and
so does a definition there, which the scope beside it does not see. -/
theorem writes_reach_shadowed :
    let outermost := (Store.empty.push none).define 0 "x" (.int 1) true
    let inner := ((outermost.push (some 0)).push (some 0)).push (some 1)
    let store := (inner.push (some 1)).define 3 "x" (.int 2) false
    let defined := store.define 1 "x" (.int 9) false
    store.Forest ∧ 1 < store.size ∧
      (∃ next, store.assign? 1 "x" (.int 9) = some next ∧ next.get? 2 "x" = some (.int 9) ∧
        next.get? 3 "x" = store.get? 3 "x") ∧
      defined.get? 2 "x" = store.get? 2 "x" ∧ defined.get? 3 "x" = store.get? 3 "x" ∧
      defined.get? 4 "x" = some (.int 9) ∧ ¬ defined.HasConstant 1 "x" := by
  intro outermost inner store defined
  have forest : store.Forest := by
    have within {before : Store} {parent : ScopeId} (forest : before.Forest)
        (older : parent < before.size) : (before.push (some parent)).Forest :=
      forest.push fun _ member => Option.some.inj member ▸ older
    have outermostForest : outermost.Forest :=
      .define "x" (.int 1) true (.push .empty fun _ member => nomatch member) (by decide)
    have innerForest : inner.Forest :=
      within (within (within outermostForest (by decide)) (by decide)) (by decide)
    exact .define "x" (.int 2) false (within innerForest (by decide)) (by decide)
  have older : 1 < store.size := by decide
  obtain ⟨_, _, assigned, unseen, seen, _, becomes, _⟩ :=
    writes_reach forest older ⟨.identifier, "x", 1⟩ (.int 9) false
  have owned : store.owner? "x" 1 = some 0 := by decide +kernel
  have own : store.owner? "x" 3 = some 3 := by decide +kernel
  have hidden (other : ScopeId) (apart : defined.owner? "x" other ≠ some 1) :
      defined.get? other "x" = store.get? other "x" := by
    refine (unseen other "x" ?_).1
    rintro ⟨_, unshadowed⟩
    exact apart (seen other unshadowed).2.1
  refine ⟨forest, older, ?_, hidden 2 (by decide +kernel), hidden 3 (by decide +kernel), ?_, ?_⟩
  · obtain ⟨next, assigns⟩ : ∃ next, store.assign? 1 "x" (.int 9) = some next :=
      ⟨_, Option.map_eq_some_iff.mpr ⟨0, owned, rfl⟩⟩
    have beside := (assigned next assigns 2 "x").1
    have shadowing := (assigned next assigns 3 "x").1
    rw [if_pos ⟨rfl, by decide +kernel⟩] at beside
    rw [if_neg (by rw [owned, own]; decide)] at shadowing
    exact ⟨next, assigns, beside, shadowing⟩
  · refine (seen 4 ⟨[4], [0], ?_, ?_⟩).1
    · exact .inner rfl rfl (.inner rfl rfl (.outermost rfl rfl))
    · decide
  · rintro isConstant
    obtain isFalse | ⟨scope, found, member⟩ := becomes.mp isConstant
    · cases isFalse
    · obtain rfl := Option.some.inj found
      cases member

end Forest

end Store

end Lox
