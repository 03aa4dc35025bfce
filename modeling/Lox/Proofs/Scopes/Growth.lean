/-
This file proves that scopes only grow. Whatever a session runs, and however it
ends, a scope stays inside the same scope, and no name that it binds and no
constant among them is lost.

So a name that is seen from a scope is seen from it ever after. It is owned by
the scope that owned it, or by one strictly nearer on the same chain, which has
bound it since.
-/

import Lox.Proofs.Course.Reachable
import Lox.Proofs.Scopes.Chains

namespace Lox

/-! ### Scopes -/

namespace Binding

theorem names_subset_define (name : String) (value : Value) (constant : Bool)
    (bindings : List Binding) :
    bindings.map Binding.name ⊆ (define name value constant bindings).map Binding.name := by
  induction bindings with
  | nil => exact List.nil_subset _
  | cons binding rest inductionHypothesis =>
    rw [define]
    split
    · next same =>
      rw [List.map_cons, List.map_cons, same]
      exact List.Subset.refl _
    · exact List.cons_subset_cons _ inductionHypothesis

theorem constants_subset_define (name : String) (value : Value) (constant : Bool)
    (bindings : List Binding) :
    (bindings.filter Binding.constant).map Binding.name ⊆
      ((define name value constant bindings).filter Binding.constant).map Binding.name := by
  induction bindings with
  | nil => exact List.nil_subset _
  | cons binding rest inductionHypothesis =>
    rw [define]
    split
    · next same =>
      cases was : binding.constant with
      | true => simp [was, same]
      | false => cases constant <;> simp [was]
    · cases was : binding.constant with
      | true => simpa [was] using List.cons_subset_cons _ inductionHypothesis
      | false => simpa [was] using inductionHypothesis

theorem find?_isSome_iff (name : String) (bindings : List Binding) :
    (find? name bindings).isSome = true ↔ name ∈ bindings.map Binding.name := by
  induction bindings with
  | nil => simp [find?]
  | cons binding rest inductionHypothesis =>
    rw [find?, List.map_cons, List.mem_cons]
    split
    · next same => simp [same]
    · next different => simp [inductionHypothesis, Ne.symm different]

end Binding

namespace Scope

theorem binds_iff (scope : Scope) (name : String) :
    scope.binds name = true ↔ name ∈ scope.names :=
  Binding.find?_isSome_iff name scope.bindings

/-- Constants are bound. -/
theorem constants_subset_names (scope : Scope) : scope.constants ⊆ scope.names :=
  List.map_subset _ (List.filter_subset_self scope.bindings)

/-- The scope is inside the same scope as before, and has all the names and constants it had. -/
structure Grows (before after : Scope) : Prop where
  enclosing : after.enclosing = before.enclosing
  names : before.names ⊆ after.names
  constants : before.constants ⊆ after.constants

theorem Grows.refl (scope : Scope) : scope.Grows scope :=
  ⟨rfl, List.Subset.refl _, List.Subset.refl _⟩

theorem Grows.trans {before between after : Scope} (first : before.Grows between)
    (second : between.Grows after) : before.Grows after where
  enclosing := second.enclosing.trans first.enclosing
  names := List.Subset.trans first.names second.names
  constants := List.Subset.trans first.constants second.constants

end Scope

/-! ### Stores -/

namespace Store

/-- All scopes are still there and have at most grown. -/
def Grows (before after : Store) : Prop :=
  ∀ id scope, before.scope? id = some scope →
    ∃ grown, after.scope? id = some grown ∧ scope.Grows grown

theorem Grows.refl (store : Store) : store.Grows store :=
  fun _ scope found => ⟨scope, found, .refl scope⟩

theorem Grows.trans {before between after : Store} (first : before.Grows between)
    (second : between.Grows after) : before.Grows after := by
  intro id scope found
  obtain ⟨middle, foundMiddle, grows⟩ := first id scope found
  obtain ⟨grown, foundGrown, growsFurther⟩ := second id middle foundMiddle
  exact ⟨grown, foundGrown, grows.trans growsFurther⟩

theorem grows_modify (store : Store) (id : ScopeId) {change : List Binding → List Binding}
    (names : ∀ bindings : List Binding,
      bindings.map Binding.name ⊆ (change bindings).map Binding.name)
    (constants : ∀ bindings : List Binding,
      (bindings.filter Binding.constant).map Binding.name ⊆
        ((change bindings).filter Binding.constant).map Binding.name) :
    store.Grows (store.modify id change) := by
  intro other scope found
  by_cases same : other = id
  · subst same
    exact ⟨_, (scope?_modify_self store other change).trans (congrArg (Option.map _) found),
      rfl, names scope.bindings, constants scope.bindings⟩
  · exact ⟨scope, (scope?_modify_of_ne store change same).trans found, .refl scope⟩

theorem grows_define (store : Store) (id : ScopeId) (name : String) (value : Value)
    (constant : Bool) : store.Grows (store.define id name value constant) :=
  store.grows_modify id (Binding.names_subset_define name value constant)
    (Binding.constants_subset_define name value constant)

/-- Every action lets the scopes grow at most. -/
theorem grows_perform (store : Store) (action : Action) : store.Grows (store.perform action) := by
  cases action with
  | openScope enclosing =>
    intro id scope found
    have older := lt_size_of_scope? found
    exact ⟨scope, (scope?_push_of_lt store _ older).trans found, .refl scope⟩
  | bindParameter scope name value => exact store.grows_define scope name value false
  | declareVariable scope name value constant =>
    exact store.grows_define scope name value constant
  | declareFunction closure =>
    exact store.grows_define closure.scope closure.name (.function closure) false
  | update owner name value =>
    refine store.grows_modify owner (fun bindings => ?_) fun bindings => ?_
    · rw [Binding.map_name_update]
      exact List.Subset.refl _
    · rw [Binding.constants_update]
      exact List.Subset.refl _
  | print _ | record _ | callNative _ _ => exact .refl store

theorem grows_performAll (store : Store) (actions : List Action) :
    store.Grows (store.performAll actions) := by
  induction actions generalizing store with
  | nil => exact .refl store
  | cons action actions inductionHypothesis =>
    exact (store.grows_perform action).trans (inductionHypothesis _)

/-! ### Chains of scopes that grow -/

variable {before after : Store}

/-- What a scope binds it still binds. -/
theorem Grows.binds (grows : before.Grows after) {id : ScopeId} {name : String}
    (bound : before.binds id name = true) : after.binds id name = true := by
  obtain ⟨scope, found, binds⟩ := binds_iff.mp bound
  obtain ⟨grown, foundGrown, growsScope⟩ := grows id scope found
  refine binds_iff.mpr ⟨grown, foundGrown, (grown.binds_iff name).mpr ?_⟩
  exact growsScope.names ((scope.binds_iff name).mp binds)

/-- The chain around a scope is still the same. -/
theorem Grows.chain (grows : before.Grows after) {id : ScopeId} {chain : List ScopeId}
    (derives : before.Chain id chain) : after.Chain id chain := by
  induction derives with
  | outermost found outside =>
    obtain ⟨grown, foundGrown, growsScope⟩ := grows _ _ found
    exact .outermost foundGrown (growsScope.enclosing.trans outside)
  | inner found enclosed _ inductionHypothesis =>
    obtain ⟨grown, foundGrown, growsScope⟩ := grows _ _ found
    exact .inner foundGrown (growsScope.enclosing.trans enclosed) inductionHypothesis

/-- The first of a list for which more holds is the same or stands in front. -/
theorem exists_find?_of_imp {chain : List ScopeId} {test weaker : ScopeId → Bool}
    (imp : ∀ id, test id = true → weaker id = true) {owner : ScopeId}
    (first : chain.find? test = some owner) :
    ∃ nearer, chain.find? weaker = some nearer ∧
      (nearer = owner ∨ chain.idxOf nearer < chain.idxOf owner) := by
  induction chain with
  | nil => exact nomatch first
  | cons id rest inductionHypothesis =>
    by_cases here : weaker id = true
    · refine ⟨id, List.find?_cons_of_pos here, ?_⟩
      by_cases same : id = owner
      · exact .inl same
      · right
        rw [List.idxOf_cons_self, List.idxOf_cons_ne _ same]
        exact Nat.succ_pos _
    · have notFirst : ¬ test id = true := fun holds => here (imp id holds)
      rw [List.find?_cons_of_neg notFirst] at first
      obtain ⟨nearer, found, near⟩ := inductionHypothesis first
      refine ⟨nearer, (List.find?_cons_of_neg here).trans found, near.imp_right fun closer => ?_⟩
      have notNearer : id ≠ nearer := fun same => here (same ▸ List.find?_some found)
      have notOwner : id ≠ owner := fun same => notFirst (same ▸ List.find?_some first)
      rw [List.idxOf_cons_ne _ notNearer, List.idxOf_cons_ne _ notOwner]
      exact Nat.succ_lt_succ closer

end Store

/-! ### Sessions -/

namespace Machine

/-- The first machine is the second, or a session goes through the first before the second. The two
can be states of one run, or there can be other runs between them and the trace can be closed. -/
inductive Precedes : Machine → Machine → Prop
  | refl {machine : Machine} : machine.Reachable → Precedes machine machine
  | within {machine : Machine} {fuel : Nat} {source : String} {before between after : List Action} :
    machine.Reachable →
    (Course.runSource fuel source machine).1 = before ++ (between ++ after) →
    Precedes (machine.performAll before) (machine.performAll (before ++ between))
  | close {earlier later : Machine} : Precedes earlier later → Precedes earlier later.close
  | run {earlier later : Machine} {fuel : Nat} {source : String} {before after : List Action} :
    Precedes earlier later → (Course.runSource fuel source later).1 = before ++ after →
    Precedes earlier (later.performAll before)

namespace Precedes

variable {earlier later : Machine}

/-- The machine behind a whole source, however it ends, comes later. -/
theorem runSource (precedes : earlier.Precedes later) (fuel : Nat) (source : String) :
    earlier.Precedes (Session.runSource fuel source later).2 := by
  rw [Session.runSource_eq]
  exact precedes.run (List.append_nil _).symm

theorem reachable (precedes : earlier.Precedes later) : earlier.Reachable ∧ later.Reachable := by
  induction precedes with
  | refl reachable => exact ⟨reachable, reachable⟩
  | within reachable runs =>
    exact ⟨.run reachable runs, .run reachable (runs.trans (List.append_assoc _ _ _).symm)⟩
  | close _ inductionHypothesis => exact ⟨inductionHypothesis.1, .close inductionHypothesis.2⟩
  | run _ runs inductionHypothesis => exact ⟨inductionHypothesis.1, .run inductionHypothesis.2 runs⟩

/-- Between two states of a session the scopes have only grown. -/
theorem grows (precedes : earlier.Precedes later) : earlier.store.Grows later.store := by
  have performed : ∀ (machine : Machine) (actions : List Action),
      machine.store.Grows (machine.performAll actions).store := by
    intro machine actions
    rw [store_performAll]
    exact machine.store.grows_performAll actions
  induction precedes with
  | refl _ => exact .refl _
  | within _ _ =>
    rw [performAll_append]
    exact performed _ _
  | close _ inductionHypothesis => exact inductionHypothesis
  | run _ _ inductionHypothesis => exact inductionHypothesis.trans (performed _ _)

end Precedes

/-- On machines of sessions scopes are enclosed by older ones. -/
theorem Reachable.ordered {machine : Machine} (reachable : machine.Reachable) :
    machine.store.Ordered :=
  reachable.anchored.sealed.mono fun _ _ => trivial

end Machine

/-- Between any two states of a session the scopes of the first have only grown, and what is
constant in a scope is bound there. Around each scope there is one chain, with no scope twice, and
it is the same in both states. A name is owned by the first scope on the chain that binds it; a name
that is owned in the first state is owned in the second, by the same scope or by one strictly
nearer. -/
theorem scopes_only_grow {earlier later : Machine} (precedes : earlier.Precedes later) :
    earlier.store.Grows later.store ∧
      (∀ id scope, later.store.scope? id = some scope → scope.constants ⊆ scope.names) ∧
      ∀ id < earlier.store.size, ∃ chain,
        (∀ other, earlier.store.Chain id other ↔ other = chain) ∧ chain.Nodup ∧
          later.store.Chain id chain ∧
          ∀ name,
            earlier.store.owner? name id =
                chain.find? (fun member => earlier.store.binds member name) ∧
              later.store.owner? name id =
                chain.find? (fun member => later.store.binds member name) ∧
              ∀ owner, earlier.store.owner? name id = some owner →
                ∃ nearer, later.store.owner? name id = some nearer ∧
                  (nearer = owner ∨ chain.idxOf nearer < chain.idxOf owner) := by
  obtain ⟨reachableEarlier, reachableLater⟩ := precedes.reachable
  have grows := precedes.grows
  refine ⟨grows, fun _ scope _ => scope.constants_subset_names, fun id older => ?_⟩
  obtain ⟨chain, derives⟩ := Store.exists_chain reachableEarlier.ordered older
  have derivesLater := grows.chain derives
  refine ⟨chain, fun other => ⟨fun second => second.unique derives, fun same => same ▸ derives⟩,
    derives.nodup reachableEarlier.ordered, derivesLater, fun name => ?_⟩
  have ownerEarlier := derives.owner?_eq reachableEarlier.ordered name
  have ownerLater := derivesLater.owner?_eq reachableLater.ordered name
  refine ⟨ownerEarlier, ownerLater, fun owner owned => ?_⟩
  rw [ownerLater]
  exact Store.exists_find?_of_imp (fun _ => grows.binds) (ownerEarlier.symm.trans owned)

theorem scan_shadowing : Lexer.scan "var x = 1; \x7b var x = 2; nil(); \x7d" =
    ⟨⟨[⟨.var, "var", 1⟩, ⟨.identifier, "x", 1⟩, ⟨.equal, "=", 1⟩, ⟨.number, "1", 1⟩,
      ⟨.semicolon, ";", 1⟩, ⟨.leftBrace, "\x7b", 1⟩, ⟨.var, "var", 1⟩, ⟨.identifier, "x", 1⟩,
      ⟨.equal, "=", 1⟩, ⟨.number, "2", 1⟩, ⟨.semicolon, ";", 1⟩, ⟨.nil, "nil", 1⟩,
      ⟨.leftParen, "(", 1⟩, ⟨.rightParen, ")", 1⟩, ⟨.semicolon, ";", 1⟩,
      ⟨.rightBrace, "\x7d", 1⟩], ⟨.eof, "", 1⟩⟩, []⟩ := by
  decide +kernel

/-- A block that shadows a name of the global scope and then fails: seen from the block, the name
moves from the global scope to the block. -/
theorem scopes_only_grow_shadowing :
    let machine := Machine.start (.start "" fun _ => 0) 0
    let before : List Action :=
      [.print "", .record (.scanned 17), .print "", .record (.parsed 2),
        .declareVariable 0 "x" (.int 1) false, .record (.declared false "x" (.int 1)),
        .openScope 0]
    let between : List Action :=
      [.declareVariable 1 "x" (.int 2) false, .record (.declared false "x" (.int 2)),
        .record (.failed ⟨.notCallable, 1⟩),
        .print (RuntimeError.text ⟨.notCallable, 1⟩)]
    let earlier := machine.performAll before
    let later := machine.performAll (before ++ between)
    earlier.Precedes later ∧ earlier.store.owner? "x" 1 = some 0 ∧
      later.store.owner? "x" 1 = some 1 ∧
      ∃ chain, later.store.Chain 1 chain ∧ chain.idxOf 1 < chain.idxOf 0 := by
  intro machine before between earlier later
  have runs : (Course.runSource 5 "var x = 1; \x7b var x = 2; nil(); \x7d" machine).1 =
      before ++ (between ++ []) := by
    simp only [Course.runSource, scan_shadowing]
    rfl
  have precedes : earlier.Precedes later := .within (.start _ 0) runs
  have owned : earlier.store.owner? "x" 1 = some 0 := by decide +kernel
  have shadowed : later.store.owner? "x" 1 = some 1 := by decide +kernel
  obtain ⟨_, _, resolves⟩ := scopes_only_grow precedes
  obtain ⟨chain, _, _, derives, owners⟩ := resolves 1 (by decide +kernel)
  obtain ⟨_, _, keeps⟩ := owners "x"
  obtain ⟨nearer, owns, near⟩ := keeps 0 owned
  obtain rfl : 1 = nearer := Option.some.inj (shadowed.symm.trans owns)
  exact ⟨precedes, owned, shadowed, chain, derives, near.resolve_left Nat.one_ne_zero⟩

end Lox
