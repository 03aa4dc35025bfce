/-
This file follows the scopes around a scope outwards. In the stores of sessions
every scope has exactly one such chain, it is finite, and no scope is on it
twice. The owner of a name is the first scope on the chain that binds it, so
looking a name up always ends, and the test that keeps it on older scopes never
stops it.
-/

import Lox.Proofs.Likeness.Stores

namespace Lox

namespace Store

/-- The scope, the one that encloses it, and so on up to a scope that nothing encloses. -/
inductive Chain (store : Store) : ScopeId → List ScopeId → Prop
  | outermost {id : ScopeId} {scope : Scope} :
    store.scope? id = some scope → scope.enclosing = none → Chain store id [id]
  | inner {id parent : ScopeId} {scope : Scope} {chain : List ScopeId} :
    store.scope? id = some scope → scope.enclosing = some parent → Chain store parent chain →
    Chain store id (id :: chain)

namespace Chain

variable {store : Store} {id : ScopeId} {chain : List ScopeId}

/-- A scope has one chain only. -/
theorem unique (first : store.Chain id chain) {other : List ScopeId}
    (second : store.Chain id other) : chain = other := by
  induction first generalizing other with
  | outermost found outside =>
    cases second with
    | outermost _ _ => rfl
    | inner foundAgain enclosed _ =>
      obtain rfl := Option.some.inj (found.symm.trans foundAgain)
      exact nomatch outside.symm.trans enclosed
  | inner found enclosed _ inductionHypothesis =>
    cases second with
    | outermost foundAgain outside =>
      obtain rfl := Option.some.inj (found.symm.trans foundAgain)
      exact nomatch outside.symm.trans enclosed
    | inner foundAgain enclosedAgain rest =>
      obtain rfl := Option.some.inj (found.symm.trans foundAgain)
      obtain rfl := Option.some.inj (enclosed.symm.trans enclosedAgain)
      rw [inductionHypothesis rest]

/-- Each scope on a chain is older than those before it. -/
theorem pairwise_gt (derives : store.Chain id chain) (ordered : store.Ordered) :
    chain.Pairwise (· > ·) ∧ ∀ member ∈ chain, member ≤ id := by
  induction derives with
  | outermost _ _ =>
    exact ⟨List.pairwise_singleton _ _, fun _ inside => Nat.le_of_eq (List.mem_singleton.mp inside)⟩
  | inner found enclosed _ inductionHypothesis =>
    obtain ⟨decreasing, older⟩ := inductionHypothesis
    have parentOlder := (ordered.enclosing trivial found enclosed).2
    have olderStill : ∀ member ∈ _, member < _ :=
      fun member inside => Nat.lt_of_le_of_lt (older member inside) parentOlder
    refine ⟨List.pairwise_cons.mpr ⟨olderStill, decreasing⟩, fun member inside => ?_⟩
    rcases List.mem_cons.mp inside with rfl | behind
    · exact Nat.le_refl _
    · exact Nat.le_of_lt (olderStill member behind)

/-- No scope is on a chain twice. -/
theorem nodup (derives : store.Chain id chain) (ordered : store.Ordered) : chain.Nodup :=
  (derives.pairwise_gt ordered).1.imp fun older => (Nat.ne_of_lt older).symm

/-- The owner of a name is the first scope on the chain that binds it. -/
theorem owner?_eq (derives : store.Chain id chain) (ordered : store.Ordered) (name : String) :
    store.owner? name id = chain.find? fun member => store.binds member name := by
  induction derives with
  | outermost found outside =>
    rw [Store.owner?, List.find?_cons, Store.binds]
    simp only [found, outside, Option.any_some]
    cases Scope.binds _ name <;> rfl
  | inner found enclosed _ inductionHypothesis =>
    have older := (ordered.enclosing trivial found enclosed).2
    rw [Store.owner?, List.find?_cons, Store.binds]
    simp only [found, enclosed, Option.any_some, if_pos older, inductionHypothesis]
    cases Scope.binds _ name <;> rfl

end Chain

/-- Every scope has a chain, if enclosing scopes are older and exist. -/
theorem exists_chain {store : Store} (ordered : store.Ordered) {id : ScopeId}
    (older : id < store.size) : ∃ chain, store.Chain id chain := by
  induction id using Nat.strongRecOn with
  | ind id inductionHypothesis =>
    obtain ⟨scope, found⟩ := exists_scope?_of_lt older
    cases enclosed : scope.enclosing with
    | none => exact ⟨_, .outermost found enclosed⟩
    | some parent =>
      have inner := (ordered.enclosing trivial found enclosed).2
      obtain ⟨chain, derives⟩ := inductionHypothesis parent inner (Nat.lt_trans inner older)
      exact ⟨_, .inner found enclosed derives⟩

end Store

end Lox
