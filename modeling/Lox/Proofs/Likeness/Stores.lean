/-
This file compares the stores of two machines. Paired scopes bind the same names
to like values in the same order, and are enclosed by scopes that see the same;
a scope outside all pairs that is known to be hollow binds nothing.

Scopes that see the same give the same answers about names, because looking a
name up passes through hollow scopes. Opening scopes on both sides, opening a
hollow one on one side, and binding like values in paired scopes leave the
stores comparable.
-/

import Lox.Proofs.Likeness.Values

namespace Lox

variable {links more : Links}

/-! ### Bindings -/

/-- The bindings are the same but for their values, which are alike. -/
structure Binding.Like (links : Links) (first second : Binding) : Prop where
  name : first.name = second.name
  value : first.value.Like links second.value
  constant : first.constant = second.constant

namespace Binding

theorem Like.grow {first second : Binding} (like : first.Like links second)
    (grows : links.Grows more) : first.Like more second :=
  { like with value := like.value.grow grows }

variable {bindings bindings' : List Binding}
  (like : List.Forall₂ (Binding.Like links) bindings bindings')

include like

theorem find?_like (name : String) :
    Option.Rel (Binding.Like links) (find? name bindings) (find? name bindings') := by
  induction like with
  | nil => exact .none
  | @cons first first' _ _ firstLike _ inductionHypothesis =>
    rw [find?, find?, ← firstLike.name]
    split
    · exact .some firstLike
    · exact inductionHypothesis

theorem define_like {value value' : Value} (valueLike : value.Like links value') (name : String)
    (constant : Bool) :
    List.Forall₂ (Binding.Like links) (define name value constant bindings)
      (define name value' constant bindings') := by
  induction like with
  | nil => exact .cons ⟨rfl, valueLike, rfl⟩ .nil
  | @cons first first' _ _ firstLike rest inductionHypothesis =>
    rw [define, define, ← firstLike.name, ← firstLike.constant]
    split
    · exact .cons ⟨rfl, valueLike, rfl⟩ rest
    · exact .cons firstLike inductionHypothesis

theorem update_like {value value' : Value} (valueLike : value.Like links value') (name : String) :
    List.Forall₂ (Binding.Like links) (update name value bindings)
      (update name value' bindings') := by
  induction like with
  | nil => exact .nil
  | @cons first first' _ _ firstLike rest inductionHypothesis =>
    rw [update, update, ← firstLike.name]
    split
    · exact .cons ⟨rfl, valueLike, firstLike.constant⟩ rest
    · exact .cons firstLike inductionHypothesis

end Binding

/-! ### Scopes -/

/-- The scopes bind the same names to like values, inside scopes that see the same. -/
structure Scope.Like (links : Links) (first second : Scope) : Prop where
  enclosing : Option.Rel links.Sees first.enclosing second.enclosing
  bindings : List.Forall₂ (Binding.Like links) first.bindings second.bindings

namespace Scope.Like

variable {first second : Scope}

theorem grow (like : first.Like links second) (grows : links.Grows more) :
    first.Like more second where
  enclosing := by
    obtain ⟨enclosing, _⟩ := first
    obtain ⟨enclosing', _⟩ := second
    cases like.enclosing with
    | none => exact .none
    | some sees => exact .some (sees.grow grows)
  bindings := like.bindings.imp fun _ _ bindingLike => bindingLike.grow grows

theorem find? (like : first.Like links second) (name : String) :
    Option.Rel (Binding.Like links) (first.find? name) (second.find? name) :=
  Binding.find?_like like.bindings name

theorem binds_eq (like : first.Like links second) (name : String) :
    first.binds name = second.binds name := by
  have found := like.find? name
  unfold Scope.binds
  generalize first.find? name = binding?, second.find? name = binding?' at found
  cases found <;> rfl

end Scope.Like

/-! ### Stores -/

namespace Store

/-- Every scope is enclosed by an older one. -/
def Ordered (store : Store) : Prop := store.Sealed (fun _ => True) fun _ => True

theorem Ordered.modify {store : Store} (ordered : store.Ordered) (id : ScopeId)
    (change : List Binding → List Binding) : (store.modify id change).Ordered :=
  Sealed.modify ordered (fun _ _ _ => .inr trivial) id

theorem Ordered.push {store : Store} (ordered : store.Ordered) {outer : ScopeId}
    (older : outer < store.size) : (store.push (some outer)).Ordered := by
  refine Sealed.push ordered fun parent member => ⟨trivial, ?_⟩
  exact Option.some.inj member ▸ older

/-- The scope binds nothing and is in no pair. -/
structure Hollow (store : Store) (unpaired : ScopeId → Prop) (hollow outer : ScopeId) : Prop where
  empty : store.scope? hollow = some ⟨some outer, []⟩
  unpaired : unpaired hollow

theorem Hollow.push {store : Store} {unpaired unpaired' : ScopeId → Prop} {hollow outer : ScopeId}
    (isHollow : store.Hollow unpaired hollow outer) (enclosing : Option ScopeId)
    (stays : hollow < store.size → unpaired hollow → unpaired' hollow) :
    (store.push enclosing).Hollow unpaired' hollow outer := by
  have older := lt_size_of_scope? isHollow.empty
  exact ⟨(scope?_push_of_lt store enclosing older).trans isHollow.empty,
    stays older isHollow.unpaired⟩

/-- Paired scopes are alike, and hollow scopes are hollow. -/
structure Corresponds (links : Links) (first second : Store) : Prop where
  scopes {id id' : ScopeId} : links.paired id id' →
    ∃ scope scope', first.scope? id = some scope ∧ second.scope? id' = some scope' ∧
      scope.Like links scope'
  oneToOne {id id' other other' : ScopeId} : links.paired id id' → links.paired other other' →
    (id = other ↔ id' = other')
  hollowFirst {hollow outer : ScopeId} : links.hollowFirst hollow outer →
    first.Hollow (fun id => ∀ id', ¬ links.paired id id') hollow outer
  hollowSecond {hollow outer : ScopeId} : links.hollowSecond hollow outer →
    second.Hollow (fun id' => ∀ id, ¬ links.paired id id') hollow outer
  orderedFirst : first.Ordered
  orderedSecond : second.Ordered

namespace Corresponds

variable {first second : Store} {id id' : ScopeId}

/-- Scopes that see the same exist. -/
theorem lt_size (corresponds : first.Corresponds links second) (sees : links.Sees id id') :
    id < first.size ∧ id' < second.size := by
  induction sees with
  | paired pair =>
    obtain ⟨_, _, found, found', _⟩ := corresponds.scopes pair
    exact ⟨lt_size_of_scope? found, lt_size_of_scope? found'⟩
  | hollowFirst hollow _ inductionHypothesis =>
    exact ⟨lt_size_of_scope? (corresponds.hollowFirst hollow).empty, inductionHypothesis.2⟩
  | hollowSecond hollow _ inductionHypothesis =>
    exact ⟨inductionHypothesis.1, lt_size_of_scope? (corresponds.hollowSecond hollow).empty⟩

/-! ### Names -/

/-- A name that is looked up passes through a hollow scope. -/
theorem owner?_hollow {store : Store} {hollow outer : ScopeId}
    (empty : store.scope? hollow = some ⟨some outer, []⟩) (older : outer < hollow)
    (name : String) : store.owner? name hollow = store.owner? name outer := by
  have unbound : (⟨some outer, []⟩ : Scope).binds name = false := rfl
  rw [Store.owner?, empty]
  simp only [unbound, Bool.false_eq_true, if_false, if_pos older]

/-- The owners of a name are paired. -/
theorem owner?_rel (corresponds : first.Corresponds links second) (name : String)
    (sees : links.Sees id id') :
    Option.Rel links.paired (first.owner? name id) (second.owner? name id') := by
  induction total : id + id' using Nat.strongRecOn generalizing id id' with
  | ind total inductionHypothesis =>
    subst total
    cases sees with
    | paired pair =>
      obtain ⟨⟨enclosing, bindings⟩, ⟨enclosing', bindings'⟩, found, found', like⟩ :=
        corresponds.scopes pair
      have binds_eq := like.binds_eq name
      rw [Store.owner?.eq_def first, Store.owner?.eq_def second, found, found']
      dsimp only
      rw [binds_eq]
      split
      · exact .some pair
      · cases like.enclosing with
        | none => exact .none
        | some sees =>
          have older := (corresponds.orderedFirst.enclosing trivial found rfl).2
          have older' := (corresponds.orderedSecond.enclosing trivial found' rfl).2
          dsimp only
          rw [if_pos older, if_pos older']
          exact inductionHypothesis _ (Nat.add_lt_add older older') sees rfl
    | hollowFirst hollow sees =>
      have empty := (corresponds.hollowFirst hollow).empty
      have older := (corresponds.orderedFirst.enclosing trivial empty rfl).2
      rw [owner?_hollow empty older]
      exact inductionHypothesis _ (Nat.add_lt_add_right older _) sees rfl
    | hollowSecond hollow sees =>
      have empty := (corresponds.hollowSecond hollow).empty
      have older := (corresponds.orderedSecond.enclosing trivial empty rfl).2
      rw [owner?_hollow empty older]
      exact inductionHypothesis _ (Nat.add_lt_add_left older _) sees rfl

theorem binding?_rel (corresponds : first.Corresponds links second) (name : String)
    (sees : links.Sees id id') :
    Option.Rel (Binding.Like links) (first.binding? id name) (second.binding? id' name) := by
  have owners := corresponds.owner?_rel name sees
  unfold binding?
  generalize first.owner? name id = owner?, second.owner? name id' = owner?' at owners
  cases owners with
  | none => exact .none
  | some pair =>
    obtain ⟨scope, scope', found, found', like⟩ := corresponds.scopes pair
    dsimp only
    rw [found, found']
    exact like.find? name

theorem get?_rel (corresponds : first.Corresponds links second) (name : String)
    (sees : links.Sees id id') :
    Option.Rel (Value.Like links) (first.get? id name) (second.get? id' name) := by
  have bindings := corresponds.binding?_rel name sees
  unfold get?
  generalize first.binding? id name = binding?, second.binding? id' name = binding?' at bindings
  cases bindings with
  | none => exact .none
  | some like => exact .some like.value

theorem isConstant_eq (corresponds : first.Corresponds links second) (name : String)
    (sees : links.Sees id id') : first.isConstant id name = second.isConstant id' name := by
  have bindings := corresponds.binding?_rel name sees
  unfold isConstant
  generalize first.binding? id name = binding?, second.binding? id' name = binding?' at bindings
  cases bindings with
  | none => rfl
  | some like => exact like.constant

theorem binds_eq (corresponds : first.Corresponds links second) (name : String)
    (pair : links.paired id id') : first.binds id name = second.binds id' name := by
  obtain ⟨scope, scope', found, found', like⟩ := corresponds.scopes pair
  unfold Store.binds
  rw [found, found']
  exact like.binds_eq name

/-! ### Changes -/

/-- Bindings of paired scopes are changed in the same way. -/
theorem modify (corresponds : first.Corresponds links second) (pair : links.paired id id')
    {change change' : List Binding → List Binding}
    (changes : ∀ bindings bindings', List.Forall₂ (Binding.Like links) bindings bindings' →
      List.Forall₂ (Binding.Like links) (change bindings) (change' bindings')) :
    (first.modify id change).Corresponds links (second.modify id' change') where
  scopes {other other'} otherPair := by
    obtain ⟨scope, scope', found, found', like⟩ := corresponds.scopes otherPair
    have both := corresponds.oneToOne otherPair pair
    by_cases same : other = id
    · obtain rfl := both.mp same
      obtain rfl := same
      refine ⟨_, _, (scope?_modify_self first other change).trans (congrArg _ found),
        (scope?_modify_self second other' change').trans (congrArg _ found'), ?_⟩
      exact ⟨like.enclosing, changes _ _ like.bindings⟩
    · have different : other' ≠ id' := fun same' => same (both.mpr same')
      exact ⟨scope, scope', (scope?_modify_of_ne first change same).trans found,
        (scope?_modify_of_ne second change' different).trans found', like⟩
  oneToOne := corresponds.oneToOne
  hollowFirst {hollow outer} isHollow := by
    obtain ⟨empty, unpaired⟩ := corresponds.hollowFirst isHollow
    have different : hollow ≠ id := fun same => unpaired id' (same ▸ pair)
    exact ⟨(scope?_modify_of_ne first change different).trans empty, unpaired⟩
  hollowSecond {hollow outer} isHollow := by
    obtain ⟨empty, unpaired⟩ := corresponds.hollowSecond isHollow
    have different : hollow ≠ id' := fun same => unpaired id (same ▸ pair)
    exact ⟨(scope?_modify_of_ne second change' different).trans empty, unpaired⟩
  orderedFirst := corresponds.orderedFirst.modify id change
  orderedSecond := corresponds.orderedSecond.modify id' change'

theorem define (corresponds : first.Corresponds links second) (pair : links.paired id id')
    {value value' : Value} (like : value.Like links value') (name : String) (constant : Bool) :
    (first.define id name value constant).Corresponds links
      (second.define id' name value' constant) :=
  corresponds.modify pair fun _ _ bindings => Binding.define_like bindings like name constant

theorem update (corresponds : first.Corresponds links second) (pair : links.paired id id')
    {value value' : Value} (like : value.Like links value') (name : String) :
    (first.update id name value).Corresponds links (second.update id' name value') :=
  corresponds.modify pair fun _ _ bindings => Binding.update_like bindings like name

/-! ### New scopes -/

/-- New scopes on both sides, inside scopes that see the same, are a pair. -/
theorem push (corresponds : first.Corresponds links second) (sees : links.Sees id id') :
    (first.push (some id)).Corresponds (links.pair first.size second.size)
      (second.push (some id')) where
  scopes pair := by
    have grows := links.grows_pair first.size second.size
    rcases pair with old | ⟨rfl, rfl⟩
    · obtain ⟨scope, scope', found, found', like⟩ := corresponds.scopes old
      obtain ⟨older, older'⟩ := corresponds.lt_size (.paired old)
      exact ⟨scope, scope', (scope?_push_of_lt first _ older).trans found,
        (scope?_push_of_lt second _ older').trans found', like.grow grows⟩
    · exact ⟨_, _, scope?_push_self first _, scope?_push_self second _,
        .some (sees.grow grows), .nil⟩
  oneToOne pair otherPair := by
    rcases pair with old | ⟨rfl, rfl⟩
    · rcases otherPair with other | ⟨rfl, rfl⟩
      · exact corresponds.oneToOne old other
      · obtain ⟨older, older'⟩ := corresponds.lt_size (.paired old)
        exact iff_of_false (Nat.ne_of_lt older) (Nat.ne_of_lt older')
    · rcases otherPair with other | ⟨rfl, rfl⟩
      · obtain ⟨older, older'⟩ := corresponds.lt_size (.paired other)
        exact iff_of_false (Nat.ne_of_gt older) (Nat.ne_of_gt older')
      · exact iff_of_true rfl rfl
  hollowFirst isHollow :=
    (corresponds.hollowFirst isHollow).push _ fun older unpaired id' pair =>
      pair.elim (unpaired id') fun same => Nat.ne_of_lt older same.1
  hollowSecond isHollow :=
    (corresponds.hollowSecond isHollow).push _ fun older unpaired id pair =>
      pair.elim (unpaired id) fun same => Nat.ne_of_lt older same.2
  orderedFirst := corresponds.orderedFirst.push (corresponds.lt_size sees).1
  orderedSecond := corresponds.orderedSecond.push (corresponds.lt_size sees).2

/-- A new scope on the first side alone is hollow. -/
theorem pushFirst (corresponds : first.Corresponds links second) {outer : ScopeId}
    (older : outer < first.size) :
    (first.push (some outer)).Corresponds (links.addHollowFirst first.size outer) second where
  scopes pair := by
    obtain ⟨scope, scope', found, found', like⟩ := corresponds.scopes pair
    exact ⟨scope, scope', (scope?_push_of_lt first _ (lt_size_of_scope? found)).trans found,
      found', like.grow (links.grows_addHollowFirst _ _)⟩
  oneToOne := corresponds.oneToOne
  hollowFirst isHollow := by
    rcases isHollow with old | ⟨rfl, rfl⟩
    · exact (corresponds.hollowFirst old).push _ fun _ unpaired => unpaired
    · refine ⟨scope?_push_self first _, fun id' pair => ?_⟩
      exact Nat.lt_irrefl _ (corresponds.lt_size (.paired pair)).1
  hollowSecond := corresponds.hollowSecond
  orderedFirst := corresponds.orderedFirst.push older
  orderedSecond := corresponds.orderedSecond

/-- A new scope on the second side alone is hollow. -/
theorem pushSecond (corresponds : first.Corresponds links second) {outer : ScopeId}
    (older : outer < second.size) :
    first.Corresponds (links.addHollowSecond second.size outer) (second.push (some outer)) where
  scopes pair := by
    obtain ⟨scope, scope', found, found', like⟩ := corresponds.scopes pair
    exact ⟨scope, scope', found,
      (scope?_push_of_lt second _ (lt_size_of_scope? found')).trans found',
      like.grow (links.grows_addHollowSecond _ _)⟩
  oneToOne := corresponds.oneToOne
  hollowFirst := corresponds.hollowFirst
  hollowSecond isHollow := by
    rcases isHollow with old | ⟨rfl, rfl⟩
    · exact (corresponds.hollowSecond old).push _ fun _ unpaired => unpaired
    · refine ⟨scope?_push_self second _, fun id pair => ?_⟩
      exact Nat.lt_irrefl _ (corresponds.lt_size (.paired pair)).2
  orderedFirst := corresponds.orderedFirst
  orderedSecond := corresponds.orderedSecond.push older

end Corresponds

end Store

end Lox
