/-
This file proves that every function that a session computes with is anchored:
the scope it was declared in binds its name, then and ever after.

Only function declarations make functions. Operators and natives make none, and
names are never unbound.
-/

import Lox.Proofs.Course.Values
import Lox.Proofs.Scopes.Frame

namespace Lox

/-! ### What makes no functions -/

/-- The value is no declared function. -/
def Value.NoFunction (value : Value) : Prop := ∀ closure, value ≠ .function closure

theorem Literal.noFunction_value (literal : Literal) : literal.value.NoFunction := by
  cases literal <;> exact fun _ => nofun

theorem Operator.noFunction_unary {operator : Token} {operand value : Value}
    (computes : unary operator operand = .ok value) : value.NoFunction := by
  unfold unary at computes
  split at computes
  · cases computes
    exact fun _ => nofun
  · split at computes <;> cases computes <;> exact fun _ => nofun

theorem Operator.noFunction_onNumbers {operator : Token} {pair : NumberPair} {value : Value}
    (computes : onNumbers operator pair = .ok value) : value.NoFunction := by
  cases pair with
  | ints left right =>
    change onInts operator left right = .ok value at computes
    unfold onInts at computes
    repeat' split at computes
    all_goals cases computes
    all_goals exact fun _ => nofun
  | floats left right =>
    change onFloats operator left right = .ok value at computes
    unfold onFloats at computes
    split at computes <;> cases computes <;> exact fun _ => nofun

theorem Operator.noFunction_binary {operator : Token} {left right value : Value}
    (computes : binary operator left right = .ok value) : value.NoFunction := by
  unfold binary at computes
  split at computes
  · cases computes
    exact fun _ => nofun
  · cases computes
    exact fun _ => nofun
  · split at computes
    · cases computes
      exact fun _ => nofun
    · split at computes
      · exact noFunction_onNumbers computes
      · exact nomatch computes
  · split at computes
    · exact noFunction_onNumbers computes
    · exact nomatch computes

namespace Native

theorem noFunction_converted {text : String} {type : ParsedType} {value? : Option Value}
    {value : Value} (converts : converted text type value? = .ok value)
    (noFunction : ∀ value ∈ value?, value.NoFunction) : value.NoFunction := by
  cases value? with
  | none => exact nomatch converts
  | some found =>
    cases converts
    exact noFunction value rfl

theorem noFunction_parseAs {type text : String} {value : Value}
    (parses : parseAs type text = .ok value) : value.NoFunction := by
  unfold parseAs at parses
  split at parses
  · refine noFunction_converted parses fun value found => ?_
    obtain ⟨_, _, rfl⟩ := Option.map_eq_some_iff.mp found
    exact fun _ => nofun
  · refine noFunction_converted parses fun value found => ?_
    obtain ⟨_, _, rfl⟩ := Option.map_eq_some_iff.mp found
    exact fun _ => nofun
  · refine noFunction_converted parses fun value found => ?_
    obtain ⟨_, _, rfl⟩ := Option.map_eq_some_iff.mp found
    exact fun _ => nofun
  · cases parses
    exact fun _ => nofun
  · exact nomatch parses

theorem noFunction_hasType {type : String} {subject value : Value}
    (asks : hasType type subject = .ok value) : value.NoFunction := by
  rw [hasType] at asks
  split at asks
  · cases asks
    exact fun _ => nofun
  · exact nomatch asks

theorem noFunction_pureResult {native : Native} {arguments : List Value} {value : Value}
    (computes : native.pureResult arguments = .ok value) : value.NoFunction := by
  unfold pureResult at computes
  split at computes
  · cases computes
    exact fun _ => nofun
  · exact noFunction_parseAs computes
  · exact nomatch computes
  · exact noFunction_hasType computes
  · exact nomatch computes
  · exact nomatch computes

theorem noFunction_call {native : Native} {arguments : List Value} {inputs : Inputs}
    {value : Value} (computes : (native.call arguments inputs).1 = .ok value) :
    value.NoFunction := by
  cases native with
  | clock =>
    cases computes
    exact fun _ => nofun
  | input =>
    cases computes
    exact fun _ => nofun
  | toText | parseText | isInstance => exact noFunction_pureResult computes

end Native

/-! ### Names stay bound -/

namespace Store

theorem binds_iff {store : Store} {id : ScopeId} {name : String} :
    store.binds id name = true ↔
      ∃ scope, store.scope? id = some scope ∧ scope.binds name = true := by
  rw [binds]
  cases store.scope? id with
  | none => simp
  | some scope => simp

theorem binds_modify {store : Store} {id : ScopeId} {name : String}
    (bound : store.binds id name = true) (other : ScopeId)
    {change : List Binding → List Binding}
    (kept : ∀ bindings, (Binding.find? name bindings).isSome = true →
      (Binding.find? name (change bindings)).isSome = true) :
    (store.modify other change).binds id name = true := by
  obtain ⟨scope, found, binds⟩ := binds_iff.mp bound
  by_cases same : id = other
  · subst same
    refine binds_iff.mpr ⟨_, (scope?_modify_self store id change).trans
      (congrArg (Option.map _) found), ?_⟩
    exact kept scope.bindings binds
  · exact binds_iff.mpr ⟨scope, (scope?_modify_of_ne store change same).trans found, binds⟩

theorem binds_define {store : Store} {id : ScopeId} {name : String}
    (bound : store.binds id name = true) (scope : ScopeId) (defined : String) (value : Value)
    (constant : Bool) : (store.define scope defined value constant).binds id name = true := by
  refine binds_modify bound scope fun bindings isBound => ?_
  rw [Binding.find?_define]
  split
  · rfl
  · exact isBound

/-- A definition in a scope that exists binds its name. -/
theorem binds_define_self {store : Store} {id : ScopeId} (older : id < store.size)
    (name : String) (value : Value) (constant : Bool) :
    (store.define id name value constant).binds id name = true := by
  obtain ⟨scope, found⟩ := exists_scope?_of_lt older
  refine binds_iff.mpr ⟨_, (scope?_modify_self store id _).trans
    (congrArg (Option.map _) found), ?_⟩
  show (Binding.find? name (Binding.define name value constant scope.bindings)).isSome = true
  rw [Binding.find?_define, if_pos rfl]
  rfl

/-- No action unbinds a name. -/
theorem binds_perform {store : Store} {id : ScopeId} {name : String}
    (bound : store.binds id name = true) (action : Action) :
    (store.perform action).binds id name = true := by
  cases action with
  | openScope enclosing =>
    obtain ⟨scope, found, binds⟩ := binds_iff.mp bound
    have older := lt_size_of_scope? found
    exact binds_iff.mpr ⟨scope, (scope?_push_of_lt store _ older).trans found, binds⟩
  | bindParameter scope defined value => exact binds_define bound scope defined value false
  | declareVariable scope defined value constant =>
    exact binds_define bound scope defined value constant
  | declareFunction closure =>
    exact binds_define bound closure.scope closure.name (.function closure) false
  | update owner assigned value =>
    refine binds_modify bound owner fun bindings isBound => ?_
    rw [Binding.find?_update]
    split
    · next same => rwa [same, Option.isSome_map]
    · exact isBound
  | print _ | record _ | callNative _ _ => exact bound

end Store

/-! ### Anchored functions -/

/-- The value is no function, or one whose name is bound in the scope it was declared in. -/
def Value.Anchored (store : Store) (value : Value) : Prop :=
  ∀ closure, value = .function closure → store.binds closure.scope closure.name = true

theorem Value.NoFunction.anchored {value : Value} (noFunction : value.NoFunction)
    (store : Store) : value.Anchored store :=
  fun closure same => absurd same (noFunction closure)

theorem Value.Anchored.lt_size {store : Store} {closure : Closure}
    (anchored : Value.Anchored store (.function closure)) : closure.scope < store.size := by
  obtain ⟨scope, found, _⟩ := Store.binds_iff.mp (anchored closure rfl)
  exact Store.lt_size_of_scope? found

/-- To be anchored is handed on by all that programs do. -/
def Quality.anchored : Quality where
  parts := .any
  ready _ := True
  region _ := True
  base := 0
  fine store value := value.Anchored store
  allowed _ := True
  region_of_base_le _ := trivial
  nil store := (Literal.noFunction_value .nil).anchored store
  literal _ := (Literal.noFunction_value _).anchored _
  unary _ _ := meets_of_ok fun _ computes => (Operator.noFunction_unary computes).anchored _
  binary _ _ _ := meets_of_ok fun _ computes => (Operator.noFunction_binary computes).anchored _
  native _ _ _ _ := meets_of_ok fun _ computes => (Native.noFunction_call computes).anchored _
  ready_call _ _ _ := trivial
  perform anchored action closure same := Store.binds_perform (anchored closure same) action
  declare _ _ older _ closure same := by
    cases same
    exact Store.binds_define_self older _ _ _
  function anchored := ⟨trivial, anchored.lt_size, fun statement _ => statement.built_any⟩
  undefined _ := trivial
  constant _ := trivial
  declared _ := trivial
  notCallable _ := trivial
  argumentCount _ _ := trivial

theorem Quality.anchored_start (inputs : Inputs) (debugLevel : Nat) :
    anchored.Holds globalScope (Machine.start inputs debugLevel) :=
  holds_start debugLevel trivial rfl (fun _ _ => nofun) trivial

/-- In a session on a new machine all functions are anchored. -/
theorem Course.carries_anchored (fuel : Nat) (sources : List String) (inputs : Inputs)
    (debugLevel : Nat) :
    (Machine.start inputs debugLevel).store.Carries .anchored
      (runSources fuel sources (Machine.start inputs debugLevel)) :=
  carries_runSources fuel (fun _ _ _ statement _ => statement.built_any)
    (Quality.anchored_start inputs debugLevel)

end Lox
