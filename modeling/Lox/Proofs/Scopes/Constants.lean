/-
This file proves what can happen to a constant. Assignments, variable
declarations and parameters never change its value; only a function that is
declared under its name in its own scope replaces it, and the name goes on
being constant.
-/

import Lox.Proofs.Course.Agreement
import Lox.Proofs.Course.Lawful
import Lox.Proofs.Scopes.Anchors

namespace Lox

/-! ### Functions declared over constants -/

namespace Action

/-- The action declares a function under the name in the scope. -/
def Redefines (scope : ScopeId) (name : String) : Action → Prop
  | .declareFunction closure => closure.scope = scope ∧ closure.name = name
  | _ => False

/-- The value of a constant behind the action: a function declared under its name takes its
place. -/
def rewrite (scope : ScopeId) (name : String) (value : Value) : Action → Value
  | .declareFunction closure =>
    if closure.scope = scope ∧ closure.name = name then .function closure else value
  | _ => value

variable {scope : ScopeId} {name : String}

theorem rewrite_of_not_redefines {action : Action} (other : ¬ action.Redefines scope name)
    (value : Value) : action.rewrite scope name value = value := by
  cases action with
  | declareFunction closure => exact if_neg other
  | openScope _ | bindParameter _ _ _ | declareVariable _ _ _ _ | update _ _ _ | print _
  | record _ | callNative _ _ => rfl

theorem rewrite_of_redefines {action : Action} (redefines : action.Redefines scope name)
    (value : Value) :
    ∃ closure, closure.scope = scope ∧ closure.name = name ∧
      action.rewrite scope name value = .function closure := by
  cases action with
  | declareFunction closure => exact ⟨closure, redefines.1, redefines.2, if_pos redefines⟩
  | openScope _ | bindParameter _ _ _ | declareVariable _ _ _ _ | update _ _ _ | print _
  | record _ | callNative _ _ => exact redefines.elim

/-- Actions none of which declares a function under the name leave the value. -/
theorem foldl_rewrite_of_not_redefines {actions : List Action}
    (others : ∀ action ∈ actions, ¬ action.Redefines scope name) (value : Value) :
    actions.foldl (rewrite scope name) value = value := by
  induction actions with
  | nil => rfl
  | cons action actions inductionHypothesis =>
    rw [List.foldl_cons, rewrite_of_not_redefines (others action List.mem_cons_self)]
    exact inductionHypothesis fun other member => others other (List.mem_cons_of_mem _ member)

/-- Behind a function declared under the name the value is such a function. -/
theorem exists_foldl_rewrite_eq {actions : List Action} {action : Action}
    (member : action ∈ actions) (redefines : action.Redefines scope name) (value : Value) :
    ∃ closure, closure.scope = scope ∧ closure.name = name ∧
      actions.foldl (rewrite scope name) value = .function closure := by
  induction actions generalizing action value with
  | nil => exact absurd member List.not_mem_nil
  | cons first rest inductionHypothesis =>
    rw [List.foldl_cons]
    by_cases later : ∃ other ∈ rest, other.Redefines scope name
    · obtain ⟨other, inside, redefinesOther⟩ := later
      exact inductionHypothesis inside redefinesOther _
    · have others : ∀ other ∈ rest, ¬ other.Redefines scope name :=
        fun other inside redefinesOther => later ⟨other, inside, redefinesOther⟩
      rw [foldl_rewrite_of_not_redefines others]
      rcases List.mem_cons.mp member with rfl | inside
      · exact rewrite_of_redefines redefines value
      · exact absurd redefines (others action inside)

end Action

/-! ### Constants along actions -/

namespace Store

/-- The scope binds the name as a constant with the value. -/
def HoldsConstant (store : Store) (id : ScopeId) (name : String) (value : Value) : Prop :=
  ∃ found, store.scope? id = some found ∧ found.find? name = some ⟨name, value, true⟩

/-- The value that the scope itself binds the name to. -/
def ownValue? (store : Store) (id : ScopeId) (name : String) : Option Value :=
  (store.scope? id).bind fun scope => (scope.find? name).map Binding.value

theorem HoldsConstant.ownValue? {store : Store} {id : ScopeId} {name : String} {value : Value}
    (holds : store.HoldsConstant id name value) : store.ownValue? id name = some value := by
  obtain ⟨found, foundScope, bound⟩ := holds
  rw [Store.ownValue?, foundScope, Option.bind_some, bound, Option.map_some]

variable {store : Store} {id : ScopeId} {name : String} {value : Value}

/-- A definition keeps a constant, unless it is of the same name in the same scope. -/
theorem HoldsConstant.define_of_ne (holds : store.HoldsConstant id name value) {scope : ScopeId}
    {defined : String} (different : ¬ (scope = id ∧ defined = name)) (other : Value)
    (constant : Bool) :
    (store.define scope defined other constant).HoldsConstant id name value := by
  obtain ⟨found, foundScope, bound⟩ := holds
  by_cases same : id = scope
  · subst same
    refine ⟨_, (scope?_modify_self store id _).trans (congrArg (Option.map _) foundScope), ?_⟩
    show Binding.find? name (Binding.define defined other constant found.bindings) = _
    rw [Binding.find?_define, if_neg fun equal => different ⟨rfl, equal⟩]
    exact bound
  · exact ⟨found, (scope?_modify_of_ne store _ same).trans foundScope, bound⟩

/-- A definition of the same name in the same scope gives a constant a new value. -/
theorem HoldsConstant.define_self (holds : store.HoldsConstant id name value) (other : Value)
    (constant : Bool) : (store.define id name other constant).HoldsConstant id name other := by
  obtain ⟨found, foundScope, bound⟩ := holds
  refine ⟨_, (scope?_modify_self store id _).trans (congrArg (Option.map _) foundScope), ?_⟩
  show Binding.find? name (Binding.define name other constant found.bindings) = _
  rw [Binding.find?_define, if_pos rfl]
  rw [Scope.find?] at bound
  rw [bound]
  rfl

/-- A lawful action changes a constant only if it declares a function over it. -/
theorem HoldsConstant.perform {own : ScopeId → Prop} {action : Action}
    (holds : store.HoldsConstant id name value) (lawful : action.Lawful own store) :
    (store.perform action).HoldsConstant id name (action.rewrite id name value) := by
  have found_of := holds
  obtain ⟨found, foundScope, bound⟩ := found_of
  cases action with
  | openScope enclosing =>
    have older := lt_size_of_scope? foundScope
    exact ⟨found, (scope?_push_of_lt store _ older).trans foundScope, bound⟩
  | bindParameter scope parameter argument =>
    refine holds.define_of_ne (fun same => ?_) argument false
    obtain ⟨rfl, rfl⟩ := same
    obtain ⟨_, other, foundOther, free⟩ := lawful
    obtain rfl : found = other := Option.some.inj (foundScope.symm.trans foundOther)
    rw [bound] at free
    exact nomatch free
  | declareVariable scope declared initial constant =>
    refine holds.define_of_ne (fun same => ?_) initial constant
    obtain ⟨rfl, rfl⟩ := same
    obtain ⟨_, other, foundOther, unbound⟩ := lawful
    obtain rfl : found = other := Option.some.inj (foundScope.symm.trans foundOther)
    rw [Scope.binds, bound] at unbound
    exact nomatch unbound
  | declareFunction closure =>
    by_cases same : closure.scope = id ∧ closure.name = name
    · rw [Action.rewrite, if_pos same]
      obtain ⟨rfl, rfl⟩ := same
      exact holds.define_self (.function closure) false
    · rw [Action.rewrite, if_neg same]
      exact holds.define_of_ne same (.function closure) false
  | update owner assigned result =>
    obtain ⟨other, binding, foundOther, foundBinding, notConstant⟩ := lawful
    show (store.update owner assigned result).HoldsConstant id name value
    by_cases same : id = owner
    · subst same
      obtain rfl : found = other := Option.some.inj (foundScope.symm.trans foundOther)
      refine ⟨_, (scope?_modify_self store id _).trans (congrArg (Option.map _) foundScope), ?_⟩
      show Binding.find? name (Binding.update assigned result found.bindings) = _
      rw [Binding.find?_update, if_neg]
      · exact bound
      · rintro rfl
        obtain rfl := Option.some.inj (bound.symm.trans foundBinding)
        exact nomatch notConstant
    · exact ⟨found, (scope?_modify_of_ne store _ same).trans foundScope, bound⟩
  | print _ | record _ | callNative _ _ => exact holds

/-- Lawful actions change a constant only by declaring functions over it. -/
theorem HoldsConstant.performAll {own : ScopeId → Prop} {actions : List Action}
    (holds : store.HoldsConstant id name value) (lawful : store.Lawful own actions) :
    (store.performAll actions).HoldsConstant id name
      (actions.foldl (Action.rewrite id name) value) := by
  induction actions generalizing store value with
  | nil => exact holds
  | cons action actions inductionHypothesis =>
    exact inductionHypothesis (holds.perform lawful.1) lawful.2

/-- A lawful declaration of a constant binds it. -/
theorem holdsConstant_of_declare {own : ScopeId → Prop}
    (lawful : (Action.declareVariable id name value true).Lawful own store) :
    (store.perform (.declareVariable id name value true)).HoldsConstant id name value := by
  obtain ⟨_, found, foundScope, unbound⟩ := lawful
  refine ⟨_, (scope?_modify_self store id _).trans (congrArg (Option.map _) foundScope), ?_⟩
  show Binding.find? name (Binding.define name value true found.bindings) = _
  rw [Binding.find?_define, if_pos rfl, Bool.or_true]

end Store

/-! ### Constants in sessions -/

/-- From its declaration on, in every state of a session on a new machine, a constant has the value
of its declaration exactly as long as no function is declared under its name in its scope, and from
then on the last such function. -/
theorem constant_kept_iff (fuel : Nat) (sources : List String) (inputs : Inputs) (debugLevel : Nat)
    {before later rest : List Action} {scope : ScopeId} {name : String} {value : Value}
    (history : Course.runSources fuel sources (.start inputs debugLevel) =
      before ++ .declareVariable scope name value true :: (later ++ rest)) :
    let start := Machine.start inputs debugLevel
    let bound := start.performAll (before ++ [.declareVariable scope name value true])
    let reached := bound.performAll later
    Session.runSources fuel sources start = reached.performAll rest ∧
      bound.store.ownValue? scope name = some value ∧
      reached.store.ownValue? scope name =
        some (later.foldl (Action.rewrite scope name) value) ∧
      (reached.store.ownValue? scope name = some value ↔
        ∀ action ∈ later, ¬ action.Redefines scope name) := by
  intro start bound reached
  have lawful := Course.lawful_runSources fuel sources
    (Machine.globalScope_lt_size inputs debugLevel)
  have carries := Course.carries_anchored fuel sources inputs debugLevel
  rw [history] at lawful carries
  obtain ⟨_, declares, lawfulBehind⟩ := Store.lawful_append.mp lawful
  obtain ⟨_, anchored, _⟩ := Store.carries_append.mp carries
  have holdsBound := Store.holdsConstant_of_declare declares
  have holdsReached := holdsBound.performAll (Store.lawful_append.mp lawfulBehind).1
  have boundStore : bound.store = (start.store.performAll before).perform
      (.declareVariable scope name value true) := by
    rw [Machine.store_performAll, Store.performAll_append]
    rfl
  have reachedStore : reached.store = bound.store.performAll later := Machine.store_performAll _ _
  rw [reachedStore, boundStore, holdsBound.ownValue?, holdsReached.ownValue?]
  refine ⟨?_, rfl, rfl, fun same action member redefines => ?_, fun others => ?_⟩
  · rw [Session.runSources_eq, history]
    simp only [reached, bound, Machine.performAll_append, Machine.performAll_cons,
      Machine.performAll_nil, start]
  · obtain ⟨closure, rfl, rfl, last⟩ := Action.exists_foldl_rewrite_eq member redefines value
    rw [last] at same
    obtain ⟨_, found, foundScope, unbound⟩ := declares
    have binds := anchored closure (Option.some.inj same).symm
    rw [Store.binds, foundScope, Option.any_some] at binds
    exact Bool.false_ne_true (unbound.symm.trans binds)
  · rw [Action.foldl_rewrite_of_not_redefines others]

/-! ### A function over a constant -/

theorem scan_constant : Lexer.scan "const var x = 1;" =
    ⟨⟨[⟨.const, "const", 1⟩, ⟨.var, "var", 1⟩, ⟨.identifier, "x", 1⟩, ⟨.equal, "=", 1⟩,
      ⟨.number, "1", 1⟩, ⟨.semicolon, ";", 1⟩], ⟨.eof, "", 1⟩⟩, []⟩ := by
  decide +kernel

theorem scan_function : Lexer.scan "fun x() \x7b\x7d" =
    ⟨⟨[⟨.fun, "fun", 1⟩, ⟨.identifier, "x", 1⟩, ⟨.leftParen, "(", 1⟩, ⟨.rightParen, ")", 1⟩,
      ⟨.leftBrace, "\x7b", 1⟩, ⟨.rightBrace, "\x7d", 1⟩], ⟨.eof, "", 1⟩⟩, []⟩ := by
  decide +kernel

/-- A constant of the global scope is overwritten by a function, and is still a constant. -/
theorem function_overwrites_constant :
    let start := Machine.start (.start "" fun _ => 0) 0
    let declared := Session.runSources 3 ["const var x = 1;"] start
    let overwritten := Session.runSources 3 ["const var x = 1;", "fun x() \x7b\x7d"] start
    declared.store.ownValue? globalScope "x" = some (.int 1) ∧
      declared.store.isConstant globalScope "x" = true ∧
      overwritten.store.ownValue? globalScope "x" =
        some (.function ⟨"x", [], [], globalScope⟩) ∧
      overwritten.store.isConstant globalScope "x" = true := by
  simp only [Session.runSources, Session.runSource, scan_constant, scan_function]
  refine ⟨rfl, ?_, rfl, ?_⟩
  · decide +kernel
  · decide +kernel

/-- The same session action by action: the value lasts up to the function and no longer. -/
theorem constant_kept_iff_overwritten :
    let start := Machine.start (.start "" fun _ => 0) 0
    let before : List Action := [.print "", .record (.scanned 7), .print "", .record (.parsed 1)]
    let later : List Action :=
      [.record (.declared true "x" (.int 1)), .print "", .record (.scanned 7), .print "",
        .record (.parsed 1), .declareFunction ⟨"x", [], [], globalScope⟩]
    let bound := start.performAll (before ++ [.declareVariable globalScope "x" (.int 1) true])
    Course.runSources 3 ["const var x = 1;", "fun x() \x7b\x7d"] start =
        before ++ .declareVariable globalScope "x" (.int 1) true ::
          (later ++ [.record (.defined "x" 0)]) ∧
      bound.store.ownValue? globalScope "x" = some (.int 1) ∧
      (bound.performAll later).store.ownValue? globalScope "x" =
        some (.function ⟨"x", [], [], globalScope⟩) := by
  intro start before later bound
  have history : Course.runSources 3 ["const var x = 1;", "fun x() \x7b\x7d"] start =
      before ++ .declareVariable globalScope "x" (.int 1) true ::
        (later ++ [.record (.defined "x" 0)]) := by
    simp only [Course.runSources, Course.runSource, scan_constant, scan_function]
    rfl
  obtain ⟨_, declared, reached, _⟩ :=
    constant_kept_iff 3 ["const var x = 1;", "fun x() \x7b\x7d"] (.start "" fun _ => 0) 0 history
  exact ⟨history, declared, reached⟩

end Lox
