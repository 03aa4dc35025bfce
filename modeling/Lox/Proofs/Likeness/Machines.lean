/-
This file compares machines. Machines are alike if they have printed the same,
have the same left to read, have noted the same, and have stores that
correspond. Every machine of a session is alike to itself, and like actions keep
machines alike.
-/

import Lox.Proofs.Course.Reachable
import Lox.Proofs.Likeness.Stores

namespace Lox

variable {links : Links}

/-! ### Events -/

/-- The events are noted at the same level with the same text. -/
structure TraceEvent.Like (first second : TraceEvent) : Prop where
  level : first.level = second.level
  text : first.text = second.text

namespace TraceEvent

theorem Like.refl (event : TraceEvent) : event.Like event := ⟨rfl, rfl⟩

theorem like_declared {value value' : Value} (like : value.Like links value') (constant : Bool)
    (name : String) : Like (.declared constant name value) (.declared constant name value') where
  level := rfl
  text := by
    unfold text
    dsimp only
    rw [like.text_eq]

theorem like_decided {value value' : Value} (like : value.Like links value') :
    Like (.decided value) (.decided value') where
  level := rfl
  text := by
    unfold text
    dsimp only
    rw [like.text_eq, like.truthy_eq]

theorem like_called {callable callable' : Callable} (like : callable.Like links callable')
    (arguments line : Nat) :
    Like (.called callable arguments line) (.called callable' arguments line) := by
  cases like <;> exact ⟨rfl, rfl⟩

end TraceEvent

/-! ### Machines -/

/-- The machines differ in nothing but how their scopes are numbered and in hollow scopes. -/
structure Machine.Alike (links : Links) (first second : Machine) : Prop where
  stores : first.store.Corresponds links second.store
  inputs : first.inputs = second.inputs
  output : first.output = second.output
  debugLevel : first.debugLevel = second.debugLevel
  trace : first.trace.map TraceEvent.text = second.trace.map TraceEvent.text
  traceOpen : first.traceOpen = second.traceOpen

namespace Machine

variable {first second : Machine}

theorem Alike.print (alike : first.Alike links second) (text : String) :
    (first.print text).Alike links (second.print text) :=
  { alike with output := congrArg (· ++ text) alike.output }

theorem Alike.record (alike : first.Alike links second) {event event' : TraceEvent}
    (like : event.Like event') : (first.record event).Alike links (second.record event') := by
  have level_iff : event.level ≤ first.debugLevel ↔ event'.level ≤ second.debugLevel := by
    rw [like.level, alike.debugLevel]
  unfold Machine.record
  by_cases noted : event.level ≤ first.debugLevel
  · rw [if_pos noted, if_pos (level_iff.mp noted)]
    by_cases isOpen : first.traceOpen = true
    · rw [if_pos isOpen, if_pos (alike.traceOpen ▸ isOpen)]
      refine { alike with trace := ?_ }
      rw [Array.map_push, Array.map_push, alike.trace, like.text]
    · rw [if_neg isOpen, if_neg (alike.traceOpen ▸ isOpen), like.text]
      exact alike.print _
  · rw [if_neg noted, if_neg fun noted' => noted (level_iff.mpr noted')]
    exact alike

/-- The scopes of one machine, each paired with itself. -/
def ownLinks (machine : Machine) : Links where
  paired id id' := id = id' ∧ id < machine.store.size
  hollowFirst _ _ := False
  hollowSecond _ _ := False

/-- A machine of a session is alike to itself. -/
theorem Reachable.alike {machine : Machine} (reachable : machine.Reachable) :
    machine.Alike machine.ownLinks machine where
  inputs := rfl
  output := rfl
  debugLevel := rfl
  trace := rfl
  traceOpen := rfl
  stores := by
    have sees {id : ScopeId} (older : id < machine.store.size) : machine.ownLinks.Sees id id :=
      .paired ⟨rfl, older⟩
    have ordered : machine.store.Ordered := reachable.anchored.sealed.mono fun _ _ => trivial
    have likeItself {id : ScopeId} {scope : Scope} (found : machine.store.scope? id = some scope) :
        scope.Like machine.ownLinks scope := by
      constructor
      · cases enclosed : scope.enclosing with
        | none => exact .none
        | some outer =>
          have older := reachable.enclosing_lt found enclosed
          exact .some (sees (Nat.lt_trans older (Store.lt_size_of_scope? found)))
      · refine List.forall₂_same.mpr fun binding member => ⟨rfl, ?_, rfl⟩
        cases value : binding.value with
        | nil | boolean _ | int _ | float _ | string _ | native _ => exact .plain fun _ => nofun
        | function closure =>
          exact .function (sees (reachable.closure_lt_size found member value))
    constructor
    · rintro id id' ⟨rfl, older⟩
      obtain ⟨scope, found⟩ := Store.exists_scope?_of_lt older
      exact ⟨scope, scope, found, found, likeItself found⟩
    · rintro id id' other other' ⟨rfl, _⟩ ⟨rfl, _⟩
      exact Iff.rfl
    · exact fun hollow => hollow.elim
    · exact fun hollow => hollow.elim
    · exact ordered
    · exact ordered

end Machine

/-! ### Actions -/

/-- The actions do the same in scopes that are paired, with values that are alike. -/
inductive Action.Like (links : Links) : Action → Action → Prop
  | bindParameter {scope scope' : ScopeId} {value value' : Value} (name : String) :
    links.paired scope scope' → value.Like links value' →
    Like links (.bindParameter scope name value) (.bindParameter scope' name value')
  | declareVariable {scope scope' : ScopeId} {value value' : Value} (name : String)
      (constant : Bool) :
    links.paired scope scope' → value.Like links value' →
    Like links (.declareVariable scope name value constant)
      (.declareVariable scope' name value' constant)
  | declareFunction {scope scope' : ScopeId} (name : String) (parameters : List String)
      (body : List Stmt) :
    links.paired scope scope' →
    Like links (.declareFunction ⟨name, parameters, body, scope⟩)
      (.declareFunction ⟨name, parameters, body, scope'⟩)
  | update {owner owner' : ScopeId} {value value' : Value} (name : String) :
    links.paired owner owner' → value.Like links value' →
    Like links (.update owner name value) (.update owner' name value')
  | print (text : String) : Like links (.print text) (.print text)
  | record {event event' : TraceEvent} : event.Like event' →
    Like links (.record event) (.record event')
  | callNative {arguments arguments' : List Value} (native : Native) :
    List.Forall₂ (Value.Like links) arguments arguments' →
    Like links (.callNative native arguments) (.callNative native arguments')

theorem Action.Like.grow {more : Links} {action action' : Action} (like : action.Like links action')
    (grows : links.Grows more) : action.Like more action' := by
  cases like with
  | bindParameter name pair value =>
    exact .bindParameter name (grows.paired pair) (value.grow grows)
  | declareVariable name constant pair value =>
    exact .declareVariable name constant (grows.paired pair) (value.grow grows)
  | declareFunction name parameters body pair =>
    exact .declareFunction name parameters body (grows.paired pair)
  | update name pair value => exact .update name (grows.paired pair) (value.grow grows)
  | print text => exact .print text
  | record event => exact .record event
  | callNative native arguments =>
    exact .callNative native (arguments.imp fun _ _ argument => argument.grow grows)

/-- Like actions keep machines alike. -/
theorem Machine.Alike.perform {first second : Machine} (alike : first.Alike links second)
    {action action' : Action} (like : action.Like links action') :
    (first.perform action).Alike links (second.perform action') := by
  cases like with
  | bindParameter name pair valueLike =>
    exact { alike with stores := alike.stores.define pair valueLike name false }
  | declareVariable name constant pair valueLike =>
    exact { alike with stores := alike.stores.define pair valueLike name constant }
  | declareFunction name parameters body pair =>
    exact { alike with
      stores := alike.stores.define pair (.function (.paired pair)) name false }
  | update name pair valueLike =>
    exact { alike with stores := alike.stores.update pair valueLike name }
  | print text => exact alike.print text
  | record eventLike =>
    rw [perform_record, perform_record]
    exact alike.record eventLike
  | callNative native argumentsLike =>
    refine { alike with inputs := ?_ }
    show (native.call _ first.inputs).2 = (native.call _ second.inputs).2
    rw [alike.inputs, Native.call_eq argumentsLike]

end Lox
