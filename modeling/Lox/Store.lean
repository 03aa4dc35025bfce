/-
This file is the store of scopes.

A scope binds names to values and has an enclosing scope, except the outermost
one. Scopes are numbered in order of creation and are never removed, because a
closure may refer to its scope long after the block that created it has ended.
A name is looked up along the chain of enclosing scopes, and the first scope
that binds it owns it.
-/

import Lox.Value

namespace Lox

/-- A name with its value, and whether it was declared constant. -/
structure Binding where
  name : String
  value : Value
  constant : Bool

namespace Binding

/-- The binding of a name in a list, if there is one. -/
def find? (name : String) : List Binding → Option Binding
  | [] => none
  | binding :: rest => if binding.name = name then some binding else find? name rest

/-- Binds a name. A name that is bound already gets the new value; it is constant from then on if
the new binding is, and stays constant if it was. -/
def define (name : String) (value : Value) (constant : Bool) : List Binding → List Binding
  | [] => [⟨name, value, constant⟩]
  | binding :: rest =>
    if binding.name = name then ⟨name, value, binding.constant || constant⟩ :: rest
    else binding :: define name value constant rest

/-- Gives a bound name a new value. -/
def update (name : String) (value : Value) : List Binding → List Binding
  | [] => []
  | binding :: rest =>
    if binding.name = name then { binding with value } :: rest
    else binding :: update name value rest

end Binding

/-- A scope: its enclosing scope and its bindings in order of declaration. -/
structure Scope where
  enclosing : Option ScopeId
  bindings : List Binding

namespace Scope

/-- The binding of a name in this scope alone. -/
def find? (scope : Scope) (name : String) : Option Binding := Binding.find? name scope.bindings

/-- The scope binds the name. -/
def binds (scope : Scope) (name : String) : Bool := (scope.find? name).isSome

/-- The names that the scope binds. -/
def names (scope : Scope) : List String := scope.bindings.map Binding.name

/-- The names that are constant in the scope. -/
def constants (scope : Scope) : List String :=
  (scope.bindings.filter Binding.constant).map Binding.name

end Scope

/-- All scopes created so far, by number. -/
structure Store where
  scopes : Array Scope

namespace Store

/-- The store without scopes. -/
def empty : Store := ⟨#[]⟩

/-- The number of scopes, which is the number of the next one. -/
def size (store : Store) : Nat := store.scopes.size

/-- The scope with a number. -/
def scope? (store : Store) (id : ScopeId) : Option Scope := store.scopes[id]?

/-- Adds a scope without bindings; its number is the size of the store before. -/
def push (store : Store) (enclosing : Option ScopeId) : Store :=
  ⟨store.scopes.push ⟨enclosing, []⟩⟩

/-- Changes the bindings of one scope. -/
def modify (store : Store) (id : ScopeId) (change : List Binding → List Binding) : Store :=
  ⟨store.scopes.modify id fun scope => { scope with bindings := change scope.bindings }⟩

/-- Binds a name in a scope. -/
def define (store : Store) (id : ScopeId) (name : String) (value : Value) (constant : Bool) :
    Store :=
  store.modify id (Binding.define name value constant)

/-- The scope binds the name itself. -/
def binds (store : Store) (id : ScopeId) (name : String) : Bool :=
  (store.scope? id).any fun scope => scope.binds name

/-- The first scope on the chain of enclosing scopes that binds the name. Enclosing scopes are
older than the scopes they enclose, so the chain ends. -/
def owner? (store : Store) (name : String) (id : ScopeId) : Option ScopeId :=
  match store.scope? id with
  | none => none
  | some scope =>
    if scope.binds name then
      some id
    else
      match scope.enclosing with
      | none => none
      | some parent => if parent < id then store.owner? name parent else none
termination_by id

/-- The binding of a name as seen from a scope. -/
def binding? (store : Store) (id : ScopeId) (name : String) : Option Binding :=
  match store.owner? name id with
  | none => none
  | some owner => (store.scope? owner).bind fun scope => scope.find? name

/-- The value of a name as seen from a scope. -/
def get? (store : Store) (id : ScopeId) (name : String) : Option Value :=
  (store.binding? id name).map Binding.value

/-- The name is a constant of the scope that owns it. -/
def isConstant (store : Store) (id : ScopeId) (name : String) : Bool :=
  (store.binding? id name).any Binding.constant

/-- Gives a name that a scope binds a new value. -/
def update (store : Store) (id : ScopeId) (name : String) (value : Value) : Store :=
  store.modify id (Binding.update name value)

/-- Gives a name a new value in the scope that owns it, if there is one. -/
def assign? (store : Store) (id : ScopeId) (name : String) (value : Value) : Option Store :=
  (store.owner? name id).map fun owner => store.update owner name value

/-! ### Facts about single scopes -/

@[simp] theorem size_push (store : Store) (enclosing : Option ScopeId) :
    (store.push enclosing).size = store.size + 1 := by
  simp [push, size]

@[simp] theorem size_modify (store : Store) (id : ScopeId)
    (change : List Binding → List Binding) : (store.modify id change).size = store.size := by
  simp [modify, size]

@[simp] theorem size_define (store : Store) (id : ScopeId) (name : String) (value : Value)
    (constant : Bool) : (store.define id name value constant).size = store.size :=
  size_modify _ _ _

/-- A new scope has no bindings. -/
theorem scope?_push_self (store : Store) (enclosing : Option ScopeId) :
    (store.push enclosing).scope? store.size = some ⟨enclosing, []⟩ := by
  simp [push, scope?, size]

/-- Adding a scope leaves the others alone. -/
theorem scope?_push_of_lt (store : Store) (enclosing : Option ScopeId) {id : ScopeId}
    (older : id < store.size) : (store.push enclosing).scope? id = store.scope? id := by
  simp only [size] at older
  simp only [push, scope?, Array.getElem?_push]
  exact if_neg (Nat.ne_of_lt older)

/-- Changing one scope leaves the others alone. -/
theorem scope?_modify_of_ne (store : Store) {id other : ScopeId}
    (change : List Binding → List Binding) (different : other ≠ id) :
    (store.modify id change).scope? other = store.scope? other := by
  simp [modify, scope?, Array.getElem?_modify, Ne.symm different]

/-- Changing a scope changes its bindings and keeps its enclosing scope. -/
theorem scope?_modify_self (store : Store) (id : ScopeId)
    (change : List Binding → List Binding) :
    (store.modify id change).scope? id =
      (store.scope? id).map fun scope => { scope with bindings := change scope.bindings } := by
  simp [modify, scope?, Array.getElem?_modify]

end Store

end Lox
