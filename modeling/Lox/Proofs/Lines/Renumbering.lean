/-
This file renumbers lines. A renumbering gives the tokens of syntax trees other
lines, also those in the bodies of functions that are values, in stores, and in
actions.

Nothing that a program computes reads a line. Values have the same texts, types
and truth after a renumbering, operators and natives the same results, and names
the same owners. Lines show in errors alone.
-/

import Lox.Proofs.Course
import Lox.Proofs.Scopes.Anchors

namespace Lox

/-! ### Syntax -/

/-- The token on another line. -/
def Token.renumber (lines : Nat → Nat) (token : Token) : Token :=
  { token with line := lines token.line }

theorem Token.lexeme_renumber (lines : Nat → Nat) (token : Token) :
    (token.renumber lines).lexeme = token.lexeme := rfl

mutual

/-- The expression with other lines. -/
def Expr.renumber (lines : Nat → Nat) : Expr → Expr
  | .literal value => .literal value
  | .grouping inner => .grouping (inner.renumber lines)
  | .variable name => .variable (name.renumber lines)
  | .assign name value => .assign (name.renumber lines) (value.renumber lines)
  | .unary operator operand => .unary (operator.renumber lines) (operand.renumber lines)
  | .binary left operator right =>
    .binary (left.renumber lines) (operator.renumber lines) (right.renumber lines)
  | .logical left operator right =>
    .logical (left.renumber lines) (operator.renumber lines) (right.renumber lines)
  | .call callee paren arguments =>
    .call (callee.renumber lines) (paren.renumber lines) (Expr.renumberAll lines arguments)

/-- The expressions with other lines. -/
def Expr.renumberAll (lines : Nat → Nat) : List Expr → List Expr
  | [] => []
  | expression :: rest => expression.renumber lines :: Expr.renumberAll lines rest

end

mutual

/-- The statement with other lines. -/
def Stmt.renumber (lines : Nat → Nat) : Stmt → Stmt
  | .expression value => .expression (value.renumber lines)
  | .print value => .print (value.renumber lines)
  | .var constant name initializer =>
    .var constant (name.renumber lines) (initializer.map (Expr.renumber lines))
  | .block body => .block (Stmt.renumberAll lines body)
  | .ifThen condition consequent =>
    .ifThen (condition.renumber lines) (consequent.renumber lines)
  | .ifElse condition consequent alternative =>
    .ifElse (condition.renumber lines) (consequent.renumber lines) (alternative.renumber lines)
  | .while condition body => .while (condition.renumber lines) (body.renumber lines)
  | .function name parameters body =>
    .function (name.renumber lines) (parameters.map (Token.renumber lines))
      (Stmt.renumberAll lines body)
  | .return keyword value => .return (keyword.renumber lines) (value.map (Expr.renumber lines))

/-- The statements with other lines. -/
def Stmt.renumberAll (lines : Nat → Nat) : List Stmt → List Stmt
  | [] => []
  | statement :: rest => statement.renumber lines :: Stmt.renumberAll lines rest

end

@[simp] theorem Expr.renumberAll_eq_map (lines : Nat → Nat) (expressions : List Expr) :
    Expr.renumberAll lines expressions = expressions.map (Expr.renumber lines) := by
  induction expressions with
  | nil => rfl
  | cons expression rest inductionHypothesis =>
    rw [renumberAll, inductionHypothesis, List.map_cons]

@[simp] theorem Stmt.renumberAll_eq_map (lines : Nat → Nat) (statements : List Stmt) :
    Stmt.renumberAll lines statements = statements.map (Stmt.renumber lines) := by
  induction statements with
  | nil => rfl
  | cons statement rest inductionHypothesis =>
    rw [renumberAll, inductionHypothesis, List.map_cons]

/-! ### Values, stores and actions -/

/-- The function with other lines in its body. -/
def Closure.renumber (lines : Nat → Nat) (closure : Closure) : Closure :=
  { closure with body := closure.body.map (Stmt.renumber lines) }

/-- The value with other lines, if it is a function. -/
def Value.renumber (lines : Nat → Nat) : Value → Value
  | .function closure => .function (closure.renumber lines)
  | value => value

/-- The callable with other lines. -/
def Callable.renumber (lines : Nat → Nat) : Callable → Callable
  | .closure declared => .closure (declared.renumber lines)
  | .native builtin => .native builtin

/-- The error on another line. -/
def RuntimeError.renumber (lines : Nat → Nat) (error : RuntimeError) : RuntimeError :=
  { error with line := lines error.line }

/-- The event with other lines. -/
def TraceEvent.renumber (lines : Nat → Nat) : TraceEvent → TraceEvent
  | .scanned tokens => .scanned tokens
  | .parsed statements => .parsed statements
  | .failed error => .failed (error.renumber lines)
  | .declared constant name value => .declared constant name (value.renumber lines)
  | .defined name arity => .defined name arity
  | .decided condition => .decided (condition.renumber lines)
  | .called callable arguments line => .called (callable.renumber lines) arguments (lines line)

/-- The action with other lines. -/
def Action.renumber (lines : Nat → Nat) : Action → Action
  | .openScope enclosing => .openScope enclosing
  | .bindParameter scope name value => .bindParameter scope name (value.renumber lines)
  | .declareVariable scope name value constant =>
    .declareVariable scope name (value.renumber lines) constant
  | .declareFunction closure => .declareFunction (closure.renumber lines)
  | .update owner name value => .update owner name (value.renumber lines)
  | .print text => .print text
  | .record event => .record (event.renumber lines)
  | .callNative native arguments => .callNative native (arguments.map (Value.renumber lines))

/-- The binding with other lines in its value. -/
def Binding.renumber (lines : Nat → Nat) (binding : Binding) : Binding :=
  { binding with value := binding.value.renumber lines }

/-- The scope with other lines in its values. -/
def Scope.renumber (lines : Nat → Nat) (scope : Scope) : Scope :=
  { scope with bindings := scope.bindings.map (Binding.renumber lines) }

/-- The store with other lines in all values. -/
def Store.renumber (lines : Nat → Nat) (store : Store) : Store :=
  ⟨store.scopes.map (Scope.renumber lines)⟩

/-! ### No renumbering, and one after the other -/

section

variable (lines more : Nat → Nat)

theorem Token.renumber_renumber (token : Token) :
    (token.renumber lines).renumber more = token.renumber (more ∘ lines) := rfl

mutual

theorem Expr.renumber_renumber : ∀ expression : Expr,
    (expression.renumber lines).renumber more = expression.renumber (more ∘ lines)
  | .literal _ | .variable _ => rfl
  | .grouping inner | .assign _ inner | .unary _ inner => by
    simp only [renumber, renumber_renumber inner, Token.renumber_renumber]
  | .binary left _ right | .logical left _ right => by
    simp only [renumber, renumber_renumber left, renumber_renumber right, Token.renumber_renumber]
  | .call callee _ arguments => by
    simp only [renumber, renumber_renumber callee, renumberAll_renumberAll arguments,
      Token.renumber_renumber]

theorem Expr.renumberAll_renumberAll : ∀ expressions : List Expr,
    renumberAll more (renumberAll lines expressions) = renumberAll (more ∘ lines) expressions
  | [] => rfl
  | expression :: rest => by
    simp only [renumberAll, renumber_renumber expression, renumberAll_renumberAll rest]

end

mutual

theorem Stmt.renumber_renumber : ∀ statement : Stmt,
    (statement.renumber lines).renumber more = statement.renumber (more ∘ lines)
  | .expression value | .print value => by simp only [renumber, Expr.renumber_renumber]
  | .var _ _ initializer => by
    cases initializer <;> simp [renumber, Expr.renumber_renumber, Token.renumber_renumber]
  | .block body => by simp only [renumber, renumberAll_renumberAll body]
  | .ifThen _ inner | .while _ inner => by
    simp only [renumber, Expr.renumber_renumber, renumber_renumber inner]
  | .ifElse _ consequent alternative => by
    simp only [renumber, Expr.renumber_renumber, renumber_renumber consequent,
      renumber_renumber alternative]
  | .function _ parameters body => by
    simp only [renumber, renumberAll_renumberAll body, List.map_map, Token.renumber_renumber]
    rfl
  | .return _ value => by
    cases value <;> simp [renumber, Expr.renumber_renumber, Token.renumber_renumber]

theorem Stmt.renumberAll_renumberAll : ∀ statements : List Stmt,
    renumberAll more (renumberAll lines statements) = renumberAll (more ∘ lines) statements
  | [] => rfl
  | statement :: rest => by
    simp only [renumberAll, renumber_renumber statement, renumberAll_renumberAll rest]

end

end

theorem Token.renumber_id : Token.renumber id = id := rfl

mutual

theorem Expr.renumber_id : ∀ expression : Expr, expression.renumber id = expression
  | .literal _ | .variable _ => rfl
  | .grouping inner | .assign _ inner | .unary _ inner => by
    simp only [renumber, renumber_id inner, Token.renumber_id, id_eq]
  | .binary left _ right | .logical left _ right => by
    simp only [renumber, renumber_id left, renumber_id right, Token.renumber_id, id_eq]
  | .call callee _ arguments => by
    simp only [renumber, renumber_id callee, renumberAll_id arguments, Token.renumber_id, id_eq]

theorem Expr.renumberAll_id : ∀ expressions : List Expr, renumberAll id expressions = expressions
  | [] => rfl
  | expression :: rest => by simp only [renumberAll, renumber_id expression, renumberAll_id rest]

end

mutual

theorem Stmt.renumber_id : ∀ statement : Stmt, statement.renumber id = statement
  | .expression value | .print value => by simp only [renumber, Expr.renumber_id]
  | .var _ _ initializer => by
    cases initializer <;> simp [renumber, Expr.renumber_id, Token.renumber_id]
  | .block body => by simp only [renumber, renumberAll_id body]
  | .ifThen _ inner | .while _ inner => by simp only [renumber, Expr.renumber_id, renumber_id inner]
  | .ifElse _ consequent alternative => by
    simp only [renumber, Expr.renumber_id, renumber_id consequent, renumber_id alternative]
  | .function _ parameters body => by
    simp only [renumber, renumberAll_id body, Token.renumber_id, List.map_id, id_eq]
  | .return _ value => by cases value <;> simp [renumber, Expr.renumber_id, Token.renumber_id]

theorem Stmt.renumberAll_id : ∀ statements : List Stmt, renumberAll id statements = statements
  | [] => rfl
  | statement :: rest => by simp only [renumberAll, renumber_id statement, renumberAll_id rest]

end

theorem Stmt.map_renumber_id (statements : List Stmt) :
    statements.map (Stmt.renumber id) = statements := by
  rw [← renumberAll_eq_map, renumberAll_id]

/-! ### Values -/

section

variable (lines more : Nat → Nat)

theorem Closure.renumber_renumber (closure : Closure) :
    (closure.renumber lines).renumber more = closure.renumber (more ∘ lines) := by
  simp only [renumber, List.map_map]
  congr 2
  exact funext fun statement => statement.renumber_renumber lines more

theorem Closure.renumber_id (closure : Closure) : closure.renumber id = closure := by
  rw [renumber, Stmt.map_renumber_id]

namespace Value

theorem renumber_renumber (value : Value) :
    (value.renumber lines).renumber more = value.renumber (more ∘ lines) := by
  cases value with
  | function closure => exact congrArg function (closure.renumber_renumber lines more)
  | nil | boolean _ | int _ | float _ | string _ | native _ => rfl

theorem renumber_id (value : Value) : value.renumber id = value := by
  cases value with
  | function closure => exact congrArg function closure.renumber_id
  | nil | boolean _ | int _ | float _ | string _ | native _ => rfl

theorem NoFunction.renumber {value : Value} (noFunction : value.NoFunction) :
    value.renumber lines = value := by
  cases value with
  | function closure => exact absurd rfl (noFunction closure)
  | nil | boolean _ | int _ | float _ | string _ | native _ => rfl

variable (value : Value)

@[simp] theorem text_renumber : (value.renumber lines).text = value.text := by cases value <;> rfl

@[simp] theorem truthy_renumber : (value.renumber lines).truthy = value.truthy := by
  cases value <;> rfl

theorem callable?_renumber :
    (value.renumber lines).callable? = value.callable?.map (Callable.renumber lines) := by
  cases value <;> rfl

theorem equal_renumber (left right : Value) :
    (left.renumber lines).equal (right.renumber lines) = left.equal right := by
  cases left <;> cases right <;> rfl

end Value

theorem Callable.arity_renumber (callable : Callable) :
    (callable.renumber lines).arity = callable.arity := by
  cases callable <;> rfl

theorem Callable.renumber_id (callable : Callable) : callable.renumber id = callable := by
  cases callable with
  | closure closure => exact congrArg Callable.closure closure.renumber_id
  | native native => rfl

/-! ### Operators and natives -/

theorem NumberPair.of?_renumber (left right : Value) :
    of? (left.renumber lines) (right.renumber lines) = of? left right := by
  cases left <;> cases right <;> rfl

namespace Operator

theorem unary_renumber (operator : Token) (operand : Value) :
    unary (operator.renumber lines) (operand.renumber lines) = unary operator operand := by
  cases operand <;> rfl

theorem binary_renumber (operator : Token) (left right : Value) :
    binary (operator.renumber lines) (left.renumber lines) (right.renumber lines) =
      binary operator left right := by
  have numbers : ∀ pair, onNumbers (operator.renumber lines) pair = onNumbers operator pair := by
    intro pair
    cases pair <;> rfl
  simp only [binary, Value.equal_renumber, NumberPair.of?_renumber, numbers]
  rw [show (operator.renumber lines).kind = operator.kind from rfl]
  cases left <;> cases right <;> rfl

end Operator

namespace Native

theorem pureResult_renumber (native : Native) (arguments : List Value) :
    native.pureResult (arguments.map (Value.renumber lines)) = native.pureResult arguments := by
  match arguments with
  | [] => cases native <;> rfl
  | [first] => cases native <;> simp [pureResult]
  | [first, second] =>
    cases native with
    | clock | input => rfl
    | toText => simp [pureResult]
    | parseText => cases first <;> cases second <;> rfl
    | isInstance => cases first <;> cases second <;> rfl
  | first :: _ :: _ :: _ => cases native <;> simp [pureResult]

theorem call_renumber (native : Native) (arguments : List Value) (inputs : Inputs) :
    native.call (arguments.map (Value.renumber lines)) inputs = native.call arguments inputs := by
  cases native with
  | clock | input => rfl
  | toText | parseText | isInstance => simp only [call, pureResult_renumber]

end Native

end

/-! ### Actions -/

theorem TraceEvent.renumber_id (event : TraceEvent) : event.renumber id = event := by
  cases event with
  | scanned _ | parsed _ | defined _ _ | failed _ => rfl
  | declared constant name value => exact congrArg (declared constant name) value.renumber_id
  | decided condition => exact congrArg decided condition.renumber_id
  | called callable arguments line =>
    exact congrArg (called · arguments line) callable.renumber_id

theorem Action.renumber_id (action : Action) : action.renumber id = action := by
  cases action with
  | openScope _ | print _ => rfl
  | bindParameter scope name value => exact congrArg (bindParameter scope name) value.renumber_id
  | declareVariable scope name value constant =>
    exact congrArg (declareVariable scope name · constant) value.renumber_id
  | declareFunction closure => exact congrArg declareFunction closure.renumber_id
  | update owner name value => exact congrArg (update owner name) value.renumber_id
  | record event => exact congrArg record event.renumber_id
  | callNative native arguments =>
    have same : Value.renumber id = id := funext Value.renumber_id
    rw [renumber, same, List.map_id]

theorem Action.map_renumber_id (actions : List Action) :
    actions.map (Action.renumber id) = actions := by
  have same : Action.renumber id = id := funext renumber_id
  rw [same, List.map_id]

/-! ### Stores -/

section

variable (lines more : Nat → Nat)

namespace Binding

theorem renumber_renumber (binding : Binding) :
    (binding.renumber lines).renumber more = binding.renumber (more ∘ lines) := by
  rw [renumber, renumber, renumber, Value.renumber_renumber]

theorem renumber_id (binding : Binding) : binding.renumber id = binding := by
  rw [renumber, Value.renumber_id]

theorem find?_renumber (name : String) (bindings : List Binding) :
    find? name (bindings.map (renumber lines)) = (find? name bindings).map (renumber lines) := by
  induction bindings with
  | nil => rfl
  | cons binding rest inductionHypothesis =>
    rw [List.map_cons, find?, find?, inductionHypothesis]
    show (if binding.name = name then _ else _) = _
    split <;> rfl

theorem define_renumber (name : String) (value : Value) (constant : Bool)
    (bindings : List Binding) :
    define name (value.renumber lines) constant (bindings.map (renumber lines)) =
      (define name value constant bindings).map (renumber lines) := by
  induction bindings with
  | nil => rfl
  | cons binding rest inductionHypothesis =>
    rw [List.map_cons, define, define, inductionHypothesis]
    show (if binding.name = name then _ else _) = _
    split <;> rfl

theorem update_renumber (name : String) (value : Value) (bindings : List Binding) :
    update name (value.renumber lines) (bindings.map (renumber lines)) =
      (update name value bindings).map (renumber lines) := by
  induction bindings with
  | nil => rfl
  | cons binding rest inductionHypothesis =>
    rw [List.map_cons, update, update, inductionHypothesis]
    show (if binding.name = name then _ else _) = _
    split <;> rfl

end Binding

namespace Scope

theorem renumber_renumber (scope : Scope) :
    (scope.renumber lines).renumber more = scope.renumber (more ∘ lines) := by
  simp only [renumber, List.map_map]
  congr 2
  exact funext fun binding => binding.renumber_renumber lines more

theorem renumber_id (scope : Scope) : scope.renumber id = scope := by
  have same : scope.bindings.map (Binding.renumber id) = scope.bindings :=
    (List.map_congr_left fun binding _ => binding.renumber_id).trans (List.map_id' _)
  rw [renumber, same]

theorem find?_renumber (scope : Scope) (name : String) :
    (scope.renumber lines).find? name = (scope.find? name).map (Binding.renumber lines) :=
  Binding.find?_renumber lines name scope.bindings

theorem binds_renumber (scope : Scope) (name : String) :
    (scope.renumber lines).binds name = scope.binds name := by
  rw [binds, binds, find?_renumber, Option.isSome_map]

end Scope

namespace Store

theorem renumber_renumber (store : Store) :
    (store.renumber lines).renumber more = store.renumber (more ∘ lines) := by
  simp only [renumber, Array.map_map]
  congr 2
  exact funext fun scope => scope.renumber_renumber lines more

theorem renumber_id (store : Store) : store.renumber id = store := by
  have same : Scope.renumber id = id := funext Scope.renumber_id
  rw [renumber, same, Array.map_id]

theorem scope?_renumber (store : Store) (id : ScopeId) :
    (store.renumber lines).scope? id = (store.scope? id).map (Scope.renumber lines) :=
  Array.getElem?_map

theorem size_renumber (store : Store) : (store.renumber lines).size = store.size :=
  Array.size_map

theorem binds_renumber (store : Store) (id : ScopeId) (name : String) :
    (store.renumber lines).binds id name = store.binds id name := by
  rw [binds, binds, scope?_renumber, Option.any_map]
  exact congrArg (Option.any · _) (funext fun scope => scope.binds_renumber lines name)

theorem owner?_renumber (store : Store) (name : String) (id : ScopeId) :
    (store.renumber lines).owner? name id = store.owner? name id := by
  induction id using Nat.strongRecOn with
  | ind id inductionHypothesis =>
    rw [owner?, owner?, scope?_renumber]
    cases store.scope? id with
    | none => rfl
    | some scope =>
      have enclosing : (scope.renumber lines).enclosing = scope.enclosing := rfl
      simp only [Option.map_some, Scope.binds_renumber, enclosing]
      cases scope.enclosing with
      | none => rfl
      | some parent =>
        by_cases older : parent < id
        · simp only [if_pos older, inductionHypothesis parent older]
        · simp only [if_neg older]

theorem binding?_renumber (store : Store) (id : ScopeId) (name : String) :
    (store.renumber lines).binding? id name =
      (store.binding? id name).map (Binding.renumber lines) := by
  rw [binding?, binding?, owner?_renumber]
  cases store.owner? name id with
  | none => rfl
  | some owner =>
    simp only [scope?_renumber]
    cases store.scope? owner with
    | none => rfl
    | some scope => exact scope.find?_renumber lines name

theorem get?_renumber (store : Store) (id : ScopeId) (name : String) :
    (store.renumber lines).get? id name = (store.get? id name).map (Value.renumber lines) := by
  rw [get?, get?, binding?_renumber]
  cases store.binding? id name <;> rfl

theorem isConstant_renumber (store : Store) (id : ScopeId) (name : String) :
    (store.renumber lines).isConstant id name = store.isConstant id name := by
  rw [isConstant, isConstant, binding?_renumber]
  cases store.binding? id name <;> rfl

theorem push_renumber (store : Store) (enclosing : Option ScopeId) :
    (store.renumber lines).push enclosing = (store.push enclosing).renumber lines := by
  simp only [push, renumber, Array.map_push]
  rfl

theorem modify_renumber (store : Store) (id : ScopeId)
    {change changed : List Binding → List Binding}
    (commutes : ∀ bindings, changed (bindings.map (Binding.renumber lines)) =
      (change bindings).map (Binding.renumber lines)) :
    (store.renumber lines).modify id changed = (store.modify id change).renumber lines := by
  refine congrArg Store.mk (Array.ext_getElem? fun other => ?_)
  simp only [renumber, modify, Array.getElem?_map, Array.getElem?_modify]
  cases store.scopes[other]? with
  | none => split <;> rfl
  | some scope =>
    split
    · simp only [Option.map_some, Scope.renumber, commutes]
    · rfl

theorem define_renumber (store : Store) (id : ScopeId) (name : String) (value : Value)
    (constant : Bool) :
    (store.renumber lines).define id name (value.renumber lines) constant =
      (store.define id name value constant).renumber lines :=
  store.modify_renumber lines id (Binding.define_renumber lines name value constant)

/-- Actions with other lines leave stores with other lines. -/
theorem perform_renumber (store : Store) (action : Action) :
    (store.renumber lines).perform (action.renumber lines) =
      (store.perform action).renumber lines := by
  cases action with
  | openScope enclosing => exact store.push_renumber lines (some enclosing)
  | bindParameter scope name value => exact store.define_renumber lines scope name value false
  | declareVariable scope name value constant =>
    exact store.define_renumber lines scope name value constant
  | declareFunction closure =>
    exact store.define_renumber lines closure.scope closure.name (.function closure) false
  | update owner name value =>
    exact store.modify_renumber lines owner (Binding.update_renumber lines name value)
  | print _ | record _ | callNative _ _ => rfl

end Store

theorem Inputs.perform_renumber (inputs : Inputs) (action : Action) :
    inputs.perform (action.renumber lines) = inputs.perform action := by
  cases action with
  | callNative native arguments =>
    exact congrArg Prod.snd (native.call_renumber lines arguments inputs)
  | _ => rfl

end

end Lox
