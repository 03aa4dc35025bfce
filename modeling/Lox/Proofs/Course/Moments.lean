/-
This file says what a session evaluates and executes on its way. A moment is an
expression or a statement at the point where it is about to run, with its scope
and the machine as it is then. One moment leads to another if running the one
comes to the other: to its operands from left to right as long as they have
values, and from there to whatever it chooses by these values.

What holds of all values that programs compute with holds at all moments of a
session, those deep inside calls and loops included.
-/

import Lox.Proofs.Course.Values

namespace Lox

/-! ### Nodes -/

/-- What can be run in a scope. -/
inductive Node where
  | expression (value : Expr)
  | statement (step : Stmt)

namespace Node

/-- The expressions that are evaluated first, from left to right, whatever values they have. -/
def operands : Node → List Expr
  | .expression (.literal _) | .expression (.variable _) => []
  | .expression (.grouping inner) => [inner]
  | .expression (.assign _ value) => [value]
  | .expression (.unary _ operand) => [operand]
  | .expression (.binary left _ right) => [left, right]
  | .expression (.logical left _ _) => [left]
  | .expression (.call callee _ arguments) => callee :: arguments
  | .statement (.expression value) | .statement (.print value) => [value]
  | .statement (.var _ _ initializer) => initializer.toList
  | .statement (.block _) | .statement (.function _ _ _) => []
  | .statement (.ifThen condition _) | .statement (.ifElse condition _ _)
  | .statement (.while condition _) => [condition]
  | .statement (.return _ value) => value.toList

/-- The test in front of the operands passes: a name that is assigned to is no constant, and a name
that is declared as a variable is free. -/
def Admitted (store : Store) (scope : ScopeId) : Node → Prop
  | .expression (.assign name _) => store.isConstant scope name.lexeme = false
  | .statement (.var _ name _) => store.binds scope name.lexeme = false
  | _ => True

/-- All parts of the node have the properties of their places. -/
def Built (parts : Parts) : Node → Prop
  | .expression value => value.Built parts
  | .statement step => step.Built parts

theorem Built.operands {parts : Parts} {node : Node} (built : node.Built parts) :
    ∀ operand ∈ node.operands, operand.Built parts := by
  have none : ∀ operand ∈ ([] : List Expr), operand.Built parts :=
    fun _ member => absurd member List.not_mem_nil
  have single : ∀ {operand : Expr}, operand.Built parts →
      ∀ other ∈ [operand], other.Built parts :=
    fun builtOperand => List.forall_mem_singleton.mpr builtOperand
  have maybe : ∀ value : Option Expr, (∀ operand ∈ value, operand.Built parts) →
      ∀ operand ∈ value.toList, operand.Built parts :=
    fun _ all operand member => all operand (Option.mem_toList.mp member)
  cases node with
  | expression expression =>
    cases built with
    | literal _ | «variable» _ => exact none
    | grouping inner => exact single inner
    | assign _ value => exact single value
    | unary _ operand => exact single operand
    | binary left _ right => exact List.forall_mem_cons.mpr ⟨left, single right⟩
    | logical left _ _ => exact single left
    | call callee _ arguments => exact List.forall_mem_cons.mpr ⟨callee, arguments⟩
  | statement statement =>
    cases built with
    | expression value | print value => exact single value
    | var _ initializer => exact maybe _ initializer
    | block _ | function _ _ _ => exact none
    | ifThen condition _ | ifElse condition _ _ | «while» condition _ => exact single condition
    | «return» value => exact maybe _ value

end Node

/-! ### Moments -/

/-- A node that is about to run. -/
structure Moment where
  fuel : Nat
  scope : ScopeId
  node : Node
  machine : Machine

namespace Moment

/-- The machine behind the run of the moment. -/
def reached (moment : Moment) : Machine :=
  match moment.node with
  | .expression value => (evaluate moment.fuel moment.scope value moment.machine).2
  | .statement step => (execute moment.fuel moment.scope step moment.machine).2

/-- The expression has the value, or the statement returns it. -/
def Yields (moment : Moment) (result : Value) : Prop :=
  match moment.node with
  | .expression value =>
    (evaluate moment.fuel moment.scope value moment.machine).1 = .value result
  | .statement step =>
    (execute moment.fuel moment.scope step moment.machine).1 = .value (.returned result)

/-- The run of the moment ends with the error. -/
def Fails (moment : Moment) (error : RuntimeError) : Prop :=
  match moment.node with
  | .expression value =>
    (evaluate moment.fuel moment.scope value moment.machine).1 = .error error
  | .statement step => (execute moment.fuel moment.scope step moment.machine).1 = .error error

end Moment

/-- Opens the scope of a call and binds the parameters there. -/
def Run.enter (closure : Closure) (arguments : List Value) (line : Nat) : Run ScopeId := do
  record (.called (.closure closure) arguments.length line)
  let scope ← openScope closure.scope
  bindParameters scope (closure.parameters.zip arguments)
  return scope

/-- Running the one moment comes to the other, with nothing between them but what has been run
already. -/
inductive Moment.Leads : Moment → Moment → Prop
  | operand {fuel : Nat} {scope : ScopeId} {node : Node} {machine reached : Machine}
      {before after : List Expr} {operand : Expr} {values : List Value} :
    node.Admitted machine.store scope → node.operands = before ++ operand :: after →
    Run.each (evaluate fuel scope) before machine = (.value values, reached) →
    Leads ⟨fuel + 1, scope, node, machine⟩ ⟨fuel, scope, .expression operand, reached⟩
  /-- The right operand of `and` and `or`, if the left one does not decide. -/
  | right {fuel : Nat} {scope : ScopeId} {left right : Expr} {operator : Token} {value : Value}
      {machine reached : Machine} :
    evaluate fuel scope left machine = (.value value, reached) →
    value.truthy ≠ decide (operator.kind = .or) →
    Leads ⟨fuel + 1, scope, .expression (.logical left operator right), machine⟩
      ⟨fuel, scope, .expression right, reached⟩
  /-- A statement in the body of a called function. -/
  | body {fuel : Nat} {scope inner : ScopeId} {callee : Expr} {paren : Token}
      {arguments : List Expr} {closure : Closure} {values : List Value}
      {machine called opened reached : Machine} {before after : List Stmt} {statement : Stmt} :
    Run.each (evaluate fuel scope) (callee :: arguments) machine =
      (.value (.function closure :: values), called) →
    values.length = closure.parameters.length →
    Run.enter closure values paren.line called = (.value inner, opened) →
    closure.body = before ++ statement :: after →
    Run.untilReturn (execute fuel inner) before opened = (.value .normal, reached) →
    Leads ⟨fuel + 1, scope, .expression (.call callee paren arguments), machine⟩
      ⟨fuel, inner, .statement statement, reached⟩
  /-- A statement in a block. -/
  | member {fuel : Nat} {scope inner : ScopeId} {machine opened reached : Machine}
      {before after : List Stmt} {statement : Stmt} :
    Run.openScope scope machine = (.value inner, opened) →
    Run.untilReturn (execute fuel inner) before opened = (.value .normal, reached) →
    Leads ⟨fuel + 1, scope, .statement (.block (before ++ statement :: after)), machine⟩
      ⟨fuel, inner, .statement statement, reached⟩
  | consequent {fuel : Nat} {scope : ScopeId} {condition : Expr} {consequent : Stmt} {value : Value}
      {machine reached : Machine} :
    evaluate fuel scope condition machine = (.value value, reached) → value.truthy = true →
    Leads ⟨fuel + 1, scope, .statement (.ifThen condition consequent), machine⟩
      ⟨fuel, scope, .statement consequent, reached.record (.decided value)⟩
  | branch {fuel : Nat} {scope : ScopeId} {condition : Expr} {consequent alternative : Stmt}
      {value : Value} {machine reached : Machine} :
    evaluate fuel scope condition machine = (.value value, reached) →
    Leads ⟨fuel + 1, scope, .statement (.ifElse condition consequent alternative), machine⟩
      ⟨fuel, scope, .statement (if value.truthy then consequent else alternative),
        reached.record (.decided value)⟩
  /-- The body of a loop. -/
  | turn {fuel : Nat} {scope : ScopeId} {condition : Expr} {body : Stmt} {value : Value}
      {machine reached : Machine} :
    evaluate fuel scope condition machine = (.value value, reached) → value.truthy = true →
    Leads ⟨fuel + 1, scope, .statement (.while condition body), machine⟩
      ⟨fuel, scope, .statement body, reached⟩
  /-- The loop once more behind its body. -/
  | again {fuel : Nat} {scope : ScopeId} {condition : Expr} {body : Stmt} {value : Value}
      {machine turned reached : Machine} :
    evaluate fuel scope condition machine = (.value value, turned) → value.truthy = true →
    execute fuel scope body turned = (.value .normal, reached) →
    Leads ⟨fuel + 1, scope, .statement (.while condition body), machine⟩
      ⟨fuel, scope, .statement (.while condition body), reached⟩

namespace Session

/-- The machine on which the statements of a source begin, behind the reports on the source. -/
def prepare (source : String) (machine : Machine) : Machine :=
  let scan := Lexer.scan source
  let program := Program.ofStream scan.stream
  let scanned :=
    (machine.print (Diagnostic.texts scan.diagnostics)).record (.scanned scan.stream.toList.length)
  (scanned.print (Diagnostic.texts program.diagnostics)).record (.parsed program.statements.length)

/-- A source without static errors is run behind the reports on it. -/
theorem runSource_of_clean (fuel : Nat) {source : String} (machine : Machine)
    (scans : (Lexer.scan source).clean = true)
    (parses : (Program.ofStream (Lexer.scan source).stream).clean = true) :
    runSource fuel source machine =
      interpret fuel (Program.ofStream (Lexer.scan source).stream).statements
        (prepare source machine) := by
  simp only [runSource, runScanned, if_pos scans, if_pos parses]
  rfl

/-- The session comes to the moment: one of the statements of a source is about to run, or running
it comes to the moment. -/
inductive Visits (fuel : Nat) : List String → Machine → Moment → Prop
  | statement {source : String} {rest : List String} {machine reached : Machine}
      {before after : List Stmt} {statement : Stmt} :
    (Lexer.scan source).clean = true →
    (Program.ofStream (Lexer.scan source).stream).clean = true →
    (Program.ofStream (Lexer.scan source).stream).statements = before ++ statement :: after →
    Run.untilReturn (execute fuel globalScope) before (prepare source machine) =
      (.value .normal, reached) →
    Visits fuel (source :: rest) machine ⟨fuel, globalScope, .statement statement, reached⟩
  | later {source : String} {rest : List String} {machine : Machine} {moment : Moment} :
    Visits fuel rest (runSource fuel source machine).2 moment →
    Visits fuel (source :: rest) machine moment
  | inner {sources : List String} {machine : Machine} {moment next : Moment} :
    Visits fuel sources machine moment → moment.Leads next → Visits fuel sources machine next

end Session

/-! ### Fine values at moments -/

section

variable {quality : Quality} {scope : ScopeId} {machine : Machine}

/-- A run that follows a course that carries fine values leaves fine values and has a fine end. -/
theorem Quality.Holds.follow {α β : Type} {run : Run α} {course : Course β} {exit : α → Exit β}
    {answer : Store → β → Prop} (holds : quality.Holds scope machine)
    (flows : course.Flows quality answer machine) (follows : Follows exit run course) :
    quality.Holds scope (run machine).2 ∧
      ((run machine).1.exit exit).Fine quality (run machine).2.store answer := by
  obtain ⟨carries, exitFine⟩ := flows
  obtain ⟨ends, reaches⟩ := follows machine
  rw [reaches, ends] at exitFine
  have holdsBehind := holds.performAll carries
  rw [reaches] at holdsBehind
  exact ⟨holdsBehind, exitFine⟩

/-- The node is made of the right parts, and the machine has fine values. -/
structure Moment.Fits (quality : Quality) (moment : Moment) : Prop where
  built : moment.node.Built quality.parts
  holds : quality.Holds moment.scope moment.machine

namespace Course

theorem follow_each {fuel : Nat} {expressions : List Expr} {values : List Value}
    {reached : Machine} (holds : quality.Holds scope machine)
    (built : ∀ expression ∈ expressions, expression.Built quality.parts)
    (ends : Run.each (Lox.evaluate fuel scope) expressions machine = (.value values, reached)) :
    quality.Holds scope reached ∧ ∀ value ∈ values, quality.fine reached.store value := by
  have flows := flows_each holds fun expression member machine holds =>
    (flows_evaluate_execute fuel).1 scope expression machine (built expression member) holds
  have follow := holds.follow flows (Follows.each (Follows.evaluate fuel scope) expressions)
  rw [ends] at follow
  exact follow

theorem follow_evaluate (fuel : Nat) {expression : Expr} (holds : quality.Holds scope machine)
    (built : expression.Built quality.parts) :
    let run := Lox.evaluate fuel scope expression machine
    quality.Holds scope run.2 ∧ (run.1.exit .value).Fine quality run.2.store quality.fine :=
  holds.follow ((flows_evaluate_execute fuel).1 scope expression machine built holds)
    (Follows.evaluate fuel scope expression)

theorem follow_execute (fuel : Nat) {statement : Stmt} (holds : quality.Holds scope machine)
    (built : statement.Built quality.parts) :
    let run := Lox.execute fuel scope statement machine
    quality.Holds scope run.2 ∧
      (run.1.exit Completion.exit).Fine quality run.2.store fun _ _ => True :=
  holds.follow ((flows_evaluate_execute fuel).2 scope statement machine built holds)
    (Follows.execute fuel scope statement)

/-- Behind an expression that has a value. -/
theorem holds_evaluate {fuel : Nat} {expression : Expr} {value : Value} {reached : Machine}
    (holds : quality.Holds scope machine) (built : expression.Built quality.parts)
    (ends : Lox.evaluate fuel scope expression machine = (.value value, reached)) :
    quality.Holds scope reached := by
  have follow := follow_evaluate fuel holds built
  rw [ends] at follow
  exact follow.1

theorem holds_untilReturn {fuel : Nat} {statements : List Stmt} {reached : Machine}
    (holds : quality.Holds scope machine)
    (built : ∀ statement ∈ statements, statement.Built quality.parts)
    (ends : Run.untilReturn (Lox.execute fuel scope) statements machine =
      (.value .normal, reached)) : quality.Holds scope reached := by
  have flows := flows_inOrder holds fun statement member machine holds =>
    (flows_evaluate_execute fuel).2 scope statement machine (built statement member) holds
  have follow := holds.follow flows (Follows.inOrder (Follows.execute fuel scope) statements)
  rw [ends] at follow
  exact follow.1

theorem holds_openScope {inner : ScopeId} {opened : Machine} (holds : quality.Holds scope machine)
    (opens : Run.openScope scope machine = (.value inner, opened)) :
    quality.Holds inner opened := by
  cases opens
  have carries : Action.Carries quality machine.store (.openScope scope) := trivial
  have stays : Action.Stays quality.region machine.store (.openScope scope) :=
    ⟨holds.inside, holds.older⟩
  have opened : machine.store.size < (machine.perform (.openScope scope)).store.size :=
    Nat.lt_of_lt_of_eq (Nat.lt_succ_self _) (Store.size_push _ _).symm
  exact (holds.perform carries stays).move opened (quality.region_of_base_le holds.grown)

theorem holds_record (holds : quality.Holds scope machine) (event : TraceEvent) :
    quality.Holds scope (machine.record event) := by
  have carries : Action.Carries quality machine.store (.record event) := trivial
  have performed := holds.perform carries trivial
  rwa [Machine.perform_record] at performed

/-- The scope of a call has fine values. -/
theorem holds_enter {closure : Closure} {values : List Value} {line : Nat} {inner : ScopeId}
    {opened : Machine} (holds : quality.Holds scope machine)
    (closureFine : quality.fine machine.store (.function closure))
    (valuesFine : ∀ value ∈ values, quality.fine machine.store value)
    (enters : Run.enter closure values line machine = (.value inner, opened)) :
    quality.Holds inner opened := by
  have follows : Follows .value (Run.enter closure values line) (do
      act (.record (.called (.closure closure) values.length line))
      let inner ← openScope closure.scope
      bindParameters inner (closure.parameters.zip values)
      return inner) :=
    Follows.bind (Follows.record _) fun _ => Follows.bind (Follows.openScope _) fun _ =>
      Follows.bind (Follows.bindParameters _ _) fun _ => Follows.pure rfl
  obtain ⟨inside, older, _⟩ := quality.function closureFine
  have holdsOutside := holds.move older inside
  have flows : Flows quality (fun store inner => quality.region inner ∧ inner < store.size) (do
      act (.record (.called (.closure closure) values.length line))
      let inner ← openScope closure.scope
      bindParameters inner (closure.parameters.zip values)
      return inner) machine := by
    refine Flows.bind (flows_act trivial trivial) holdsOutside
      fun _ reached holdsBehind keeps _ => ?_
    refine flows_openScope holdsBehind fun inner reached insideBody keepsOpening => ?_
    refine Flows.bind (flows_bindParameters insideBody fun binding member => ?_) insideBody
      fun _ _ insideBehind _ _ => flows_pure ⟨insideBehind.inside, insideBehind.older⟩
    exact keepsOpening _ (keeps _ (valuesFine _ (List.of_mem_zip member).2))
  have follow := holdsOutside.follow flows follows
  rw [enters] at follow
  exact follow.1.move follow.2.2 follow.2.1

end Course

/-- Moments with fine values lead to moments with fine values. -/
theorem Moment.Fits.leads {moment next : Moment} (fits : moment.Fits quality)
    (leads : moment.Leads next) : next.Fits quality := by
  obtain ⟨built, holds⟩ := fits
  cases leads with
  | operand _ operands ends =>
    have builtOperands := built.operands
    rw [operands] at builtOperands
    obtain ⟨builtBefore, builtBehind⟩ := List.forall_mem_append.mp builtOperands
    obtain ⟨builtOperand, _⟩ := List.forall_mem_cons.mp builtBehind
    exact ⟨builtOperand, (Course.follow_each holds builtBefore ends).1⟩
  | right ends _ =>
    cases built with
    | logical builtLeft _ builtRight =>
      exact ⟨builtRight, Course.holds_evaluate holds builtLeft ends⟩
  | body ends counted enters split statements =>
    have builtOperands := built.operands
    obtain ⟨holdsCalled, fine⟩ := Course.follow_each holds builtOperands ends
    obtain ⟨closureFine, valuesFine⟩ := List.forall_mem_cons.mp fine
    have builtBody := (quality.function closureFine).2.2
    rw [split] at builtBody
    obtain ⟨builtBefore, builtBehind⟩ := List.forall_mem_append.mp builtBody
    have holdsInner := Course.holds_enter holdsCalled closureFine valuesFine enters
    exact ⟨(List.forall_mem_cons.mp builtBehind).1,
      Course.holds_untilReturn holdsInner builtBefore statements⟩
  | member opens statements =>
    cases built with
    | block builtBody =>
      obtain ⟨builtBefore, builtBehind⟩ := List.forall_mem_append.mp builtBody
      have holdsInner := Course.holds_openScope holds opens
      exact ⟨(List.forall_mem_cons.mp builtBehind).1,
        Course.holds_untilReturn holdsInner builtBefore statements⟩
  | consequent ends _ =>
    cases built with
    | ifThen builtCondition builtConsequent =>
      have holdsBehind := Course.holds_evaluate holds builtCondition ends
      exact ⟨builtConsequent, Course.holds_record holdsBehind _⟩
  | branch ends =>
    cases built with
    | ifElse builtCondition builtConsequent builtAlternative =>
      have holdsBehind := Course.holds_evaluate holds builtCondition ends
      refine ⟨?_, Course.holds_record holdsBehind _⟩
      show Stmt.Built quality.parts (if _ then _ else _)
      split
      · exact builtConsequent
      · exact builtAlternative
  | turn ends _ =>
    cases built with
    | «while» builtCondition builtBody =>
      exact ⟨builtBody, Course.holds_evaluate holds builtCondition ends⟩
  | @again fuel _ _ _ _ _ _ _ ends _ turns =>
    refine ⟨built, ?_⟩
    cases built with
    | «while» builtCondition builtBody =>
      have holdsTurned := Course.holds_evaluate holds builtCondition ends
      have follow := Course.follow_execute fuel holdsTurned builtBody
      rw [turns] at follow
      exact follow.1

/-- What a moment with fine values yields is fine. -/
theorem Moment.Fits.fine {moment : Moment} (fits : moment.Fits quality) {result : Value}
    (yields : moment.Yields result) : quality.fine moment.reached.store result := by
  obtain ⟨fuel, scope, node, machine⟩ := moment
  cases node with
  | expression value =>
    have follow := (Course.follow_evaluate fuel fits.holds fits.built).2
    rw [Yields] at yields
    rw [yields] at follow
    exact follow
  | statement step =>
    have follow := (Course.follow_execute fuel fits.holds fits.built).2
    rw [Yields] at yields
    rw [yields] at follow
    exact follow

/-- A moment with fine values fails only as it is allowed to. -/
theorem Moment.Fits.allowed {moment : Moment} (fits : moment.Fits quality) {error : RuntimeError}
    (fails : moment.Fails error) : quality.allowed error := by
  obtain ⟨fuel, scope, node, machine⟩ := moment
  cases node with
  | expression value =>
    have follow := (Course.follow_evaluate fuel fits.holds fits.built).2
    rw [Fails] at fails
    rw [fails] at follow
    exact follow
  | statement step =>
    have follow := (Course.follow_execute fuel fits.holds fits.built).2
    rw [Fails] at fails
    rw [fails] at follow
    exact follow

/-- All sources of the session without static errors are made of the right parts. -/
def Session.Built (parts : Parts) (sources : List String) : Prop :=
  ∀ source ∈ sources, (Program.ofStream (Lexer.scan source).stream).clean = true →
    ∀ statement ∈ (Program.ofStream (Lexer.scan source).stream).statements, statement.Built parts

theorem Session.holds_prepare (holds : quality.Holds scope machine) (source : String) :
    quality.Holds scope (prepare source machine) := by
  have holds_print {machine : Machine} (holds : quality.Holds scope machine) (text : String) :
      quality.Holds scope (machine.print text) := by
    have carries : Action.Carries quality machine.store (.print text) := trivial
    exact holds.perform carries trivial
  exact Course.holds_record (holds_print (Course.holds_record (holds_print holds _) _) _) _

/-- At all moments of a session there are fine values. -/
theorem Session.Visits.fits {fuel : Nat} {sources : List String} {moment : Moment}
    (visits : Visits fuel sources machine moment) (built : Session.Built quality.parts sources)
    (holds : quality.Holds globalScope machine) : moment.Fits quality := by
  induction visits with
  | statement _ parses split ends =>
    have builtSource := built _ List.mem_cons_self parses
    rw [split] at builtSource
    obtain ⟨builtBefore, builtBehind⟩ := List.forall_mem_append.mp builtSource
    exact ⟨(List.forall_mem_cons.mp builtBehind).1,
      Course.holds_untilReturn (holds_prepare holds _) builtBefore ends⟩
  | @later source rest machine moment _ inductionHypothesis =>
    obtain ⟨builtSource, builtRest⟩ := List.forall_mem_cons.mp built
    refine inductionHypothesis builtRest ?_
    have carries : machine.store.Carries quality (Course.runSources fuel [source] machine) :=
      Course.carries_runSources fuel (List.forall_mem_singleton.mpr builtSource) holds
    rw [Course.runSources, Course.runSources, List.append_nil] at carries
    rw [runSource_eq]
    exact holds.performAll carries
  | inner _ leads inductionHypothesis => exact (inductionHypothesis built holds).leads leads

end

end Lox
