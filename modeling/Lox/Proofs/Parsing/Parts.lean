/-
This file says what the trees of programs are made of. Every literal, name and
operator in the tree of a program is one of the tokens of its source, and of a
kind that belongs in its place.
-/

import Lox.Proofs.Parsing.Completeness

namespace Lox

open Token (Kind)

/-! ### Trees and their parts -/

/-- Properties of the literals and the tokens in the places of a tree. -/
structure Parts where
  literal : Literal → Prop
  name : Token → Prop
  sign : Token → Prop
  binary : Token → Prop
  logical : Token → Prop
  closing : Token → Prop

/-- All parts of the expression have the properties of their places. -/
inductive Expr.Built (parts : Parts) : Expr → Prop where
  | literal {value : Literal} (plain : parts.literal value) : Built parts (.literal value)
  | grouping {inner : Expr} (built : Built parts inner) : Built parts (.grouping inner)
  | variable {name : Token} (named : parts.name name) : Built parts (.variable name)
  | assign {name : Token} {value : Expr} (named : parts.name name) (built : Built parts value) :
      Built parts (.assign name value)
  | unary {operator : Token} {operand : Expr} (sign : parts.sign operator)
      (built : Built parts operand) : Built parts (.unary operator operand)
  | binary {left right : Expr} {operator : Token} (builtLeft : Built parts left)
      (binary : parts.binary operator) (builtRight : Built parts right) :
      Built parts (.binary left operator right)
  | logical {left right : Expr} {operator : Token} (builtLeft : Built parts left)
      (logical : parts.logical operator) (builtRight : Built parts right) :
      Built parts (.logical left operator right)
  | call {callee : Expr} {paren : Token} {arguments : List Expr} (builtCallee : Built parts callee)
      (closing : parts.closing paren)
      (builtArguments : ∀ argument ∈ arguments, Built parts argument) :
      Built parts (.call callee paren arguments)

/-- All parts of the statement have the properties of their places. -/
inductive Stmt.Built (parts : Parts) : Stmt → Prop where
  | expression {value : Expr} (built : value.Built parts) : Built parts (.expression value)
  | print {value : Expr} (built : value.Built parts) : Built parts (.print value)
  | var {constant : Bool} {name : Token} {initializer : Option Expr} (named : parts.name name)
      (built : ∀ value ∈ initializer, value.Built parts) :
      Built parts (.var constant name initializer)
  | block {body : List Stmt} (built : ∀ statement ∈ body, Built parts statement) :
      Built parts (.block body)
  | ifThen {condition : Expr} {consequent : Stmt} (builtCondition : condition.Built parts)
      (builtConsequent : Built parts consequent) : Built parts (.ifThen condition consequent)
  | ifElse {condition : Expr} {consequent alternative : Stmt}
      (builtCondition : condition.Built parts) (builtConsequent : Built parts consequent)
      (builtAlternative : Built parts alternative) :
      Built parts (.ifElse condition consequent alternative)
  | while {condition : Expr} {body : Stmt} (builtCondition : condition.Built parts)
      (builtBody : Built parts body) : Built parts (.while condition body)
  | function {name : Token} {parameters : List Token} {body : List Stmt} (named : parts.name name)
      (namedParameters : ∀ parameter ∈ parameters, parts.name parameter)
      (built : ∀ statement ∈ body, Built parts statement) :
      Built parts (.function name parameters body)
  | return {keyword : Token} {value : Option Expr} (built : ∀ result ∈ value, result.Built parts) :
      Built parts (.return keyword value)

namespace Parts

/-- Nothing is asked of any part. -/
def any : Parts where
  literal _ := True
  name _ := True
  sign _ := True
  binary _ := True
  logical _ := True
  closing _ := True

end Parts

/-- All expressions are made of any parts. -/
theorem Expr.built_any : ∀ expression : Expr, expression.Built .any
  | .literal _ => .literal trivial
  | .grouping inner => .grouping inner.built_any
  | .variable _ => .variable trivial
  | .assign _ value => .assign trivial value.built_any
  | .unary _ operand => .unary trivial operand.built_any
  | .binary left _ right => .binary left.built_any trivial right.built_any
  | .logical left _ right => .logical left.built_any trivial right.built_any
  | .call callee _ _ => .call callee.built_any trivial fun argument _ => argument.built_any

/-- All statements are made of any parts. -/
theorem Stmt.built_any : ∀ statement : Stmt, statement.Built .any
  | .expression value => .expression value.built_any
  | .print value => .print value.built_any
  | .var _ _ _ => .var trivial fun value _ => value.built_any
  | .block _ => .block fun statement _ => statement.built_any
  | .ifThen condition consequent => .ifThen condition.built_any consequent.built_any
  | .ifElse condition consequent alternative =>
    .ifElse condition.built_any consequent.built_any alternative.built_any
  | .while condition body => .while condition.built_any body.built_any
  | .function _ _ _ =>
    .function trivial (fun _ _ => trivial) fun statement _ => statement.built_any
  | .return _ _ => .return fun result _ => result.built_any

theorem Stmt.built_pair {parts : Parts} {first second : Stmt} (builtFirst : first.Built parts)
    (builtSecond : second.Built parts) : (block [first, second]).Built parts :=
  .block (List.forall_mem_cons.mpr ⟨builtFirst, List.forall_mem_singleton.mpr builtSecond⟩)

/-- A `for` statement is made of its clauses and of a literal that is true. -/
theorem Stmt.built_forLoop {parts : Parts} {initializer : Option Stmt}
    {condition increment : Option Expr} {body : Stmt} (plain : parts.literal (.boolean true))
    (builtInitializer : ∀ statement ∈ initializer, statement.Built parts)
    (builtCondition : ∀ value ∈ condition, value.Built parts)
    (builtIncrement : ∀ value ∈ increment, value.Built parts) (builtBody : body.Built parts) :
    (forLoop initializer condition increment body).Built parts := by
  have test : (condition.getD (.literal (.boolean true))).Built parts := by
    cases condition with
    | none => exact .literal plain
    | some condition => exact builtCondition condition rfl
  have ofStep {step : Stmt} (builtStep : step.Built parts) :
      (forLoop initializer condition none step).Built parts := by
    cases initializer with
    | none => exact .while test builtStep
    | some initializer =>
      exact built_pair (builtInitializer initializer rfl) (.while test builtStep)
  cases increment with
  | none => exact ofStep builtBody
  | some increment =>
    exact ofStep (built_pair builtBody (.expression (builtIncrement increment rfl)))

/-! ### Parts that are tokens -/

/-- The kinds of unary operators. -/
def signKinds : List Kind := [.bang, .minus]

/-- The kinds of binary operators that evaluate both operands. -/
def binaryKinds : List Kind :=
  [.bangEqual, .equalEqual, .greater, .greaterEqual, .less, .lessEqual, .minus, .plus, .slash,
    .star, .percent]

/-- The kinds of binary operators that may leave their right operand alone. -/
def logicalKinds : List Kind := [.or, .and]

/-- Each part is one of the tokens with the property, and of a kind that fits its place. Only the
condition that a `for` statement lacks is true without a token. -/
def Parts.ofTokens (good : Token → Prop) : Parts where
  literal value := value = .boolean true ∨ ∃ token, good token ∧ Grammar.Atom token (.literal value)
  name token := good token ∧ token.kind = .identifier
  sign token := good token ∧ token.kind ∈ signKinds
  binary token := good token ∧ token.kind ∈ binaryKinds
  logical token := good token ∧ token.kind ∈ logicalKinds
  closing token := good token ∧ token.kind = .rightParen

namespace Grammar

variable {α : Type} {good : Token → Prop}

/-- The phrase makes values with the property of good tokens, and leaves good tokens. -/
def Makes (good : Token → Prop) (property : α → Prop) (phrase : Phrase α) : Prop :=
  ∀ ⦃tokens value rest⦄, phrase tokens value rest → (∀ token ∈ tokens, good token) →
    property value ∧ ∀ token ∈ rest, good token

variable {item : Phrase α} {property : α → Prop}

theorem makes_separated (makes : Makes good property item) :
    Makes good (fun values => ∀ value ∈ values, property value) (Separated item) := by
  intro tokens values rest derives
  induction derives with
  | last value =>
    intro all
    obtain ⟨valueHolds, behind⟩ := makes value all
    exact ⟨List.forall_mem_singleton.mpr valueHolds, behind⟩
  | more first _ _ inductionHypothesis =>
    intro all
    obtain ⟨firstHolds, between⟩ := makes first all
    obtain ⟨othersHold, behind⟩ := inductionHypothesis (List.forall_mem_cons.mp between).2
    exact ⟨List.forall_mem_cons.mpr ⟨firstHolds, othersHold⟩, behind⟩

theorem makes_listed (makes : Makes good property item) :
    Makes good (fun values => ∀ value ∈ values, property value) (Listed item) := by
  intro tokens values rest derives all
  cases derives with
  | none => exact ⟨fun _ member => absurd member List.not_mem_nil, all⟩
  | some separated _ => exact makes_separated makes separated all

theorem makes_name : Makes good (Parts.ofTokens good).name Name := by
  intro tokens name rest derives all
  cases derives with
  | identifier kind =>
    obtain ⟨nameGood, behind⟩ := List.forall_mem_cons.mp all
    exact ⟨⟨nameGood, kind⟩, behind⟩

/-! ### Expressions -/

theorem Atom.built {token : Token} {value : Expr} (atom : Atom token value) (isGood : good token) :
    value.Built (.ofTokens good) := by
  cases atom with
  | name kind => exact .variable ⟨isGood, kind⟩
  | false kind => exact .literal (.inr ⟨token, isGood, .false kind⟩)
  | true kind => exact .literal (.inr ⟨token, isGood, .true kind⟩)
  | nil kind => exact .literal (.inr ⟨token, isGood, .nil kind⟩)
  | string kind => exact .literal (.inr ⟨token, isGood, .string kind⟩)
  | number kind => exact .literal (.inr ⟨token, isGood, .number kind⟩)

theorem Rank.operators_subset_of_tree (rank : Rank) :
    rank.operators ⊆ logicalKinds ∧ rank.tree = .logical ∨
      rank.operators ⊆ binaryKinds ∧ rank.tree = .binary := by
  cases rank with
  | or | and => exact .inl ⟨by decide, rfl⟩
  | assignment | equality | comparison | term | factor | unary | call | primary =>
    exact .inr ⟨by decide, rfl⟩

theorem Rank.built_tree {rank : Rank} {operator : Token} {left right : Expr}
    (builtLeft : left.Built (.ofTokens good)) (isGood : good operator)
    (member : operator.kind ∈ rank.operators) (builtRight : right.Built (.ofTokens good)) :
    (rank.tree left operator right).Built (.ofTokens good) := by
  rcases rank.operators_subset_of_tree with ⟨subset, tree⟩ | ⟨subset, tree⟩
  · rw [tree]
    exact .logical builtLeft ⟨isGood, subset member⟩ builtRight
  · rw [tree]
    exact .binary builtLeft ⟨isGood, subset member⟩ builtRight

theorem makes_expression (rank : Rank) :
    Makes good (Expr.Built (.ofTokens good)) (Expression rank) := by
  intro tokens value rest derives
  refine Expression.induct
    (motive := fun _ tokens value rest => (∀ token ∈ tokens, good token) →
      value.Built (.ofTokens good) ∧ ∀ token ∈ rest, good token)
    ?tighter ?assign ?operation ?unary ?call ?grouping ?atom derives
  case tighter =>
    intro _ _ _ _ _ _ _ inner
    exact inner
  case assign =>
    intro name equal _ _ _ nameKind _ _ value all
    obtain ⟨nameGood, others⟩ := List.forall_mem_cons.mp all
    obtain ⟨built, behind⟩ := value (List.forall_mem_cons.mp others).2
    exact ⟨.assign ⟨nameGood, nameKind⟩ built, behind⟩
  case operation =>
    intro _ _ operator _ _ _ _ _ _ member _ left _ right all
    obtain ⟨builtLeft, between⟩ := left all
    obtain ⟨operatorGood, others⟩ := List.forall_mem_cons.mp between
    obtain ⟨builtRight, behind⟩ := right others
    exact ⟨Rank.built_tree builtLeft operatorGood member builtRight, behind⟩
  case unary =>
    intro operator _ _ _ kind _ operand all
    obtain ⟨operatorGood, others⟩ := List.forall_mem_cons.mp all
    obtain ⟨built, behind⟩ := operand others
    have sign : operator.kind ∈ signKinds := by
      rcases kind with bang | minus
      · rw [bang]
        decide
      · rw [minus]
        decide
    exact ⟨.unary ⟨operatorGood, sign⟩ built, behind⟩
  case call =>
    intro opening closing _ _ _ _ _ _ callee _ arguments closingKind all
    obtain ⟨builtCallee, between⟩ := callee all
    have makes : Makes good (Expr.Built (.ofTokens good)) fun tokens value rest =>
        Expression .assignment tokens value rest ∧ ((∀ token ∈ tokens, good token) →
          value.Built (.ofTokens good) ∧ ∀ token ∈ rest, good token) :=
      fun _ _ _ argument => argument.2
    obtain ⟨builtArguments, behind⟩ :=
      makes_listed makes arguments (List.forall_mem_cons.mp between).2
    obtain ⟨closingGood, others⟩ := List.forall_mem_cons.mp behind
    exact ⟨.call builtCallee ⟨closingGood, closingKind⟩ builtArguments, others⟩
  case grouping =>
    intro _ _ _ _ _ _ _ inner _ all
    obtain ⟨built, behind⟩ := inner (List.forall_mem_cons.mp all).2
    exact ⟨.grouping built, (List.forall_mem_cons.mp behind).2⟩
  case atom =>
    intro token rest value atom all
    obtain ⟨tokenGood, behind⟩ := List.forall_mem_cons.mp all
    exact ⟨atom.built tokenGood, behind⟩

/-! ### Statements and declarations -/

theorem makes_variableDeclaration :
    Makes good (Stmt.Built (.ofTokens good)) VariableDeclaration := by
  intro tokens statement rest derives all
  cases derives with
  | bare _ nameKind _ =>
    obtain ⟨nameGood, others⟩ := List.forall_mem_cons.mp (List.forall_mem_cons.mp all).2
    exact ⟨.var ⟨nameGood, nameKind⟩ fun _ member => absurd member (Option.not_mem_none _),
      (List.forall_mem_cons.mp others).2⟩
  | initialized _ nameKind _ value _ =>
    obtain ⟨nameGood, others⟩ := List.forall_mem_cons.mp (List.forall_mem_cons.mp all).2
    obtain ⟨built, behind⟩ := makes_expression _ value (List.forall_mem_cons.mp others).2
    exact ⟨.var ⟨nameGood, nameKind⟩ fun _ member => Option.some.inj member ▸ built,
      (List.forall_mem_cons.mp behind).2⟩
  | constant _ _ nameKind _ value _ =>
    have named := (List.forall_mem_cons.mp (List.forall_mem_cons.mp all).2).2
    obtain ⟨nameGood, others⟩ := List.forall_mem_cons.mp named
    obtain ⟨built, behind⟩ := makes_expression _ value (List.forall_mem_cons.mp others).2
    exact ⟨.var ⟨nameGood, nameKind⟩ fun _ member => Option.some.inj member ▸ built,
      (List.forall_mem_cons.mp behind).2⟩

theorem makes_expressionStatement :
    Makes good (Stmt.Built (.ofTokens good)) ExpressionStatement := by
  intro tokens statement rest derives all
  cases derives with
  | expression value _ =>
    obtain ⟨built, behind⟩ := makes_expression _ value all
    exact ⟨.expression built, (List.forall_mem_cons.mp behind).2⟩

theorem makes_initializer :
    Makes good (fun statement? => ∀ statement ∈ statement?, statement.Built (.ofTokens good))
      Initializer := by
  intro tokens initializer rest derives all
  cases derives with
  | none _ =>
    exact ⟨fun _ member => absurd member (Option.not_mem_none _), (List.forall_mem_cons.mp all).2⟩
  | declaration derives =>
    obtain ⟨built, behind⟩ := makes_variableDeclaration derives all
    exact ⟨fun _ member => Option.some.inj member ▸ built, behind⟩
  | expression derives =>
    obtain ⟨built, behind⟩ := makes_expressionStatement derives all
    exact ⟨fun _ member => Option.some.inj member ▸ built, behind⟩

theorem makes_clause :
    Makes good (fun value? => ∀ value ∈ value?, value.Built (.ofTokens good)) Clause := by
  intro tokens clause rest derives all
  cases derives with
  | none => exact ⟨fun _ member => absurd member (Option.not_mem_none _), all⟩
  | some derives =>
    obtain ⟨built, behind⟩ := makes_expression _ derives all
    exact ⟨fun _ member => Option.some.inj member ▸ built, behind⟩

mutual

theorem Statement.built {tail : Tail} {tokens rest : List Token} {statement : Stmt} :
    Statement tail tokens statement rest → (∀ token ∈ tokens, good token) →
      statement.Built (.ofTokens good) ∧ ∀ token ∈ rest, good token
  | .expression derives, all => makes_expressionStatement derives all
  | .print _ value _, all => by
    obtain ⟨built, behind⟩ := makes_expression _ value (List.forall_mem_cons.mp all).2
    exact ⟨.print built, (List.forall_mem_cons.mp behind).2⟩
  | .block _ body _, all => by
    obtain ⟨built, behind⟩ := Repeated.built body (List.forall_mem_cons.mp all).2
    exact ⟨.block built, (List.forall_mem_cons.mp behind).2⟩
  | .ifThen _ _ condition _ consequent, all => by
    have inside := (List.forall_mem_cons.mp (List.forall_mem_cons.mp all).2).2
    obtain ⟨builtCondition, between⟩ := makes_expression _ condition inside
    obtain ⟨built, behind⟩ := consequent.built (List.forall_mem_cons.mp between).2
    exact ⟨.ifThen builtCondition built, behind⟩
  | .ifElse _ _ condition _ consequent _ alternative, all => by
    have inside := (List.forall_mem_cons.mp (List.forall_mem_cons.mp all).2).2
    obtain ⟨builtCondition, between⟩ := makes_expression _ condition inside
    obtain ⟨built, behind⟩ := consequent.built (List.forall_mem_cons.mp between).2
    obtain ⟨builtElse, last⟩ := alternative.built (List.forall_mem_cons.mp behind).2
    exact ⟨.ifElse builtCondition built builtElse, last⟩
  | .while _ _ condition _ body, all => by
    have inside := (List.forall_mem_cons.mp (List.forall_mem_cons.mp all).2).2
    obtain ⟨builtCondition, between⟩ := makes_expression _ condition inside
    obtain ⟨built, behind⟩ := body.built (List.forall_mem_cons.mp between).2
    exact ⟨.while builtCondition built, behind⟩
  | .for _ _ initializer condition _ increment _ body, all => by
    have inside := (List.forall_mem_cons.mp (List.forall_mem_cons.mp all).2).2
    obtain ⟨builtInitializer, afterInitializer⟩ := makes_initializer initializer inside
    obtain ⟨builtCondition, atSemicolon⟩ := makes_clause condition afterInitializer
    obtain ⟨builtIncrement, atClosing⟩ :=
      makes_clause increment (List.forall_mem_cons.mp atSemicolon).2
    obtain ⟨builtBody, behind⟩ := body.built (List.forall_mem_cons.mp atClosing).2
    exact ⟨Stmt.built_forLoop (.inl rfl) builtInitializer builtCondition builtIncrement builtBody,
      behind⟩
  | .returnNothing _ _, all =>
    ⟨.return fun _ member => absurd member (Option.not_mem_none _),
      (List.forall_mem_cons.mp (List.forall_mem_cons.mp all).2).2⟩
  | .returnValue _ value _, all => by
    obtain ⟨built, behind⟩ := makes_expression _ value (List.forall_mem_cons.mp all).2
    exact ⟨.return fun _ member => Option.some.inj member ▸ built,
      (List.forall_mem_cons.mp behind).2⟩

theorem Declaration.built {tokens rest : List Token} {statement : Stmt} :
    Declaration tokens statement rest → (∀ token ∈ tokens, good token) →
      statement.Built (.ofTokens good) ∧ ∀ token ∈ rest, good token
  | .variableDeclaration derives, all => makes_variableDeclaration derives all
  | .function _ nameKind _ parameters _ _ body _, all => by
    obtain ⟨nameGood, others⟩ := List.forall_mem_cons.mp (List.forall_mem_cons.mp all).2
    obtain ⟨named, between⟩ :=
      makes_listed makes_name parameters (List.forall_mem_cons.mp others).2
    have inside := (List.forall_mem_cons.mp (List.forall_mem_cons.mp between).2).2
    obtain ⟨built, behind⟩ := Repeated.built body inside
    exact ⟨.function ⟨nameGood, nameKind⟩ named built, (List.forall_mem_cons.mp behind).2⟩
  | .statement derives, all => derives.built all

theorem Repeated.built {tokens rest : List Token} {body : List Stmt} :
    Repeated Declaration tokens body rest → (∀ token ∈ tokens, good token) →
      (∀ statement ∈ body, statement.Built (.ofTokens good)) ∧ ∀ token ∈ rest, good token
  | .nil, all => ⟨fun _ member => absurd member List.not_mem_nil, all⟩
  | .cons first others, all => by
    obtain ⟨built, between⟩ := first.built all
    obtain ⟨builtOthers, behind⟩ := Repeated.built others between
    exact ⟨List.forall_mem_cons.mpr ⟨built, builtOthers⟩, behind⟩

end

end Grammar

/-- The statements of a program without errors are made of tokens of its stream. -/
theorem Program.built {stream : TokenStream} {good : Token → Prop}
    (all : ∀ token ∈ stream.tokens, good token) (clean : (ofStream stream).clean = true) :
    ∀ statement ∈ (ofStream stream).statements, statement.Built (.ofTokens good) := by
  obtain ⟨_, takes⟩ := (clean_ofStream_iff stream _).mp ⟨clean, rfl⟩
  exact (Grammar.Repeated.built (Parser.program_of_takes takes) all).1

end Lox
