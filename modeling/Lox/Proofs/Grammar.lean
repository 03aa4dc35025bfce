/-
This file is the grammar of the language, apart from any way of parsing it.

A phrase relates the tokens it begins at, the tree it stands for and the tokens
behind it. Binary operators group to the left, because only their left operand
may be of their own rank; assignment groups to the right. A statement that ends
in an `if` without `else` dangles, and no `else` may follow a dangling
statement inside a conditional: this is what binds an `else` to the nearest
`if`.
-/

import Lox.Syntax

namespace Lox.Grammar

open Token (Kind)

/-- A kind of phrase: the tokens it begins at, what it stands for, and the tokens behind it. -/
abbrev Phrase (α : Type) : Type := List Token → α → List Token → Prop

variable {α : Type}

/-! ### Lists -/

/-- Items one behind the other. -/
inductive Repeated (item : Phrase α) : Phrase (List α)
  | nil {tokens : List Token} : Repeated item tokens [] tokens
  | cons {tokens between rest : List Token} {first : α} {others : List α} :
    item tokens first between → Repeated item between others rest →
    Repeated item tokens (first :: others) rest

/-- One or more items with commas between them. -/
inductive Separated (item : Phrase α) : Phrase (List α)
  | last {tokens rest : List Token} {value : α} :
    item tokens value rest → Separated item tokens [value] rest
  | more {tokens between rest : List Token} {comma : Token} {first : α} {others : List α} :
    item tokens first (comma :: between) → comma.kind = .comma →
    Separated item between others rest → Separated item tokens (first :: others) rest

/-- At most 255 items with commas between them. -/
inductive Listed (item : Phrase α) : Phrase (List α)
  | none {tokens : List Token} : Listed item tokens [] tokens
  | some {tokens rest : List Token} {values : List α} :
    Separated item tokens values rest → values.length ≤ 255 → Listed item tokens values rest

/-- A name. -/
inductive Name : Phrase Token
  | identifier {name : Token} {rest : List Token} :
    name.kind = .identifier → Name (name :: rest) name rest

section Lists

variable {item other : Phrase α} {tokens rest : List Token} {values : List α}

theorem Separated.length_lt
    (shorter : ∀ {tokens value rest}, item tokens value rest → rest.length < tokens.length)
    (derives : Separated item tokens values rest) : rest.length < tokens.length := by
  induction derives with
  | last value => exact shorter value
  | more first _ _ inductionHypothesis =>
    have taken := shorter first
    rw [List.length_cons] at taken
    omega

theorem Listed.length_le
    (shorter : ∀ {tokens value rest}, item tokens value rest → rest.length < tokens.length)
    (derives : Listed item tokens values rest) : rest.length ≤ tokens.length := by
  cases derives with
  | none => exact Nat.le_refl _
  | some separated _ => exact Nat.le_of_lt (separated.length_lt shorter)

end Lists

/-! ### Expressions -/

/-- The ranks of expressions, loosest first. -/
inductive Rank where
  | assignment | or | and | equality | comparison | term | factor | unary | call | primary
  deriving DecidableEq

namespace Rank

/-- The rank of the operands of a rank, if there is one. -/
def tighter? : Rank → Option Rank
  | assignment => some or
  | or => some and
  | and => some equality
  | equality => some comparison
  | comparison => some term
  | term => some factor
  | factor => some unary
  | unary => some call
  | call => some primary
  | primary => none

/-- The binary operators of a rank. -/
def operators : Rank → List Kind
  | or => [.or]
  | and => [.and]
  | equality => [.bangEqual, .equalEqual]
  | comparison => [.greater, .greaterEqual, .less, .lessEqual]
  | term => [.minus, .plus]
  | factor => [.slash, .star, .percent]
  | _ => []

/-- The tree of a binary operator of a rank. -/
def tree : Rank → Expr → Token → Expr → Expr
  | or | and => .logical
  | _ => .binary

end Rank

/-- The literals and names that are a single token. -/
inductive Atom : Token → Expr → Prop
  | false {token : Token} : token.kind = .false → Atom token (.literal (.boolean false))
  | true {token : Token} : token.kind = .true → Atom token (.literal (.boolean true))
  | nil {token : Token} : token.kind = .nil → Atom token (.literal .nil)
  | string {token : Token} : token.kind = .string → Atom token (.literal (.ofString token.lexeme))
  | number {token : Token} : token.kind = .number → Atom token (.literal (.ofNumber token.lexeme))
  | name {token : Token} : token.kind = .identifier → Atom token (.variable token)

/-- An expression of a rank. -/
inductive Expression : Rank → Phrase Expr
  /-- An expression of the rank below. -/
  | tighter {rank next : Rank} {tokens rest : List Token} {value : Expr} :
    rank.tighter? = some next → Expression next tokens value rest →
    Expression rank tokens value rest
  /-- `name = value` -/
  | assign {name equal : Token} {tokens rest : List Token} {value : Expr} :
    name.kind = .identifier → equal.kind = .equal →
    Expression .assignment tokens value rest →
    Expression .assignment (name :: equal :: tokens) (.assign name value) rest
  /-- `left operator right` -/
  | operation {rank next : Rank} {operator : Token} {tokens between rest : List Token}
      {left right : Expr} :
    rank.tighter? = some next → operator.kind ∈ rank.operators →
    Expression rank tokens left (operator :: between) → Expression next between right rest →
    Expression rank tokens (rank.tree left operator right) rest
  /-- `! operand` and `- operand` -/
  | unary {operator : Token} {tokens rest : List Token} {operand : Expr} :
    operator.kind = .bang ∨ operator.kind = .minus → Expression .unary tokens operand rest →
    Expression .unary (operator :: tokens) (.unary operator operand) rest
  /-- `callee ( arguments )` -/
  | call {opening closing : Token} {tokens between rest : List Token} {callee : Expr}
      {arguments : List Expr} :
    Expression .call tokens callee (opening :: between) → opening.kind = .leftParen →
    Listed (Expression .assignment) between arguments (closing :: rest) →
    closing.kind = .rightParen →
    Expression .call tokens (.call callee closing arguments) rest
  /-- `( inner )` -/
  | grouping {opening closing : Token} {tokens rest : List Token} {inner : Expr} :
    opening.kind = .leftParen → Expression .assignment tokens inner (closing :: rest) →
    closing.kind = .rightParen → Expression .primary (opening :: tokens) (.grouping inner) rest
  /-- A literal or a name. -/
  | atom {token : Token} {rest : List Token} {value : Expr} :
    Atom token value → Expression .primary (token :: rest) value rest

section Induction

variable {motive : Rank → Phrase Expr}
  (tighter : ∀ {rank next tokens rest value}, rank.tighter? = some next →
    Expression next tokens value rest → motive next tokens value rest →
    motive rank tokens value rest)
  (assign : ∀ {name equal : Token} {tokens rest value}, name.kind = .identifier →
    equal.kind = .equal → Expression .assignment tokens value rest →
    motive .assignment tokens value rest →
    motive .assignment (name :: equal :: tokens) (.assign name value) rest)
  (operation : ∀ {rank next} {operator : Token} {tokens between rest left right},
    rank.tighter? = some next → operator.kind ∈ rank.operators →
    Expression rank tokens left (operator :: between) →
    motive rank tokens left (operator :: between) →
    Expression next between right rest → motive next between right rest →
    motive rank tokens (rank.tree left operator right) rest)
  (unary : ∀ {operator : Token} {tokens rest operand},
    operator.kind = .bang ∨ operator.kind = .minus → Expression .unary tokens operand rest →
    motive .unary tokens operand rest →
    motive .unary (operator :: tokens) (.unary operator operand) rest)
  (call : ∀ {opening closing : Token} {tokens between rest callee arguments},
    Expression .call tokens callee (opening :: between) →
    motive .call tokens callee (opening :: between) → opening.kind = .leftParen →
    Listed (fun tokens value rest =>
      Expression .assignment tokens value rest ∧ motive .assignment tokens value rest)
      between arguments (closing :: rest) →
    closing.kind = .rightParen → motive .call tokens (.call callee closing arguments) rest)
  (grouping : ∀ {opening closing : Token} {tokens rest inner}, opening.kind = .leftParen →
    Expression .assignment tokens inner (closing :: rest) →
    motive .assignment tokens inner (closing :: rest) → closing.kind = .rightParen →
    motive .primary (opening :: tokens) (.grouping inner) rest)
  (atom : ∀ {token rest value}, Atom token value → motive .primary (token :: rest) value rest)

include tighter assign operation unary call grouping atom

set_option linter.unusedSectionVars false in
mutual

/-- Induction over expressions, with the hypothesis for each argument of a call. -/
theorem Expression.induct {rank : Rank} {tokens rest : List Token} {value : Expr} :
    Expression rank tokens value rest → motive rank tokens value rest
  | .tighter next inner => tighter next inner inner.induct
  | .assign name equal value => assign name equal value value.induct
  | .operation next operator left right =>
    operation next operator left left.induct right right.induct
  | .unary operator operand => unary operator operand operand.induct
  | .call callee opening .none closing => call callee callee.induct opening .none closing
  | .call callee opening (.some arguments few) closing =>
    call callee callee.induct opening (.some (Separated.induct arguments) few) closing
  | .grouping opening inner closing => grouping opening inner inner.induct closing
  | .atom token => atom token

theorem Separated.induct {tokens rest : List Token} {values : List Expr} :
    Separated (Expression .assignment) tokens values rest →
      Separated (fun tokens value rest =>
        Expression .assignment tokens value rest ∧ motive .assignment tokens value rest)
        tokens values rest
  | .last value => .last ⟨value, value.induct⟩
  | .more first comma others => .more ⟨first, first.induct⟩ comma (Separated.induct others)

end

end Induction

/-- An expression has at least one token. -/
theorem Expression.length_lt {rank : Rank} {tokens rest : List Token} {value : Expr}
    (derives : Expression rank tokens value rest) : rest.length < tokens.length := by
  refine Expression.induct (motive := fun _ tokens _ rest => rest.length < tokens.length)
    ?tighter ?assign ?operation ?unary ?call ?grouping ?atom derives
  case tighter =>
    intro _ _ _ _ _ _ _ shorter
    exact shorter
  case assign =>
    intro _ _ _ _ _ _ _ _ shorter
    simp only [List.length_cons]
    omega
  case operation =>
    intro _ _ _ _ _ _ _ _ _ _ _ left _ right
    rw [List.length_cons] at left
    omega
  case unary =>
    intro _ _ _ _ _ _ shorter
    exact Nat.lt_succ_of_lt shorter
  case call =>
    intro _ _ _ _ _ _ _ _ callee _ arguments _
    have shorter := arguments.length_le fun derives => derives.2
    rw [List.length_cons] at callee shorter
    omega
  case grouping =>
    intro _ _ _ _ _ _ _ inner _
    rw [List.length_cons] at inner ⊢
    omega
  case atom =>
    intro _ _ _ _
    exact Nat.lt_succ_self _

/-- The tokens begin with one of the kinds. -/
def Begins (kinds : List Kind) (tokens : List Token) : Prop :=
  ∃ first others, tokens = first :: others ∧ first.kind ∈ kinds

theorem Begins.mono {kinds more : List Kind} {tokens : List Token} (begins : Begins kinds tokens)
    (subset : kinds ⊆ more) : Begins more tokens := by
  obtain ⟨first, others, rfl, member⟩ := begins
  exact ⟨first, others, rfl, subset member⟩

/-- The kinds that an expression of a rank can begin with. -/
def Rank.starts : Rank → List Kind
  | call | primary => [.leftParen, .false, .true, .nil, .string, .number, .identifier]
  | _ => [.bang, .minus, .leftParen, .false, .true, .nil, .string, .number, .identifier]

theorem Rank.starts_subset {rank next : Rank} (tighter : rank.tighter? = some next) :
    next.starts ⊆ rank.starts := by
  cases rank <;> cases tighter <;> decide

theorem Expression.begins {rank : Rank} {tokens rest : List Token} {value : Expr} :
    Expression rank tokens value rest → Begins rank.starts tokens
  | .tighter next inner => inner.begins.mono (Rank.starts_subset next)
  | .assign name _ _ => ⟨_, _, rfl, by rw [name]; decide⟩
  | .operation _ _ left _ => left.begins
  | .unary operator _ => by
    rcases operator with bang | minus
    · exact ⟨_, _, rfl, by rw [bang]; decide⟩
    · exact ⟨_, _, rfl, by rw [minus]; decide⟩
  | .call callee _ _ _ => callee.begins
  | .grouping opening _ _ => ⟨_, _, rfl, by rw [opening]; decide⟩
  | .atom single => ⟨_, _, rfl, by cases single <;> simp [Rank.starts, *]⟩

/-! ### Declarations of variables and clauses of loops -/

/-- A declaration of a variable or a constant. -/
inductive VariableDeclaration : Phrase Stmt
  /-- `var name ;` -/
  | bare {keyword name semicolon : Token} {rest : List Token} :
    keyword.kind = .var → name.kind = .identifier → semicolon.kind = .semicolon →
    VariableDeclaration (keyword :: name :: semicolon :: rest) (.var false name none) rest
  /-- `var name = value ;` -/
  | initialized {keyword name equal semicolon : Token} {tokens rest : List Token} {value : Expr} :
    keyword.kind = .var → name.kind = .identifier → equal.kind = .equal →
    Expression .assignment tokens value (semicolon :: rest) → semicolon.kind = .semicolon →
    VariableDeclaration (keyword :: name :: equal :: tokens) (.var false name (some value)) rest
  /-- `const var name = value ;` -/
  | constant {prefixed keyword name equal semicolon : Token} {tokens rest : List Token}
      {value : Expr} :
    prefixed.kind = .const → keyword.kind = .var → name.kind = .identifier →
    equal.kind = .equal → Expression .assignment tokens value (semicolon :: rest) →
    semicolon.kind = .semicolon →
    VariableDeclaration (prefixed :: keyword :: name :: equal :: tokens)
      (.var true name (some value)) rest

/-- An expression with a semicolon. -/
inductive ExpressionStatement : Phrase Stmt
  | expression {semicolon : Token} {tokens rest : List Token} {value : Expr} :
    Expression .assignment tokens value (semicolon :: rest) → semicolon.kind = .semicolon →
    ExpressionStatement tokens (.expression value) rest

/-- The first clause of a `for` statement with its semicolon. -/
inductive Initializer : Phrase (Option Stmt)
  | none {semicolon : Token} {rest : List Token} :
    semicolon.kind = .semicolon → Initializer (semicolon :: rest) none rest
  | declaration {tokens rest : List Token} {statement : Stmt} :
    VariableDeclaration tokens statement rest → Initializer tokens (some statement) rest
  | expression {tokens rest : List Token} {statement : Stmt} :
    ExpressionStatement tokens statement rest → Initializer tokens (some statement) rest

/-- An expression that may be missing. -/
inductive Clause : Phrase (Option Expr)
  | none {tokens : List Token} : Clause tokens none tokens
  | some {tokens rest : List Token} {value : Expr} :
    Expression .assignment tokens value rest → Clause tokens (some value) rest

/-! ### Statements -/

/-- Whether an `else` behind a statement would belong to an `if` in it. -/
inductive Tail where
  | closed | dangling
  deriving DecidableEq

mutual

/-- A statement with the given tail. -/
inductive Statement : Tail → Phrase Stmt
  | expression {tokens rest : List Token} {statement : Stmt} :
    ExpressionStatement tokens statement rest → Statement .closed tokens statement rest
  /-- `print value ;` -/
  | print {keyword semicolon : Token} {tokens rest : List Token} {value : Expr} :
    keyword.kind = .print → Expression .assignment tokens value (semicolon :: rest) →
    semicolon.kind = .semicolon → Statement .closed (keyword :: tokens) (.print value) rest
  /-- `{ body }` -/
  | block {opening closing : Token} {tokens rest : List Token} {body : List Stmt} :
    opening.kind = .leftBrace → Repeated Declaration tokens body (closing :: rest) →
    closing.kind = .rightBrace → Statement .closed (opening :: tokens) (.block body) rest
  /-- `if ( condition ) consequent` -/
  | ifThen {tail : Tail} {keyword opening closing : Token} {tokens between rest : List Token}
      {condition : Expr} {consequent : Stmt} :
    keyword.kind = .if → opening.kind = .leftParen →
    Expression .assignment tokens condition (closing :: between) →
    closing.kind = .rightParen → Statement tail between consequent rest →
    Statement .dangling (keyword :: opening :: tokens) (.ifThen condition consequent) rest
  /-- `if ( condition ) consequent else alternative` -/
  | ifElse {tail : Tail} {keyword opening closing separator : Token}
      {tokens between behind rest : List Token} {condition : Expr}
      {consequent alternative : Stmt} :
    keyword.kind = .if → opening.kind = .leftParen →
    Expression .assignment tokens condition (closing :: between) →
    closing.kind = .rightParen → Statement .closed between consequent (separator :: behind) →
    separator.kind = .else → Statement tail behind alternative rest →
    Statement tail (keyword :: opening :: tokens) (.ifElse condition consequent alternative) rest
  /-- `while ( condition ) body` -/
  | while {tail : Tail} {keyword opening closing : Token} {tokens between rest : List Token}
      {condition : Expr} {body : Stmt} :
    keyword.kind = .while → opening.kind = .leftParen →
    Expression .assignment tokens condition (closing :: between) →
    closing.kind = .rightParen → Statement tail between body rest →
    Statement tail (keyword :: opening :: tokens) (.while condition body) rest
  /-- `for ( initializer condition ; increment ) body` -/
  | for {tail : Tail} {keyword opening semicolon closing : Token}
      {tokens afterInitializer afterCondition afterClauses rest : List Token}
      {initializer : Option Stmt} {condition increment : Option Expr} {body : Stmt} :
    keyword.kind = .for → opening.kind = .leftParen →
    Initializer tokens initializer afterInitializer →
    Clause afterInitializer condition (semicolon :: afterCondition) →
    semicolon.kind = .semicolon → Clause afterCondition increment (closing :: afterClauses) →
    closing.kind = .rightParen → Statement tail afterClauses body rest →
    Statement tail (keyword :: opening :: tokens)
      (.forLoop initializer condition increment body) rest
  /-- `return ;` -/
  | returnNothing {keyword semicolon : Token} {rest : List Token} :
    keyword.kind = .return → semicolon.kind = .semicolon →
    Statement .closed (keyword :: semicolon :: rest) (.return keyword none) rest
  /-- `return value ;` -/
  | returnValue {keyword semicolon : Token} {tokens rest : List Token} {value : Expr} :
    keyword.kind = .return → Expression .assignment tokens value (semicolon :: rest) →
    semicolon.kind = .semicolon →
    Statement .closed (keyword :: tokens) (.return keyword (some value)) rest

/-- A declaration or a statement. -/
inductive Declaration : Phrase Stmt
  | variableDeclaration {tokens rest : List Token} {statement : Stmt} :
    VariableDeclaration tokens statement rest → Declaration tokens statement rest
  /-- `fun name ( parameters ) { body }` -/
  | function {keyword name opening closing openingBrace closingBrace : Token}
      {tokens between rest : List Token} {parameters : List Token} {body : List Stmt} :
    keyword.kind = .fun → name.kind = .identifier → opening.kind = .leftParen →
    Listed Name tokens parameters (closing :: openingBrace :: between) →
    closing.kind = .rightParen → openingBrace.kind = .leftBrace →
    Repeated Declaration between body (closingBrace :: rest) →
    closingBrace.kind = .rightBrace →
    Declaration (keyword :: name :: opening :: tokens) (.function name parameters body) rest
  | statement {tail : Tail} {tokens rest : List Token} {statement : Stmt} :
    Statement tail tokens statement rest → Declaration tokens statement rest

end

/-! ### Lengths and first tokens -/

theorem VariableDeclaration.length_lt {tokens rest : List Token} {statement : Stmt}
    (derives : VariableDeclaration tokens statement rest) : rest.length < tokens.length := by
  cases derives with
  | bare _ _ _ =>
    simp only [List.length_cons]
    omega
  | initialized _ _ _ value _ =>
    have longer := value.length_lt
    simp only [List.length_cons] at longer ⊢
    omega
  | constant _ _ _ _ value _ =>
    have longer := value.length_lt
    simp only [List.length_cons] at longer ⊢
    omega

theorem ExpressionStatement.length_lt {tokens rest : List Token} {statement : Stmt}
    (derives : ExpressionStatement tokens statement rest) : rest.length < tokens.length := by
  cases derives with
  | expression value _ =>
    have longer := value.length_lt
    rw [List.length_cons] at longer
    omega

theorem Initializer.length_lt {tokens rest : List Token} {initializer : Option Stmt}
    (derives : Initializer tokens initializer rest) : rest.length < tokens.length := by
  cases derives with
  | none _ => exact Nat.lt_succ_self _
  | declaration derives => exact derives.length_lt
  | expression derives => exact derives.length_lt

theorem Clause.length_le {tokens rest : List Token} {clause : Option Expr}
    (derives : Clause tokens clause rest) : rest.length ≤ tokens.length := by
  cases derives with
  | none => exact Nat.le_refl _
  | some derives => exact Nat.le_of_lt derives.length_lt

theorem Name.length_lt {tokens rest : List Token} {name : Token} (derives : Name tokens name rest) :
    rest.length < tokens.length := by
  cases derives
  exact Nat.lt_succ_self _

mutual

/-- A statement has at least one token. -/
theorem Statement.length_lt {tail : Tail} {tokens rest : List Token} {statement : Stmt} :
    Statement tail tokens statement rest → rest.length < tokens.length
  | .expression value => value.length_lt
  | .print _ value _ => by
    have longer := value.length_lt
    simp only [List.length_cons] at longer ⊢
    omega
  | .block _ body _ => by
    have longer := Repeated.length_le body
    simp only [List.length_cons] at longer ⊢
    omega
  | .ifThen _ _ condition _ consequent => by
    have longer := condition.length_lt
    have further := consequent.length_lt
    simp only [List.length_cons] at longer ⊢
    omega
  | .ifElse _ _ condition _ consequent _ alternative => by
    have longer := condition.length_lt
    have further := consequent.length_lt
    have last := alternative.length_lt
    simp only [List.length_cons] at longer further ⊢
    omega
  | .while _ _ condition _ body => by
    have longer := condition.length_lt
    have further := body.length_lt
    simp only [List.length_cons] at longer ⊢
    omega
  | .for _ _ initializer condition _ increment _ body => by
    have start := initializer.length_lt
    have longer := condition.length_le
    have further := increment.length_le
    have last := body.length_lt
    simp only [List.length_cons] at longer further ⊢
    omega
  | .returnNothing _ _ => by
    simp only [List.length_cons]
    omega
  | .returnValue _ value _ => by
    have longer := value.length_lt
    simp only [List.length_cons] at longer ⊢
    omega

/-- A declaration has at least one token. -/
theorem Declaration.length_lt {tokens rest : List Token} {statement : Stmt} :
    Declaration tokens statement rest → rest.length < tokens.length
  | .variableDeclaration derives => derives.length_lt
  | .function _ _ _ parameters _ _ body _ => by
    have longer := parameters.length_le Name.length_lt
    have further := Repeated.length_le body
    simp only [List.length_cons] at longer further ⊢
    omega
  | .statement derives => derives.length_lt

theorem Repeated.length_le {tokens rest : List Token} {body : List Stmt} :
    Repeated Declaration tokens body rest → rest.length ≤ tokens.length
  | .nil => Nat.le_refl _
  | .cons first others => Nat.le_trans (Repeated.length_le others) (Nat.le_of_lt first.length_lt)

end

/-- The kinds that a statement can begin with. -/
def statementStarts : List Kind :=
  [.print, .leftBrace, .if, .while, .for, .return] ++ Rank.starts .assignment

theorem Statement.begins {tail : Tail} {tokens rest : List Token} {statement : Stmt}
    (derives : Statement tail tokens statement rest) : Begins statementStarts tokens := by
  cases derives with
  | expression derives =>
    cases derives with
    | expression value _ => exact value.begins.mono (List.subset_append_right _ _)
  | print keyword _ _ => exact ⟨_, _, rfl, by rw [keyword]; decide⟩
  | block opening _ _ => exact ⟨_, _, rfl, by rw [opening]; decide⟩
  | ifThen keyword _ _ _ _ => exact ⟨_, _, rfl, by rw [keyword]; decide⟩
  | ifElse keyword _ _ _ _ _ _ => exact ⟨_, _, rfl, by rw [keyword]; decide⟩
  | «while» keyword _ _ _ _ => exact ⟨_, _, rfl, by rw [keyword]; decide⟩
  | «for» keyword _ _ _ _ _ _ _ => exact ⟨_, _, rfl, by rw [keyword]; decide⟩
  | returnNothing keyword _ => exact ⟨_, _, rfl, by rw [keyword]; decide⟩
  | returnValue keyword _ _ => exact ⟨_, _, rfl, by rw [keyword]; decide⟩

theorem VariableDeclaration.begins {tokens rest : List Token} {statement : Stmt}
    (derives : VariableDeclaration tokens statement rest) : Begins [.var, .const] tokens := by
  cases derives with
  | bare keyword _ _ => exact ⟨_, _, rfl, by rw [keyword]; decide⟩
  | initialized keyword _ _ _ _ => exact ⟨_, _, rfl, by rw [keyword]; decide⟩
  | constant keyword _ _ _ _ _ => exact ⟨_, _, rfl, by rw [keyword]; decide⟩

/-- The kinds that a declaration can begin with. -/
def declarationStarts : List Kind := [.var, .const, .fun] ++ statementStarts

theorem Declaration.begins {tokens rest : List Token} {statement : Stmt}
    (derives : Declaration tokens statement rest) : Begins declarationStarts tokens := by
  cases derives with
  | variableDeclaration derives => exact derives.begins.mono (by decide)
  | function keyword _ _ _ _ _ _ _ => exact ⟨_, _, rfl, by rw [keyword]; decide⟩
  | statement derives => exact derives.begins.mono (List.subset_append_right _ _)

/-! ### Programs -/

/-- The tokens are a program with the given statements. -/
def Program (tokens : List Token) (statements : List Stmt) : Prop :=
  Repeated Declaration tokens statements []

end Lox.Grammar
