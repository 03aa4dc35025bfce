/-
This file proves that the bound of a parser is only a bound: a parse that does
not use it up is the same with a larger one, whether it makes a value or fails.
-/

import Lox.Syntax.Program

namespace Lox

variable {α β : Type}

/-- Induction on a bound beside a larger one: both are lowered together, and the larger one may be
anything when the smaller one is used up. -/
theorem Parser.bounds_induction {motive : (fewer more : Nat) → fewer ≤ more → Prop}
    (zero : ∀ more, motive 0 more (Nat.zero_le more))
    (succ : ∀ fewer more enough, motive fewer more enough →
      motive (fewer + 1) (more + 1) (Nat.succ_le_succ enough))
    (fewer more : Nat) (enough : fewer ≤ more) : motive fewer more enough := by
  induction fewer generalizing more with
  | zero => exact zero more
  | succ fewer inductionHypothesis =>
    cases more with
    | zero => exact absurd enough (Nat.not_succ_le_zero fewer)
    | succ more =>
      have less := Nat.le_of_succ_le_succ enough
      exact succ fewer more less (inductionHypothesis more less)

/-- The long parser does what the short parser does, unless that used up its bound. -/
def Parser.Extends (long short : Parser α) : Prop :=
  ∀ ⦃tokens⦄, short tokens ≠ .starved → long tokens = short tokens

/-- A parse that makes a value did not use up its bound. -/
theorem Parse.ne_starved_of_done {parse : Parse α} {value : α} {rest : List Token}
    {reports : List Report} (parsed : parse = .done value rest reports) : parse ≠ .starved := by
  intro starves
  rw [parsed] at starves
  cases starves

namespace Parser.Extends

open Token (Kind)

theorem refl (parser : Parser α) : parser.Extends parser := fun _ _ => rfl

theorem starve (long : Parser α) : long.Extends Parser.starve :=
  fun _ finishes => absurd rfl finishes

/-! ### Combinators -/

theorem bind {long short : Parser α} {longNext shortNext : α → Parser β}
    (first : long.Extends short) (next : ∀ value, (longNext value).Extends (shortNext value)) :
    Parser.Extends (long >>= longNext) (short >>= shortNext) := by
  intro tokens finishes
  cases parsed : short tokens with
  | done value rest reports =>
    have same : long tokens = .done value rest reports :=
      (first (Parse.ne_starved_of_done parsed)).trans parsed
    rw [bind_of_done parsed] at finishes
    rw [bind_of_done parsed, bind_of_done same]
    refine congrArg (Parse.after reports) (next value fun starves => finishes ?_)
    rw [starves]
    rfl
  | failed rest reports =>
    have same : long tokens = .failed rest reports := by
      rw [← parsed]
      exact first fun starves => by cases parsed.symm.trans starves
    rw [bind_of_failed parsed, bind_of_failed same]
  | starved => exact absurd (bind_of_starved parsed) finishes

theorem ite {condition : Prop} [Decidable condition] {long short longElse shortElse : Parser α}
    (positive : long.Extends short) (negative : longElse.Extends shortElse) :
    Parser.Extends (if condition then long else longElse)
      (if condition then short else shortElse) := by
  split
  · exact positive
  · exact negative

/-- The last part of a sequence can be parsed with a larger bound. -/
theorem behind {first : Parser α} {longNext shortNext : α → Parser β}
    (next : ∀ value, (longNext value).Extends (shortNext value)) :
    Parser.Extends (first >>= longNext) (first >>= shortNext) :=
  bind (refl first) next

/-- The first part of a sequence can be parsed with a larger bound. -/
theorem before {long short : Parser α} (next : α → Parser β) (first : long.Extends short) :
    Parser.Extends (long >>= next) (short >>= next) :=
  bind first fun _ => refl _

theorem commaSeparated {long short : Parser α} {excess : SyntaxError} (item : long.Extends short)
    {fewer more : Nat} (enough : fewer ≤ more) (taken : Nat) :
    (Parser.commaSeparated excess long more taken).Extends
      (Parser.commaSeparated excess short fewer taken) := by
  induction fewer, more, enough using bounds_induction generalizing taken with
  | zero more => exact starve _
  | succ fewer more enough inductionHypothesis =>
    have others := inductionHypothesis (taken + 1)
    rw [Parser.commaSeparated, Parser.commaSeparated]
    refine ite (behind fun _ => ?_) ?_
    all_goals
      refine bind item fun first => behind fun comma => ?_
      cases comma with
      | none => exact refl _
      | some _ => exact before _ others

theorem listed {long short : Parser α} {excess : SyntaxError} (item : long.Extends short)
    {fewer more : Nat} (enough : fewer ≤ more) :
    (Parser.listed more excess long).Extends (Parser.listed fewer excess short) :=
  behind fun _ => ite (refl _) (commaSeparated item enough 0)

theorem repeatUntil {stop : Parser Bool} {long short : Parser (Option α)}
    (item : long.Extends short) {fewer more : Nat} (enough : fewer ≤ more) :
    (Parser.repeatUntil stop long more).Extends (Parser.repeatUntil stop short fewer) := by
  induction fewer, more, enough using bounds_induction with
  | zero more => exact starve _
  | succ fewer more enough others =>
    exact behind fun _ => ite (refl _) (bind item fun _ => before _ others)

theorem recover {long short : Parser α} (parser : long.Extends short) :
    (Parser.recover long).Extends (Parser.recover short) := by
  intro tokens finishes
  have started : short tokens ≠ .starved := by
    intro starves
    rw [Parser.recover, starves] at finishes
    exact finishes rfl
  rw [Parser.recover, Parser.recover, parser started]

/-! ### Expressions -/

section Expressions

variable {long short : Parser Expr} {fewer more : Nat}

theorem primary (inner : long.Extends short) :
    (Parser.primary long).Extends (Parser.primary short) := by
  have group : (grouped long).Extends (grouped short) := before _ inner
  intro tokens finishes
  cases tokens with
  | nil => rfl
  | cons token rest =>
    simp only [Parser.primary] at finishes ⊢
    split
    · rfl
    · next composite =>
      split
      · next opens =>
        simp only [composite, if_pos opens] at finishes
        exact group finishes
      · rfl

theorem calls (inner : long.Extends short) (enough : fewer ≤ more) (callee : Expr) :
    (Parser.calls long more callee).Extends (Parser.calls short fewer callee) := by
  induction fewer, more, enough using bounds_induction generalizing callee with
  | zero more => exact starve _
  | succ fewer more enough inductionHypothesis =>
    refine behind fun opening => ?_
    cases opening with
    | none => exact refl _
    | some _ =>
      refine bind (listed inner (Nat.succ_le_succ enough)) fun arguments => ?_
      exact behind fun _ => inductionHypothesis _

theorem call (inner : long.Extends short) (enough : fewer ≤ more) :
    (Parser.call more long).Extends (Parser.call fewer short) :=
  bind (primary inner) fun callee => calls inner enough callee

theorem unary (operand : long.Extends short) (enough : fewer ≤ more) :
    (Parser.unary long more).Extends (Parser.unary short fewer) := by
  induction fewer, more, enough using bounds_induction with
  | zero more => exact starve _
  | succ fewer more enough inductionHypothesis =>
    refine behind fun operator => ?_
    cases operator with
    | none => exact operand
    | some _ => exact before _ inductionHypothesis

theorem chain {level : Level} (operand : long.Extends short) (enough : fewer ≤ more)
    (left : Expr) :
    (Parser.chain level long more left).Extends (Parser.chain level short fewer left) := by
  induction fewer, more, enough using bounds_induction generalizing left with
  | zero more => exact starve _
  | succ fewer more enough inductionHypothesis =>
    refine behind fun operator => ?_
    cases operator with
    | none => exact refl _
    | some _ => exact bind operand fun _ => inductionHypothesis _

theorem ladder (tightest : long.Extends short) (enough : fewer ≤ more) (levels : List Level) :
    (Parser.ladder more long levels).Extends (Parser.ladder fewer short levels) := by
  induction levels with
  | nil => exact tightest
  | cons level tighter operand => exact bind operand fun left => chain operand enough left

theorem assignment {longValue shortValue : Parser Expr} (target : long.Extends short)
    (value : longValue.Extends shortValue) :
    (Parser.assignment long longValue).Extends (Parser.assignment short shortValue) := by
  refine bind target fun left => behind fun equals => ?_
  cases equals with
  | none => exact refl _
  | some _ => exact before _ value

/-- An expression that does not use up its bound is parsed the same with a larger one. -/
theorem expression (enough : fewer ≤ more) :
    (Parser.expression more).Extends (Parser.expression fewer) := by
  induction fewer, more, enough using bounds_induction with
  | zero more => exact starve _
  | succ fewer more enough inner =>
    have larger := Nat.succ_le_succ enough
    rw [expression_succ, expression_succ]
    exact assignment (ladder (unary (call inner larger) larger) larger levels) inner

end Expressions

/-! ### Statements -/

section Statements

variable {long short : Parser Expr} {longStatement shortStatement : Parser Stmt}
  (expression : long.Extends short) (statement : longStatement.Extends shortStatement)

section

include expression

theorem constantDeclaration :
    (Parser.constantDeclaration long).Extends (Parser.constantDeclaration short) :=
  behind fun _ => behind fun _ => before _ expression

theorem variableDeclaration :
    (Parser.variableDeclaration long).Extends (Parser.variableDeclaration short) := by
  refine behind fun _ => behind fun equal => ?_
  cases equal with
  | none => exact refl _
  | some _ => exact before _ expression

theorem constDeclaration :
    (Parser.constDeclaration long).Extends (Parser.constDeclaration short) :=
  behind fun _ => constantDeclaration expression

theorem expressionStatement :
    (Parser.expressionStatement long).Extends (Parser.expressionStatement short) :=
  before _ expression

theorem returnStatement (keyword : Token) :
    (Parser.returnStatement long keyword).Extends (Parser.returnStatement short keyword) :=
  behind fun _ => ite (refl _) (before _ expression)

theorem forInitializer :
    (Parser.forInitializer long).Extends (Parser.forInitializer short) := by
  refine behind fun first => ?_
  cases first with
  | none => exact before _ (expressionStatement expression)
  | some token =>
    dsimp only
    split
    · exact before _ (constDeclaration expression)
    · exact before _ (variableDeclaration expression)
    · exact refl _

theorem forClause (closing : Kind) :
    (Parser.forClause closing long).Extends (Parser.forClause closing short) :=
  behind fun _ => behind fun _ => ite (refl _) (before _ expression)

include statement

theorem ifStatement :
    (Parser.ifStatement long longStatement).Extends
      (Parser.ifStatement short shortStatement) := by
  refine behind fun _ => bind expression fun _ => behind fun _ => ?_
  refine bind statement fun _ => behind fun separator => ?_
  cases separator with
  | none => exact refl _
  | some _ => exact before _ statement

theorem whileStatement :
    (Parser.whileStatement long longStatement).Extends
      (Parser.whileStatement short shortStatement) :=
  behind fun _ => bind expression fun _ => behind fun _ => before _ statement

theorem forStatement :
    (Parser.forStatement long longStatement).Extends
      (Parser.forStatement short shortStatement) :=
  behind fun _ => bind (forInitializer expression) fun _ =>
    bind (forClause expression _) fun _ => behind fun _ =>
      bind (forClause expression _) fun _ => behind fun _ => before _ statement

end

end Statements

/-! ### Nesting -/

section Nesting

variable {fewer more : Nat} (enough : fewer ≤ more)
  {longStatement shortStatement : Parser Stmt}
  {longDeclaration shortDeclaration : Parser (Option Stmt)}
  (statement : longStatement.Extends shortStatement)
  (declaration : longDeclaration.Extends shortDeclaration)

include enough declaration

theorem blockBody :
    (Parser.blockBody more longDeclaration).Extends
      (Parser.blockBody fewer shortDeclaration) :=
  before _ (repeatUntil declaration enough)

theorem functionDeclaration :
    (Parser.functionDeclaration more longDeclaration).Extends
      (Parser.functionDeclaration fewer shortDeclaration) :=
  behind fun _ => behind fun _ => bind (listed (refl _) enough) fun _ => behind fun _ =>
    behind fun _ => before _ (blockBody enough declaration)

include statement

theorem statementOver :
    (Parser.statementOver more longStatement longDeclaration).Extends
      (Parser.statementOver fewer shortStatement shortDeclaration) := by
  have expression := Extends.expression enough
  refine behind fun keyword => ?_
  cases keyword with
  | none => exact expressionStatement expression
  | some token =>
    dsimp only
    split
    · exact before _ expression
    · exact before _ (blockBody enough declaration)
    · exact ifStatement expression statement
    · exact whileStatement expression statement
    · exact forStatement expression statement
    · exact returnStatement expression token

theorem declarationOver :
    (Parser.declarationOver more longStatement longDeclaration).Extends
      (Parser.declarationOver fewer shortStatement shortDeclaration) := by
  have expression := Extends.expression enough
  refine behind fun keyword => ?_
  cases keyword with
  | none => exact statement
  | some token =>
    dsimp only
    split
    · exact variableDeclaration expression
    · exact constDeclaration expression
    · exact functionDeclaration enough declaration

end Nesting

theorem statement_declaration {fewer more : Nat} (enough : fewer ≤ more) :
    (Parser.statement more).Extends (Parser.statement fewer) ∧
      (Parser.declaration more).Extends (Parser.declaration fewer) := by
  induction fewer, more, enough using bounds_induction with
  | zero more => exact ⟨starve _, starve _⟩
  | succ fewer more enough inductionHypothesis =>
    obtain ⟨statement, declaration⟩ := inductionHypothesis
    have larger := Nat.succ_le_succ enough
    have here := statementOver larger statement declaration
    rw [statement_succ, statement_succ, declaration_succ, declaration_succ]
    exact ⟨here, recover (declarationOver larger here declaration)⟩

/-- Declarations that do not use up their bounds are parsed the same with larger ones. -/
theorem declarations {itemFewer itemMore fewer more : Nat} (itemEnough : itemFewer ≤ itemMore)
    (enough : fewer ≤ more) :
    (Parser.repeatUntil atEnd (Parser.declaration itemMore) more).Extends
      (Parser.repeatUntil atEnd (Parser.declaration itemFewer) fewer) :=
  repeatUntil (statement_declaration itemEnough).2 enough

end Parser.Extends

end Lox
