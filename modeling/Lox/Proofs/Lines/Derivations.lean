/-
This file proves that the grammar reads neither the lines of tokens nor what
follows a phrase. A phrase stays one when all its tokens get other lines and
other tokens come behind it. So two programs one behind the other are a program,
and none of its statements has tokens of both.
-/

import Lox.Proofs.Lines.Renumbering
import Lox.Proofs.Parsing.Completeness

namespace Lox

/-- The tree of a `for` statement with other lines. -/
theorem Stmt.renumber_forLoop (lines : Nat → Nat) (initializer : Option Stmt)
    (condition increment : Option Expr) (body : Stmt) :
    (forLoop initializer condition increment body).renumber lines =
      forLoop (initializer.map (renumber lines)) (condition.map (Expr.renumber lines))
        (increment.map (Expr.renumber lines)) (body.renumber lines) := by
  cases initializer <;> cases condition <;> cases increment <;> rfl

namespace Grammar

variable {α : Type} {lines : Nat → Nat} {more : List Token}

/-- The tokens with other lines, and more tokens behind them. -/
def carry (lines : Nat → Nat) (more tokens : List Token) : List Token :=
  tokens.map (Token.renumber lines) ++ more

/-- When the tokens of a phrase get other lines and more tokens come behind, they are a phrase of
the second kind, of the changed value. -/
def Moves (lines : Nat → Nat) (more : List Token) (change : α → α) (phrase phrase' : Phrase α) :
    Prop :=
  ∀ ⦃tokens value rest⦄, phrase tokens value rest →
    phrase' (carry lines more tokens) (change value) (carry lines more rest)

/-! ### Lists -/

section Lists

variable {item item' : Phrase α} {change : α → α}

theorem moves_separated (moves : Moves lines more change item item') :
    Moves lines more (List.map change) (Separated item) (Separated item') := by
  intro tokens values rest derives
  induction derives with
  | last value => exact .last (moves value)
  | more first comma _ inductionHypothesis => exact .more (moves first) comma inductionHypothesis

theorem moves_listed (moves : Moves lines more change item item') :
    Moves lines more (List.map change) (Listed item) (Listed item') := by
  intro tokens values rest derives
  cases derives with
  | none => exact .none
  | some separated few =>
    exact .some (moves_separated moves separated) (by rwa [List.length_map])

theorem moves_name : Moves lines more (Token.renumber lines) Name Name := by
  intro tokens name rest derives
  cases derives with
  | identifier kind => exact .identifier kind

/-- Items behind items. -/
theorem Repeated.append {tokens between rest : List Token} {values others : List α}
    (first : Repeated item tokens values between) (second : Repeated item between others rest) :
    Repeated item tokens (values ++ others) rest := by
  induction first with
  | nil => exact second
  | cons value _ inductionHypothesis => exact .cons value (inductionHypothesis second)

end Lists

/-! ### Expressions -/

theorem Atom.move {token : Token} {value : Expr} (atom : Atom token value) :
    Atom (token.renumber lines) (value.renumber lines) := by
  cases atom with
  | false kind => exact .false kind
  | true kind => exact .true kind
  | nil kind => exact .nil kind
  | string kind => exact .string kind
  | number kind => exact .number kind
  | name kind => exact .name kind

theorem Rank.renumber_tree (rank : Rank) (left : Expr) (operator : Token) (right : Expr) :
    (rank.tree left operator right).renumber lines =
      rank.tree (left.renumber lines) (operator.renumber lines) (right.renumber lines) := by
  cases rank <;> rfl

theorem moves_expression (rank : Rank) :
    Moves lines more (Expr.renumber lines) (Expression rank) (Expression rank) := by
  intro tokens value rest derives
  refine Expression.induct
    (motive := fun rank tokens value rest =>
      Expression rank (carry lines more tokens) (value.renumber lines) (carry lines more rest))
    ?tighter ?assign ?operation ?unary ?call ?grouping ?atom derives
  case tighter =>
    intro _ _ _ _ _ next _ inner
    exact .tighter next inner
  case assign =>
    intro _ _ _ _ _ name equal _ value
    exact .assign name equal value
  case operation =>
    intro rank _ operator _ _ _ left right next member _ movedLeft _ movedRight
    rw [Rank.renumber_tree]
    exact .operation next member movedLeft movedRight
  case unary =>
    intro _ _ _ _ kind _ operand
    exact .unary kind operand
  case call =>
    intro _ closing _ _ _ callee arguments _ movedCallee opening listed closingKind
    have moves : Moves lines more (Expr.renumber lines)
        (fun tokens value rest => Expression .assignment tokens value rest ∧
          Expression .assignment (carry lines more tokens) (value.renumber lines)
            (carry lines more rest))
        (Expression .assignment) := fun _ _ _ argument => argument.2
    rw [Expr.renumber, Expr.renumberAll_eq_map]
    exact .call movedCallee opening (moves_listed moves listed) closingKind
  case grouping =>
    intro _ _ _ _ _ opening _ inner closing
    exact .grouping opening inner closing
  case atom =>
    intro _ _ _ atom
    exact .atom atom.move

/-! ### Statements and declarations -/

theorem moves_variableDeclaration :
    Moves lines more (Stmt.renumber lines) VariableDeclaration VariableDeclaration := by
  intro tokens statement rest derives
  cases derives with
  | bare keyword name semicolon => exact .bare keyword name semicolon
  | initialized keyword name equal value semicolon =>
    exact .initialized keyword name equal (moves_expression _ value) semicolon
  | constant prefixed keyword name equal value semicolon =>
    exact .constant prefixed keyword name equal (moves_expression _ value) semicolon

theorem moves_expressionStatement :
    Moves lines more (Stmt.renumber lines) ExpressionStatement ExpressionStatement := by
  intro tokens statement rest derives
  cases derives with
  | expression value semicolon => exact .expression (moves_expression _ value) semicolon

theorem moves_initializer :
    Moves lines more (Option.map (Stmt.renumber lines)) Initializer Initializer := by
  intro tokens initializer rest derives
  cases derives with
  | none semicolon => exact .none semicolon
  | declaration derives => exact .declaration (moves_variableDeclaration derives)
  | expression derives => exact .expression (moves_expressionStatement derives)

theorem moves_clause : Moves lines more (Option.map (Expr.renumber lines)) Clause Clause := by
  intro tokens clause rest derives
  cases derives with
  | none => exact .none
  | some value => exact .some (moves_expression _ value)

mutual

theorem Statement.move {tail : Tail} {tokens rest : List Token} {statement : Stmt} :
    Statement tail tokens statement rest →
      Statement tail (carry lines more tokens) (statement.renumber lines) (carry lines more rest)
  | .expression derives => .expression (moves_expressionStatement derives)
  | .print keyword value semicolon => .print keyword (moves_expression _ value) semicolon
  | .block opening body closing => by
    rw [Stmt.renumber, Stmt.renumberAll_eq_map]
    exact .block opening (Repeated.move body) closing
  | .ifThen keyword opening condition closing consequent =>
    .ifThen keyword opening (moves_expression _ condition) closing consequent.move
  | .ifElse keyword opening condition closing consequent separator alternative =>
    .ifElse keyword opening (moves_expression _ condition) closing consequent.move separator
      alternative.move
  | .while keyword opening condition closing body =>
    .while keyword opening (moves_expression _ condition) closing body.move
  | .for keyword opening initializer condition semicolon increment closing body => by
    rw [Stmt.renumber_forLoop]
    exact .for keyword opening (moves_initializer initializer) (moves_clause condition) semicolon
      (moves_clause increment) closing body.move
  | .returnNothing keyword semicolon => .returnNothing keyword semicolon
  | .returnValue keyword value semicolon =>
    .returnValue keyword (moves_expression _ value) semicolon

theorem Declaration.move {tokens rest : List Token} {statement : Stmt} :
    Declaration tokens statement rest →
      Declaration (carry lines more tokens) (statement.renumber lines) (carry lines more rest)
  | .variableDeclaration derives => .variableDeclaration (moves_variableDeclaration derives)
  | .function keyword name opening parameters closing openingBrace body closingBrace => by
    rw [Stmt.renumber, Stmt.renumberAll_eq_map]
    exact .function keyword name opening (moves_listed moves_name parameters) closing openingBrace
      (Repeated.move body) closingBrace
  | .statement derives => .statement derives.move

theorem Repeated.move {tokens rest : List Token} {body : List Stmt} :
    Repeated Declaration tokens body rest →
      Repeated Declaration (carry lines more tokens) (body.map (Stmt.renumber lines))
        (carry lines more rest)
  | .nil => .nil
  | .cons first others => .cons first.move (Repeated.move others)

end

/-! ### Programs -/

/-- A program and another one behind it, with other lines, are a program. -/
theorem Program.append {tokens tokens' : List Token} {statements statements' : List Stmt}
    (first : Program tokens statements) (second : Program tokens' statements')
    (lines : Nat → Nat) :
    Program (tokens ++ tokens'.map (Token.renumber lines))
      (statements ++ statements'.map (Stmt.renumber lines)) := by
  have behind := @Repeated.move lines [] _ _ _ second
  have before := @Repeated.move id (carry lines [] tokens') _ _ _ first
  have sameTokens : ∀ more, carry id more tokens = tokens ++ more := by
    intro more
    rw [carry, Token.renumber_id, List.map_id]
  rw [Stmt.map_renumber_id, sameTokens] at before
  have both := before.append behind
  rwa [carry, List.append_nil] at both

end Grammar

end Lox
