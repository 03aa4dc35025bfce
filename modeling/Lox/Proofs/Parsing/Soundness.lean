/-
This file proves that the parser accepts nothing but the grammar: whatever a
production takes off its tokens without a report is a phrase of the grammar.

A statement whose tail dangles is never taken in front of an `else`, since the
parser would have gone on with it; so the part of a conditional in front of an
`else` is closed.
-/

import Lox.Proofs.Grammar
import Lox.Proofs.Parsing.Progress
import Lox.Proofs.Parsing.Taking

namespace Lox.Parser

open Grammar
open Token (Kind)

variable {α : Type}

/-- Whatever the parser takes is a phrase. -/
def Sound (parser : Parser α) (phrase : Phrase α) : Prop :=
  ∀ ⦃tokens value rest⦄, parser.Takes tokens value rest → phrase tokens value rest

/-! ### Lists -/

/-- A list with commas that is taken stays within the limit. -/
theorem separated_of_takes {item : Parser α} {phrase : Phrase α} {excess : SyntaxError}
    (sound : item.Sound phrase) :
    ∀ {bound taken : Nat} {tokens rest : List Token} {values : List α},
      (commaSeparated excess item bound taken).Takes tokens values rest →
      Separated phrase tokens values rest ∧ taken + values.length ≤ argumentLimit
  | 0, _, _, _, _, takes => absurd takes not_takes_starve
  | bound + 1, taken, tokens, rest, values, takes => by
    rw [commaSeparated] at takes
    split at takes
    · obtain ⟨_, _, warned, _⟩ := takes_bind.mp takes
      exact absurd warned not_takes_warn
    · next within =>
      rw [takes_bind] at takes
      obtain ⟨first, between, firstTakes, takes⟩ := takes
      rw [takes_bind] at takes
      obtain ⟨accepted, behind, commaTakes, takes⟩ := takes
      cases accepted with
      | none =>
        obtain ⟨rfl, _⟩ := takes_accept_none.mp commaTakes
        obtain ⟨rfl, rfl⟩ := takes_pure.mp takes
        exact ⟨.last (sound firstTakes), by rw [List.length_singleton]; omega⟩
      | some comma =>
        obtain ⟨rfl, member⟩ := takes_accept_some.mp commaTakes
        rw [takes_bind] at takes
        obtain ⟨others, left, othersTake, takes⟩ := takes
        obtain ⟨rfl, rfl⟩ := takes_pure.mp takes
        obtain ⟨separated, few⟩ := separated_of_takes sound othersTake
        refine ⟨.more (sound firstTakes) (List.mem_singleton.mp member) separated, ?_⟩
        rw [List.length_cons]
        omega

theorem listed_of_takes {item : Parser α} {phrase : Phrase α} {excess : SyntaxError}
    {bound : Nat} (sound : item.Sound phrase) :
    (listed bound excess item).Sound (Listed phrase) := by
  intro tokens values rest takes
  rw [listed, takes_bind] at takes
  obtain ⟨ends, between, looks, takes⟩ := takes
  obtain ⟨rfl, rfl⟩ := takes_nextIs.mp looks
  split at takes
  · obtain ⟨rfl, rfl⟩ := takes_pure.mp takes
    exact .none
  · obtain ⟨separated, few⟩ := separated_of_takes sound takes
    rw [argumentLimit] at few
    exact .some separated (by omega)

theorem name_of_takes (error : SyntaxError) : (expect .identifier error).Sound Name := by
  intro tokens name rest takes
  obtain ⟨rfl, kind⟩ := takes_expect.mp takes
  exact .identifier kind

/-! ### Expressions -/

/-- The levels of the parser from some rank on. -/
inductive Rung : List Level → Rank → Prop
  | bottom : Rung [] .unary
  | step {rank next : Rank} {levels : List Level} :
    rank.operators ≠ [] → rank.tighter? = some next → Rung levels next →
    Rung (⟨rank.operators, rank.tree⟩ :: levels) rank

/-- All levels of the parser are the ranks of binary operators. -/
theorem rung_levels : Rung levels .or :=
  @Rung.step .or .and _ (by decide) rfl <| @Rung.step .and .equality _ (by decide) rfl <|
    @Rung.step .equality .comparison _ (by decide) rfl <|
      @Rung.step .comparison .term _ (by decide) rfl <|
        @Rung.step .term .factor _ (by decide) rfl <|
          @Rung.step .factor .unary _ (by decide) rfl .bottom

theorem atom_of_eq_some {token : Token} {value : Expr} (atom : atom? token = some value) :
    Atom token value := by
  unfold atom? at atom
  split at atom <;> cases atom
  · next kind => exact .false kind
  · next kind => exact .true kind
  · next kind => exact .nil kind
  · next kind => exact .string kind
  · next kind => exact .number kind
  · next kind => exact .name kind

section Expressions

variable {inner operand : Parser Expr} {rank next : Rank}

theorem primary_of_takes (sound : inner.Sound (Expression .assignment)) :
    (primary inner).Sound (Expression .primary) := by
  intro tokens value rest takes
  cases tokens with
  | nil => cases takes
  | cons token others =>
    rw [Takes, primary] at takes
    split at takes
    · next atom =>
      cases takes
      exact .atom (atom_of_eq_some atom)
    · split at takes
      · next opens =>
        have takes : (grouped inner).Takes others value rest := takes
        rw [grouped, takes_bind] at takes
        obtain ⟨expression, between, inside, takes⟩ := takes
        rw [takes_expect_bind_iff] at takes
        obtain ⟨closing, behind, rfl, closingKind, takes⟩ := takes
        obtain ⟨rfl, rfl⟩ := takes_pure.mp takes
        exact .grouping opens (sound inside) closingKind
      · cases takes

/-- Argument lists behind a callee make calls of it. -/
theorem call_of_takes_calls (sound : inner.Sound (Expression .assignment)) :
    ∀ {bound : Nat} {callee value : Expr} {tokens between rest : List Token},
      Expression .call tokens callee between → (calls inner bound callee).Takes between value rest →
      Expression .call tokens value rest
  | 0, _, _, _, _, _, _, takes => absurd takes not_takes_starve
  | bound + 1, callee, value, tokens, between, rest, derives, takes => by
    rw [calls] at takes
    rw [takes_bind] at takes
    obtain ⟨accepted, behind, opens, takes⟩ := takes
    cases accepted with
    | none =>
      obtain ⟨rfl, _⟩ := takes_accept_none.mp opens
      obtain ⟨rfl, rfl⟩ := takes_pure.mp takes
      exact derives
    | some opening =>
      obtain ⟨rfl, member⟩ := takes_accept_some.mp opens
      rw [takes_bind] at takes
      obtain ⟨arguments, behindArguments, argumentsTake, takes⟩ := takes
      rw [takes_expect_bind_iff] at takes
      obtain ⟨closing, behindCall, rfl, closingKind, takes⟩ := takes
      exact call_of_takes_calls sound
        (.call derives (List.mem_singleton.mp member) (listed_of_takes sound argumentsTake)
          closingKind) takes

theorem call_of_takes {bound : Nat} (sound : inner.Sound (Expression .assignment)) :
    (call bound inner).Sound (Expression .call) := by
  intro tokens value rest takes
  rw [call, takes_bind] at takes
  obtain ⟨callee, between, primaryTakes, takes⟩ := takes
  exact call_of_takes_calls sound (.tighter rfl (primary_of_takes sound primaryTakes)) takes

theorem unary_of_takes (sound : operand.Sound (Expression .call)) :
    ∀ {bound : Nat}, (unary operand bound).Sound (Expression .unary)
  | 0 => fun _ _ _ takes => absurd takes not_takes_starve
  | bound + 1 => by
    intro tokens value rest takes
    rw [unary] at takes
    rw [takes_bind] at takes
    obtain ⟨accepted, between, operatorTakes, takes⟩ := takes
    cases accepted with
    | none =>
      obtain ⟨rfl, _⟩ := takes_accept_none.mp operatorTakes
      exact .tighter rfl (sound takes)
    | some operator =>
      obtain ⟨rfl, member⟩ := takes_accept_some.mp operatorTakes
      rw [takes_bind] at takes
      obtain ⟨right, behind, operandTakes, takes⟩ := takes
      obtain ⟨rfl, rfl⟩ := takes_pure.mp takes
      exact .unary (by simpa using member) (unary_of_takes sound operandTakes)

/-- Operators of a rank behind a left operand make operations of it. -/
theorem operation_of_takes_chain (tighter : rank.tighter? = some next)
    (sound : operand.Sound (Expression next)) :
    ∀ {bound : Nat} {left value : Expr} {tokens between rest : List Token},
      Expression rank tokens left between →
      (chain ⟨rank.operators, rank.tree⟩ operand bound left).Takes between value rest →
      Expression rank tokens value rest
  | 0, _, _, _, _, _, _, takes => absurd takes not_takes_starve
  | bound + 1, left, value, tokens, between, rest, derives, takes => by
    rw [chain] at takes
    rw [takes_bind] at takes
    obtain ⟨accepted, behind, operatorTakes, takes⟩ := takes
    cases accepted with
    | none =>
      obtain ⟨rfl, _⟩ := takes_accept_none.mp operatorTakes
      obtain ⟨rfl, rfl⟩ := takes_pure.mp takes
      exact derives
    | some operator =>
      obtain ⟨rfl, member⟩ := takes_accept_some.mp operatorTakes
      rw [takes_bind] at takes
      obtain ⟨right, behindRight, rightTakes, takes⟩ := takes
      exact operation_of_takes_chain tighter sound
        (.operation tighter member derives (sound rightTakes)) takes

theorem ladder_of_takes {bound : Nat} (sound : operand.Sound (Expression .unary))
    {levels : List Level} (rung : Rung levels rank) :
    (ladder bound operand levels).Sound (Expression rank) := by
  induction rung with
  | bottom => exact sound
  | step _ tighter _ inductionHypothesis =>
    intro tokens value rest takes
    rw [ladder, takes_bind] at takes
    obtain ⟨left, between, leftTakes, takes⟩ := takes
    exact operation_of_takes_chain tighter inductionHypothesis
      (.tighter tighter (inductionHypothesis leftTakes)) takes

end Expressions

/-- Only a name alone stands for a variable. -/
theorem eq_of_expression_variable {rank : Rank} {tokens rest : List Token} {value : Expr}
    {name : Token} : Expression rank tokens value rest → value = .variable name →
      tokens = name :: rest ∧ name.kind = .identifier
  | .tighter _ derives => eq_of_expression_variable derives
  | .assign _ _ _ => fun named => by cases named
  | .operation _ _ _ _ => fun named => by cases rank <;> cases named
  | .unary _ _ => fun named => by cases named
  | .call _ _ _ _ => fun named => by cases named
  | .grouping _ _ _ => fun named => by cases named
  | .atom atom => fun named => by
    cases atom <;> cases named
    exact ⟨rfl, ‹_›⟩

theorem expression_of_takes : ∀ {bound : Nat}, (expression bound).Sound (Expression .assignment)
  | 0 => fun _ _ _ takes => by cases takes
  | bound + 1 => by
    intro tokens value rest takes
    have inner : (expression bound).Sound (Expression .assignment) := expression_of_takes
    rw [expression_succ, expressionOver, assignment, takes_bind] at takes
    obtain ⟨left, between, leftTakes, takes⟩ := takes
    have target : Expression .or tokens left between :=
      ladder_of_takes (unary_of_takes (call_of_takes inner)) rung_levels leftTakes
    rw [takes_bind] at takes
    obtain ⟨accepted, behind, equalTakes, takes⟩ := takes
    cases accepted with
    | none =>
      obtain ⟨rfl, _⟩ := takes_accept_none.mp equalTakes
      obtain ⟨rfl, rfl⟩ := takes_pure.mp takes
      exact .tighter rfl target
    | some equal =>
      obtain ⟨rfl, member⟩ := takes_accept_some.mp equalTakes
      rw [takes_bind] at takes
      obtain ⟨right, behindRight, rightTakes, takes⟩ := takes
      split at takes
      · obtain ⟨rfl, rfl⟩ := takes_pure.mp takes
        obtain ⟨rfl, identifier⟩ := eq_of_expression_variable target rfl
        exact .assign identifier (List.mem_singleton.mp member) (inner rightTakes)
      · exact absurd takes not_takes_failAt

/-! ### Statements -/

/-- Whatever the parser takes behind a token of the kind is a phrase with that token. -/
def SoundBehind (kind : Kind) (parser : Parser α) (phrase : Phrase α) : Prop :=
  ∀ ⦃keyword tokens value rest⦄, keyword.kind = kind → parser.Takes tokens value rest →
    phrase (keyword :: tokens) value rest

/-- A statement that the parser is done with: if its tail dangles, no `else` follows. -/
def Settled : Phrase Stmt := fun tokens statement rest =>
  ∃ tail, Statement tail tokens statement rest ∧ (tail = .dangling → Avoids [.else] rest)

/-- A declaration that was not given up. -/
def Kept : Phrase (Option Stmt) := fun tokens kept rest =>
  ∃ statement, kept = some statement ∧ Declaration tokens statement rest

/-- A closed statement is settled whatever follows. -/
theorem Settled.closed {tokens rest : List Token} {statement : Stmt}
    (derives : Statement .closed tokens statement rest) : Settled tokens statement rest :=
  ⟨.closed, derives, fun dangling => by cases dangling⟩

section Statements

variable {bound : Nat}

/-- An expression and its semicolon. -/
theorem terminated_of_takes {error : SyntaxError} {tree : Expr → Stmt} {tokens rest : List Token}
    {statement : Stmt}
    (takes : (do
      let value ← expression bound
      let _ ← expect .semicolon error
      return tree value : Parser Stmt).Takes tokens statement rest) :
    ∃ value semicolon, Expression .assignment tokens value (semicolon :: rest) ∧
      semicolon.kind = .semicolon ∧ statement = tree value := by
  rw [takes_bind] at takes
  obtain ⟨value, behindValue, valueTakes, takes⟩ := takes
  rw [takes_expect_bind_iff] at takes
  obtain ⟨semicolon, behind, rfl, semicolonKind, takes⟩ := takes
  obtain ⟨rfl, rfl⟩ := takes_pure.mp takes
  exact ⟨value, semicolon, expression_of_takes valueTakes, semicolonKind, rfl⟩

/-- A condition in parentheses and what follows it. -/
theorem condition_of_takes {opens closes : SyntaxError} {next : Expr → Parser Stmt}
    {tokens rest : List Token} {statement : Stmt}
    (takes : (do
      let _ ← expect .leftParen opens
      let condition ← expression bound
      let _ ← expect .rightParen closes
      next condition : Parser Stmt).Takes tokens statement rest) :
    ∃ opening inside condition closing behind, tokens = opening :: inside ∧
      opening.kind = .leftParen ∧ Expression .assignment inside condition (closing :: behind) ∧
      closing.kind = .rightParen ∧ (next condition).Takes behind statement rest := by
  rw [takes_expect_bind_iff] at takes
  obtain ⟨opening, inside, rfl, openingKind, takes⟩ := takes
  rw [takes_bind] at takes
  obtain ⟨condition, behindCondition, conditionTakes, takes⟩ := takes
  rw [takes_expect_bind_iff] at takes
  obtain ⟨closing, behind, rfl, closingKind, takes⟩ := takes
  exact ⟨opening, inside, condition, closing, behind, rfl, openingKind,
    expression_of_takes conditionTakes, closingKind, takes⟩

theorem variable_of_takes :
    SoundBehind .var (variableDeclaration (expression bound)) VariableDeclaration := by
  intro keyword tokens value rest keywordKind takes
  rw [variableDeclaration, takes_expect_bind_iff] at takes
  obtain ⟨name, behindName, rfl, nameKind, takes⟩ := takes
  rw [takes_bind] at takes
  obtain ⟨accepted, behindEqual, equalTakes, takes⟩ := takes
  cases accepted with
  | none =>
    obtain ⟨rfl, _⟩ := takes_accept_none.mp equalTakes
    rw [takes_expect_bind_iff] at takes
    obtain ⟨semicolon, behind, rfl, semicolonKind, takes⟩ := takes
    obtain ⟨rfl, rfl⟩ := takes_pure.mp takes
    exact .bare keywordKind nameKind semicolonKind
  | some equal =>
    obtain ⟨rfl, member⟩ := takes_accept_some.mp equalTakes
    obtain ⟨initializer, semicolon, derives, semicolonKind, rfl⟩ := terminated_of_takes takes
    exact .initialized keywordKind nameKind (List.mem_singleton.mp member) derives semicolonKind

theorem constant_of_takes :
    SoundBehind .const (constDeclaration (expression bound)) VariableDeclaration := by
  intro prefixed tokens value rest prefixedKind takes
  rw [constDeclaration, takes_expect_bind_iff] at takes
  obtain ⟨keyword, behindKeyword, rfl, keywordKind, takes⟩ := takes
  rw [constantDeclaration, takes_expect_bind_iff] at takes
  obtain ⟨name, behindName, rfl, nameKind, takes⟩ := takes
  rw [takes_expect_bind_iff] at takes
  obtain ⟨equal, behindEqual, rfl, equalKind, takes⟩ := takes
  obtain ⟨initializer, semicolon, derives, semicolonKind, rfl⟩ := terminated_of_takes takes
  exact .constant prefixedKind keywordKind nameKind equalKind derives semicolonKind

theorem expressionStatement_of_takes :
    (expressionStatement (expression bound)).Sound ExpressionStatement := by
  intro tokens value rest takes
  rw [expressionStatement] at takes
  obtain ⟨expression, semicolon, derives, semicolonKind, rfl⟩ := terminated_of_takes takes
  exact .expression derives semicolonKind

theorem print_of_takes :
    SoundBehind .print (printStatement (expression bound)) (Statement .closed) := by
  intro keyword tokens value rest keywordKind takes
  rw [printStatement] at takes
  obtain ⟨expression, semicolon, derives, semicolonKind, rfl⟩ := terminated_of_takes takes
  exact .print keywordKind derives semicolonKind

theorem return_of_takes {keyword : Token} {tokens rest : List Token} {value : Stmt}
    (keywordKind : keyword.kind = .return)
    (takes : (returnStatement (expression bound) keyword).Takes tokens value rest) :
    Statement .closed (keyword :: tokens) value rest := by
  rw [returnStatement, takes_bind] at takes
  obtain ⟨ends, between, looks, takes⟩ := takes
  obtain ⟨rfl, rfl⟩ := takes_nextIs.mp looks
  split at takes
  · rw [takes_expect_bind_iff] at takes
    obtain ⟨semicolon, behind, rfl, semicolonKind, takes⟩ := takes
    obtain ⟨rfl, rfl⟩ := takes_pure.mp takes
    exact .returnNothing keywordKind semicolonKind
  · obtain ⟨expression, semicolon, derives, semicolonKind, rfl⟩ := terminated_of_takes takes
    exact .returnValue keywordKind derives semicolonKind

theorem initializer_of_takes : (forInitializer (expression bound)).Sound Initializer := by
  intro tokens value rest takes
  rw [forInitializer, takes_bind] at takes
  obtain ⟨accepted, between, clauseTakes, takes⟩ := takes
  cases accepted with
  | none =>
    obtain ⟨rfl, _⟩ := takes_accept_none.mp clauseTakes
    rw [takes_bind] at takes
    obtain ⟨statement, behind, statementTakes, takes⟩ := takes
    obtain ⟨rfl, rfl⟩ := takes_pure.mp takes
    exact .expression (expressionStatement_of_takes statementTakes)
  | some token =>
    obtain ⟨rfl, member⟩ := takes_accept_some.mp clauseTakes
    dsimp only at takes
    split at takes
    · next kind =>
      rw [takes_bind] at takes
      obtain ⟨statement, behind, statementTakes, takes⟩ := takes
      obtain ⟨rfl, rfl⟩ := takes_pure.mp takes
      exact .declaration (constant_of_takes kind statementTakes)
    · next kind =>
      rw [takes_bind] at takes
      obtain ⟨statement, behind, statementTakes, takes⟩ := takes
      obtain ⟨rfl, rfl⟩ := takes_pure.mp takes
      exact .declaration (variable_of_takes kind statementTakes)
    · next notConst notVar =>
      obtain ⟨rfl, rfl⟩ := takes_pure.mp takes
      simp only [List.mem_cons, List.not_mem_nil, or_false] at member
      rcases member with semicolonKind | constKind | varKind
      · exact .none semicolonKind
      · exact absurd constKind notConst
      · exact absurd varKind notVar

theorem clause_of_takes (closing : Kind) :
    (forClause closing (expression bound)).Sound Clause := by
  intro tokens value rest takes
  rw [forClause, takes_bind] at takes
  obtain ⟨ends, between, looks, takes⟩ := takes
  obtain ⟨rfl, rfl⟩ := takes_atEnd.mp looks
  rw [takes_bind] at takes
  obtain ⟨closes, between, looks, takes⟩ := takes
  obtain ⟨rfl, rfl⟩ := takes_nextIs.mp looks
  split at takes
  · obtain ⟨rfl, rfl⟩ := takes_pure.mp takes
    exact .none
  · rw [takes_bind] at takes
    obtain ⟨expression, behindValue, valueTakes, takes⟩ := takes
    obtain ⟨rfl, rfl⟩ := takes_pure.mp takes
    exact .some (expression_of_takes valueTakes)

variable {statement : Parser Stmt} {declaration : Parser (Option Stmt)}

theorem if_of_takes (sound : statement.Sound Settled) :
    SoundBehind .if (ifStatement (expression bound) statement) Settled := by
  intro keyword tokens value rest keywordKind takes
  rw [ifStatement] at takes
  obtain ⟨opening, inside, condition, closing, behindClosing, rfl, openingKind, conditionDerives,
    closingKind, branches⟩ := condition_of_takes takes
  rw [takes_bind] at branches
  obtain ⟨consequent, behindConsequent, consequentTakes, takes⟩ := branches
  obtain ⟨tail, derives, settled⟩ := sound consequentTakes
  rw [takes_bind] at takes
  obtain ⟨accepted, behindElse, elseTakes, takes⟩ := takes
  cases accepted with
  | none =>
    obtain ⟨rfl, avoids⟩ := takes_accept_none.mp elseTakes
    obtain ⟨rfl, rfl⟩ := takes_pure.mp takes
    exact ⟨.dangling, .ifThen keywordKind openingKind conditionDerives closingKind derives,
      fun _ => avoids⟩
  | some separator =>
    obtain ⟨rfl, member⟩ := takes_accept_some.mp elseTakes
    rw [takes_bind] at takes
    obtain ⟨alternative, behind, alternativeTakes, takes⟩ := takes
    obtain ⟨rfl, rfl⟩ := takes_pure.mp takes
    obtain ⟨lastTail, lastDerives, lastSettled⟩ := sound alternativeTakes
    -- The parser only stops in front of an `else` when no open `if` could claim it.
    cases tail with
    | dangling => exact absurd member (avoids_cons.mp (settled rfl))
    | closed =>
      exact ⟨lastTail, .ifElse keywordKind openingKind conditionDerives closingKind derives
        (List.mem_singleton.mp member) lastDerives, lastSettled⟩

theorem while_of_takes (sound : statement.Sound Settled) :
    SoundBehind .while (whileStatement (expression bound) statement) Settled := by
  intro keyword tokens value rest keywordKind takes
  rw [whileStatement] at takes
  obtain ⟨opening, inside, condition, closing, behindClosing, rfl, openingKind, conditionDerives,
    closingKind, loops⟩ := condition_of_takes takes
  rw [takes_bind] at loops
  obtain ⟨body, behindBody, bodyTakes, takes⟩ := loops
  obtain ⟨rfl, rfl⟩ := takes_pure.mp takes
  obtain ⟨tail, derives, settled⟩ := sound bodyTakes
  exact ⟨tail, .while keywordKind openingKind conditionDerives closingKind derives, settled⟩

theorem for_of_takes (sound : statement.Sound Settled) :
    SoundBehind .for (forStatement (expression bound) statement) Settled := by
  intro keyword tokens value rest keywordKind takes
  rw [forStatement, takes_expect_bind_iff] at takes
  obtain ⟨opening, behindOpening, rfl, openingKind, takes⟩ := takes
  rw [takes_bind] at takes
  obtain ⟨initializer, behindInitializer, initializerTakes, takes⟩ := takes
  rw [takes_bind] at takes
  obtain ⟨condition, behindCondition, conditionTakes, takes⟩ := takes
  rw [takes_expect_bind_iff] at takes
  obtain ⟨semicolon, behindSemicolon, rfl, semicolonKind, takes⟩ := takes
  rw [takes_bind] at takes
  obtain ⟨increment, behindIncrement, incrementTakes, takes⟩ := takes
  rw [takes_expect_bind_iff] at takes
  obtain ⟨closing, behindClosing, rfl, closingKind, takes⟩ := takes
  rw [takes_bind] at takes
  obtain ⟨body, behindBody, bodyTakes, takes⟩ := takes
  obtain ⟨rfl, rfl⟩ := takes_pure.mp takes
  obtain ⟨tail, derives, settled⟩ := sound bodyTakes
  exact ⟨tail, .for keywordKind openingKind (initializer_of_takes initializerTakes)
    (clause_of_takes _ conditionTakes) semicolonKind (clause_of_takes _ incrementTakes)
    closingKind derives, settled⟩

end Statements

/-! ### Nesting -/

/-- Items are taken up to where the stop condition holds. -/
theorem repeated_of_takes {stop : Parser Bool} {halts : List Token → Bool}
    {declaration : Parser (Option Stmt)} (looks : Looks stop halts)
    (sound : declaration.Sound Kept) :
    ∀ {bound : Nat} {tokens rest : List Token} {body : List Stmt},
      (repeatUntil stop declaration bound).Takes tokens body rest →
      Repeated Declaration tokens body rest ∧ halts rest = true
  | 0, _, _, _, takes => absurd takes not_takes_starve
  | bound + 1, tokens, rest, body, takes => by
    rw [repeatUntil, takes_bind] at takes
    obtain ⟨ends, between, stops, takes⟩ := takes
    obtain ⟨rfl, rfl⟩ := Takes.unique (show stop.Takes tokens _ _ from looks.look tokens) stops
    split at takes
    · next holds =>
      obtain ⟨rfl, rfl⟩ := takes_pure.mp takes
      exact ⟨.nil, holds⟩
    · rw [takes_bind] at takes
      obtain ⟨kept, behindFirst, firstTakes, takes⟩ := takes
      obtain ⟨first, rfl, firstDerives⟩ := sound firstTakes
      rw [takes_bind] at takes
      obtain ⟨others, behind, othersTake, takes⟩ := takes
      obtain ⟨rfl, rfl⟩ := takes_pure.mp takes
      obtain ⟨othersDerive, holds⟩ := repeated_of_takes looks sound othersTake
      exact ⟨.cons firstDerives othersDerive, holds⟩

section Declarations

variable {bound : Nat} {statement : Parser Stmt} {declaration : Parser (Option Stmt)}

theorem block_of_takes (sound : declaration.Sound Kept) {tokens rest : List Token}
    {body : List Stmt} (takes : (blockBody bound declaration).Takes tokens body rest) :
    ∃ closing, Repeated Declaration tokens body (closing :: rest) ∧
      closing.kind = .rightBrace := by
  rw [blockBody, takes_bind] at takes
  obtain ⟨items, between, itemsTake, takes⟩ := takes
  rw [takes_expect_bind_iff] at takes
  obtain ⟨closing, behind, rfl, closingKind, takes⟩ := takes
  obtain ⟨rfl, rfl⟩ := takes_pure.mp takes
  exact ⟨closing, (repeated_of_takes looks_blockEnd sound itemsTake).1, closingKind⟩

theorem function_of_takes (sound : declaration.Sound Kept) :
    SoundBehind .fun (functionDeclaration bound declaration) Declaration := by
  intro keyword tokens value rest keywordKind takes
  rw [functionDeclaration, takes_expect_bind_iff] at takes
  obtain ⟨name, behindName, rfl, nameKind, takes⟩ := takes
  rw [takes_expect_bind_iff] at takes
  obtain ⟨opening, behindOpening, rfl, openingKind, takes⟩ := takes
  rw [takes_bind] at takes
  obtain ⟨parameters, behindParameters, parametersTake, takes⟩ := takes
  rw [takes_expect_bind_iff] at takes
  obtain ⟨closing, behindClosing, rfl, closingKind, takes⟩ := takes
  rw [takes_expect_bind_iff] at takes
  obtain ⟨openingBrace, behindBrace, rfl, openingBraceKind, takes⟩ := takes
  rw [takes_bind] at takes
  obtain ⟨body, behind, bodyTakes, takes⟩ := takes
  obtain ⟨rfl, rfl⟩ := takes_pure.mp takes
  obtain ⟨closingBrace, bodyDerives, closingBraceKind⟩ := block_of_takes sound bodyTakes
  exact .function keywordKind nameKind openingKind
    (listed_of_takes (name_of_takes _) parametersTake) closingKind openingBraceKind bodyDerives
    closingBraceKind

theorem settled_of_takes (statementSound : statement.Sound Settled)
    (sound : declaration.Sound Kept) :
    (statementOver bound statement declaration).Sound Settled := by
  intro tokens value rest takes
  rw [statementOver, takes_bind] at takes
  obtain ⟨accepted, between, keywordTakes, takes⟩ := takes
  cases accepted with
  | none =>
    obtain ⟨rfl, _⟩ := takes_accept_none.mp keywordTakes
    exact .closed (.expression (expressionStatement_of_takes takes))
  | some token =>
    obtain ⟨rfl, member⟩ := takes_accept_some.mp keywordTakes
    dsimp only at takes
    split at takes
    · next kind => exact .closed (print_of_takes kind takes)
    · next kind =>
      rw [takes_bind] at takes
      obtain ⟨body, behind, bodyTakes, takes⟩ := takes
      obtain ⟨rfl, rfl⟩ := takes_pure.mp takes
      obtain ⟨closing, bodyDerives, closingKind⟩ := block_of_takes sound bodyTakes
      exact .closed (.block kind bodyDerives closingKind)
    · next kind => exact if_of_takes statementSound kind takes
    · next kind => exact while_of_takes statementSound kind takes
    · next kind => exact for_of_takes statementSound kind takes
    · next notPrint notBrace notIf notWhile notFor =>
      simp only [statementKinds, List.mem_cons, List.not_mem_nil, or_false] at member
      rcases member with kind | kind | kind | kind | kind | kind
      · exact absurd kind notPrint
      · exact absurd kind notBrace
      · exact absurd kind notIf
      · exact absurd kind notWhile
      · exact absurd kind notFor
      · exact .closed (return_of_takes kind takes)

theorem declaration_of_takes (statementSound : statement.Sound Settled)
    (sound : declaration.Sound Kept) :
    (declarationOver bound statement declaration).Sound Declaration := by
  intro tokens value rest takes
  rw [declarationOver, takes_bind] at takes
  obtain ⟨accepted, between, keywordTakes, takes⟩ := takes
  cases accepted with
  | none =>
    obtain ⟨rfl, _⟩ := takes_accept_none.mp keywordTakes
    obtain ⟨tail, derives, _⟩ := statementSound takes
    exact .statement derives
  | some token =>
    obtain ⟨rfl, member⟩ := takes_accept_some.mp keywordTakes
    dsimp only at takes
    split at takes
    · next kind => exact .variableDeclaration (variable_of_takes kind takes)
    · next kind => exact .variableDeclaration (constant_of_takes kind takes)
    · next notVar notConst =>
      simp only [List.mem_cons, List.not_mem_nil, or_false] at member
      rcases member with kind | kind | kind
      · exact absurd kind notVar
      · exact absurd kind notConst
      · exact function_of_takes sound kind takes

end Declarations

/-- Without a report nothing is given up. -/
theorem kept_of_takes {bound : Nat} {parser : Parser Stmt} (proper : parser.Proper bound)
    (sound : parser.Sound Declaration) : (recover parser).Sound Kept := by
  intro tokens value rest takes
  rw [Takes, recover] at takes
  cases parsed : parser tokens with
  | done statement left reports =>
    rw [parsed] at takes
    cases takes
    exact ⟨statement, rfl, sound parsed⟩
  | failed left reports =>
    have reported := proper tokens
    rw [parsed] at takes reported
    cases takes
    exact absurd rfl reported.2
  | starved =>
    rw [parsed] at takes
    cases takes

/-- Statements and declarations that are taken are phrases. -/
theorem statement_declaration_sound :
    ∀ bound, (statement bound).Sound Settled ∧ (declaration bound).Sound Kept
  | 0 => ⟨fun _ _ _ takes => (by cases takes), fun _ _ _ takes => (by cases takes)⟩
  | bound + 1 => by
    obtain ⟨statementSound, sound⟩ := statement_declaration_sound bound
    have here : (statementOver (bound + 1) (statement bound) (declaration bound)).Sound Settled :=
      settled_of_takes statementSound sound
    have proper := proper_declarationOver
      (proper_statementOver (proper_statement bound) (proper_declaration bound)
        (advances_declaration bound)) (proper_declaration bound) (advances_declaration bound)
    rw [declaration_succ, statement_succ]
    exact ⟨here, kept_of_takes proper.1 (declaration_of_takes here sound)⟩

/-- A token list that is taken as a whole is a program. -/
theorem program_of_takes {bound : Nat} {tokens rest : List Token} {statements : List Stmt}
    (takes : (declarations bound).Takes tokens statements rest) :
    Grammar.Program tokens statements := by
  obtain ⟨derives, ends⟩ :=
    repeated_of_takes looks_atEnd (statement_declaration_sound bound).2 takes
  rw [List.isEmpty_iff] at ends
  rw [ends] at derives
  exact derives

end Lox.Parser
