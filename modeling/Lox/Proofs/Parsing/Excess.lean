/-
This file says what parsers report. Arguments and parameters beyond the limit
are reported on the way, each of them once; any other error is reported by
failing. So a parser that makes a tree has reported what is beyond the limit in
that tree and nothing else, and a parser that fails has reported one error more,
the last one.
-/

import Lox.Syntax.Program
import Mathlib.Algebra.GroupWithZero.Nat

namespace Lox

open Token (Kind)

variable {α β : Type}

/-! ### Trees beyond the limit -/

/-- The error is one that parsing goes on behind: an item beyond the limit of a list. -/
def SyntaxError.isExcess : SyntaxError → Bool
  | .tooManyParameters => true
  | .tooManyArguments => true
  | _ => false

/-- The report is of an item beyond the limit. -/
def Report.isExcess (report : Report) : Bool := report.error.isExcess

mutual

/-- How many arguments in the expression are beyond the limit of their calls. -/
def Expr.excess : Expr → Nat
  | .literal _ => 0
  | .grouping inner => inner.excess
  | .variable _ => 0
  | .assign _ value => value.excess
  | .unary _ operand => operand.excess
  | .binary left _ right => left.excess + right.excess
  | .logical left _ right => left.excess + right.excess
  | .call callee _ arguments =>
    callee.excess + Expr.excessAll arguments + (arguments.length - argumentLimit)

/-- How many arguments in the expressions are beyond the limit of their calls. -/
def Expr.excessAll : List Expr → Nat
  | [] => 0
  | first :: others => first.excess + Expr.excessAll others

end

/-- How many arguments in a value that may be missing are beyond the limit of their calls. -/
def Expr.excess? (value : Option Expr) : Nat := value.elim 0 Expr.excess

mutual

/-- How many arguments and parameters in the statement are beyond the limit of their lists. -/
def Stmt.excess : Stmt → Nat
  | .expression value => value.excess
  | .print value => value.excess
  | .var _ _ initializer => Expr.excess? initializer
  | .block body => Stmt.excessAll body
  | .ifThen condition consequent => condition.excess + consequent.excess
  | .ifElse condition consequent alternative =>
    condition.excess + consequent.excess + alternative.excess
  | .while condition body => condition.excess + body.excess
  | .function _ parameters body => (parameters.length - argumentLimit) + Stmt.excessAll body
  | .return _ value => Expr.excess? value

/-- How many arguments and parameters in the statements are beyond the limit of their lists. -/
def Stmt.excessAll : List Stmt → Nat
  | [] => 0
  | first :: others => first.excess + Stmt.excessAll others

end

/-- How many arguments and parameters in a statement that may be missing are beyond the limit of
their lists. -/
def Stmt.excess? (statement : Option Stmt) : Nat := statement.elim 0 Stmt.excess

theorem Expr.excessAll_eq_sum : ∀ values : List Expr,
    Expr.excessAll values = (values.map Expr.excess).sum
  | [] => rfl
  | first :: others => by
    rw [Expr.excessAll, Expr.excessAll_eq_sum others, List.map_cons, List.sum_cons]

theorem Stmt.excessAll_append : ∀ first second : List Stmt,
    Stmt.excessAll (first ++ second) = Stmt.excessAll first + Stmt.excessAll second
  | [], second => (Nat.zero_add _).symm
  | statement :: first, second => by
    rw [List.cons_append, Stmt.excessAll, Stmt.excessAll, Stmt.excessAll_append first second,
      Nat.add_assoc]

theorem Stmt.excessAll_toList (statement : Option Stmt) :
    Stmt.excessAll statement.toList = Stmt.excess? statement := by
  cases statement <;> rfl

/-- What is beyond the limit in a `for` statement is so in one of its clauses or in its body. -/
theorem Stmt.excess_forLoop (initializer : Option Stmt) (condition increment : Option Expr)
    (body : Stmt) :
    (forLoop initializer condition increment body).excess =
      excess? initializer + Expr.excess? condition + Expr.excess? increment + body.excess := by
  cases initializer <;> cases condition <;> cases increment <;>
    simp only [forLoop, excess, excessAll, excess?, Expr.excess, Expr.excess?, Option.elim,
      Option.getD_none, Option.getD_some] <;>
    omega

/-! ### Counted reports -/

/-- Beside a number of reports made before, a value weighs as many as were made with it, which are
all of excess, and a failure has an error of another kind behind those. -/
def Parse.Counted (before : Nat) (weight : α → Nat) : Parse α → Prop
  | .done value _ reports =>
    (∀ report ∈ reports, report.isExcess = true) ∧ before + reports.length = weight value
  | .failed _ reports => ∃ excess last, reports = excess ++ [last] ∧
    (∀ report ∈ excess, report.isExcess = true) ∧ last.isExcess = false
  | .starved => True

/-- A value made without a report weighs what was reported before. -/
theorem Parse.counted_done_nil {before : Nat} {weight : α → Nat} {value : α} (rest : List Token)
    (same : before = weight value) : (Parse.done value rest []).Counted before weight :=
  ⟨List.forall_mem_nil _, same⟩

theorem Parse.Counted.after {before : Nat} {weight : α → Nat} {parse : Parse α}
    {earlier : List Report} (counted : parse.Counted (before + earlier.length) weight)
    (allExcess : ∀ report ∈ earlier, report.isExcess = true) :
    (parse.after earlier).Counted before weight := by
  cases parse with
  | done value rest reports =>
    obtain ⟨excess, same⟩ := counted
    refine ⟨List.forall_mem_append.mpr ⟨allExcess, excess⟩, ?_⟩
    rw [List.length_append, ← Nat.add_assoc, same]
  | failed rest reports =>
    obtain ⟨excess, last, rfl, excessLater, other⟩ := counted
    exact ⟨earlier ++ excess, last, (List.append_assoc _ _ _).symm,
      List.forall_mem_append.mpr ⟨allExcess, excessLater⟩, other⟩
  | starved => trivial

namespace Parser

/-- The reports of the parser are counted by what its values weigh. -/
def Counts (before : Nat) (weight : α → Nat) (parser : Parser α) : Prop :=
  ∀ tokens, (parser tokens).Counted before weight

/-- The parser reports as much as its values weigh. -/
def Weighs (weight : α → Nat) (parser : Parser α) : Prop :=
  ∀ before, parser.Counts before fun value => before + weight value

variable {before : Nat} {weight : α → Nat}

/-! ### Parts of productions -/

theorem counts_pure {value : α} (same : before = weight value) :
    (pure value : Parser α).Counts before weight :=
  fun tokens => Parse.counted_done_nil tokens same

theorem counts_bind {first : Parser α} {next : α → Parser β} {final : β → Nat}
    (counts : first.Counts before weight)
    (behind : ∀ value, (next value).Counts (weight value) final) :
    (first >>= next).Counts before final := by
  intro tokens
  have counted := counts tokens
  cases parsed : first tokens with
  | done value rest reports =>
    rw [parsed] at counted
    obtain ⟨excess, same⟩ := counted
    rw [bind_of_done parsed]
    exact Parse.Counted.after (same ▸ behind value rest) excess
  | failed rest reports =>
    rw [parsed] at counted
    rw [bind_of_failed parsed]
    exact counted
  | starved =>
    rw [bind_of_starved parsed]
    trivial

theorem counts_ite {condition : Prop} [Decidable condition] {positive negative : Parser α}
    (holds : positive.Counts before weight) (fails : negative.Counts before weight) :
    Counts before weight (if condition then positive else negative) := by
  split
  · exact holds
  · exact fails

theorem counts_starve : (starve : Parser α).Counts before weight := fun _ => trivial

theorem counts_atEnd : atEnd.Counts before fun _ => before :=
  fun tokens => Parse.counted_done_nil tokens rfl

theorem counts_nextIs (kind : Kind) : (nextIs kind).Counts before fun _ => before :=
  fun tokens => Parse.counted_done_nil tokens rfl

theorem counts_accept (kinds : List Kind) : (accept kinds).Counts before fun _ => before := by
  intro tokens
  cases tokens with
  | nil => exact Parse.counted_done_nil [] rfl
  | cons token rest =>
    rw [accept]
    split
    · exact Parse.counted_done_nil rest rfl
    · exact Parse.counted_done_nil (token :: rest) rfl

theorem counts_fail {error : SyntaxError} (other : error.isExcess = false) :
    (fail error : Parser α).Counts before weight :=
  fun _ => ⟨[], _, rfl, List.forall_mem_nil _, other⟩

theorem counts_failAt {error : SyntaxError} (other : error.isExcess = false) (token : Token) :
    (failAt token error : Parser α).Counts before weight :=
  fun _ => ⟨[], _, rfl, List.forall_mem_nil _, other⟩

theorem counts_warn {error : SyntaxError} (excess : error.isExcess = true) :
    (warn error).Counts before fun _ => before + 1 :=
  fun _ => ⟨List.forall_mem_singleton.mpr excess, rfl⟩

theorem counts_expect {kind : Kind} {error : SyntaxError} (other : error.isExcess = false) :
    (expect kind error).Counts before fun _ => before := by
  refine counts_bind (counts_accept _) fun accepted => ?_
  cases accepted with
  | none => exact counts_fail other
  | some token => exact counts_pure rfl

/-- An item is counted with what comes behind it, whether or not that begins with a comma. -/
theorem counts_item_bind {item : Parser α} (weighs : item.Weighs weight) {final : List α → Nat}
    {next : α → Option Token → Parser (List α)}
    (ends : ∀ first, (next first none).Counts (before + weight first) final)
    (goesOn : ∀ first comma, (next first (some comma)).Counts (before + weight first) final) :
    Counts before final (item >>= fun first => accept [.comma] >>= next first) := by
  refine counts_bind (weighs before) fun first => counts_bind (counts_accept _) fun comma => ?_
  cases comma with
  | none => exact ends first
  | some comma => exact goesOn first comma

/-- Each item of a list is reported from the limit on. -/
theorem counts_commaSeparated {excess : SyntaxError} (isExcess : excess.isExcess = true)
    {item : Parser α} (weighs : item.Weighs weight) : ∀ bound taken before,
      (commaSeparated excess item bound taken).Counts (before + (taken - argumentLimit))
        fun values => before + (values.map weight).sum + (taken + values.length - argumentLimit)
  | 0, _, _ => counts_starve
  | bound + 1, taken, before => by
    have ends : ∀ first, Counts (before + (taken + 1 - argumentLimit) + weight first)
        (fun values => before + (values.map weight).sum + (taken + values.length - argumentLimit))
        (pure [first]) := fun first => counts_pure <| by
      rw [List.map_singleton, List.sum_singleton, List.length_singleton, Nat.add_right_comm]
    have goesOn : ∀ first, Counts (before + (taken + 1 - argumentLimit) + weight first)
        (fun values => before + (values.map weight).sum + (taken + values.length - argumentLimit))
        (commaSeparated excess item bound (taken + 1) >>= fun others =>
          pure (first :: others)) := fun first => by
      have others := counts_commaSeparated isExcess weighs bound (taken + 1)
        (before + weight first)
      rw [Nat.add_right_comm] at others
      refine counts_bind others fun values => counts_pure ?_
      rw [List.map_cons, List.sum_cons, List.length_cons]
      omega
    rw [commaSeparated]
    split
    · next beyond =>
      refine counts_bind (counts_warn isExcess) fun _ => ?_
      rw [Nat.add_assoc, ← Nat.sub_add_comm beyond]
      exact counts_item_bind weighs ends fun first _ => goesOn first
    · next within =>
      have same : taken - argumentLimit = taken + 1 - argumentLimit := by omega
      rw [same]
      exact counts_item_bind weighs ends fun first _ => goesOn first

theorem counts_listed {excess : SyntaxError} (isExcess : excess.isExcess = true)
    {item : Parser α} (weighs : item.Weighs weight) (bound : Nat) :
    (listed bound excess item).Weighs fun values =>
      (values.map weight).sum + (values.length - argumentLimit) := by
  intro before
  refine counts_bind (counts_nextIs _) fun ends => counts_ite (counts_pure ?_) ?_
  · simp only [List.map_nil, List.sum_nil, List.length_nil, Nat.zero_sub, Nat.add_zero]
  · have items := counts_commaSeparated isExcess weighs bound 0 before
    simp only [Nat.zero_sub, Nat.zero_add, Nat.add_zero, Nat.add_assoc] at items
    exact items

/-! ### Expressions -/

section

variable {inner : Parser Expr} (weighs : inner.Weighs Expr.excess)

include weighs

theorem weighs_primary : (primary inner).Weighs Expr.excess := by
  have group : (grouped inner).Weighs Expr.excess := fun before =>
    counts_bind (weighs before) fun _ => counts_bind (counts_expect rfl) fun _ => counts_pure rfl
  intro before tokens
  cases tokens with
  | nil => exact counts_fail rfl []
  | cons token rest =>
    simp only [primary]
    split
    · next expression isAtom =>
      have none : expression.excess = 0 := by
        unfold atom? at isAtom
        split at isAtom <;> cases isAtom <;> rfl
      exact Parse.counted_done_nil rest (congrArg (before + ·) none).symm
    · split
      · exact group before rest
      · exact counts_fail rfl _

theorem counts_calls : ∀ bound before callee,
    (calls inner bound callee).Counts (before + callee.excess) fun value => before + value.excess
  | 0, _, _ => counts_starve
  | bound + 1, before, callee => by
    rw [calls]
    refine counts_bind (counts_accept _) fun opening => ?_
    cases opening with
    | none => exact counts_pure rfl
    | some _ =>
      refine counts_bind (counts_listed rfl weighs _ _) fun arguments => ?_
      refine counts_bind (counts_expect rfl) fun paren => ?_
      have further := counts_calls bound before (.call callee paren arguments)
      rw [Expr.excess, Expr.excessAll_eq_sum, Nat.add_assoc callee.excess, ← Nat.add_assoc before]
        at further
      exact further

theorem weighs_call (bound : Nat) : (call bound inner).Weighs Expr.excess :=
  fun before => counts_bind (weighs_primary weighs before) fun callee =>
    counts_calls weighs bound before callee

end

theorem weighs_unary {operand : Parser Expr} (weighs : operand.Weighs Expr.excess) :
    ∀ bound, (unary operand bound).Weighs Expr.excess
  | 0 => fun _ => counts_starve
  | bound + 1 => fun before => by
    rw [unary]
    refine counts_bind (counts_accept _) fun operator => ?_
    cases operator with
    | none => exact weighs before
    | some _ => exact counts_bind (weighs_unary weighs bound before) fun _ => counts_pure rfl

theorem counts_chain {level : Level}
    (sums : ∀ left operator right, (level.tree left operator right).excess =
      left.excess + right.excess)
    {operand : Parser Expr} (weighs : operand.Weighs Expr.excess) : ∀ bound before left,
    (chain level operand bound left).Counts (before + left.excess) fun value =>
      before + value.excess
  | 0, _, _ => counts_starve
  | bound + 1, before, left => by
    rw [chain]
    refine counts_bind (counts_accept _) fun operator => ?_
    cases operator with
    | none => exact counts_pure rfl
    | some operator =>
      refine counts_bind (weighs _) fun right => ?_
      have further := counts_chain sums weighs bound before (level.tree left operator right)
      rwa [sums, ← Nat.add_assoc] at further

theorem weighs_ladder {tightest : Parser Expr} (weighs : tightest.Weighs Expr.excess)
    (bound : Nat) : ∀ levels : List Level,
    (∀ level ∈ levels, ∀ left operator right, (level.tree left operator right).excess =
      left.excess + right.excess) →
    (ladder bound tightest levels).Weighs Expr.excess
  | [], _ => weighs
  | level :: tighter, sums => fun before => by
    obtain ⟨sumsHere, sumsTighter⟩ := List.forall_mem_cons.mp sums
    have operand := weighs_ladder weighs bound tighter sumsTighter
    exact counts_bind (operand before) fun left => counts_chain sumsHere operand bound before left

theorem weighs_assignment {target value : Parser Expr} (targetWeighs : target.Weighs Expr.excess)
    (valueWeighs : value.Weighs Expr.excess) : (assignment target value).Weighs Expr.excess := by
  intro before
  refine counts_bind (targetWeighs before) fun left => ?_
  refine counts_bind (counts_accept _) fun equals => ?_
  cases equals with
  | none => exact counts_pure rfl
  | some equals =>
    refine counts_bind (valueWeighs _) fun right => ?_
    cases left with
    | «variable» name => exact counts_pure rfl
    | literal _ | grouping _ | assign _ _ | unary _ _ | binary _ _ _ | logical _ _ _ | call _ _ _ =>
      exact counts_failAt rfl equals

/-- An expression reports the arguments in it that are beyond the limit. -/
theorem weighs_expression : ∀ bound, (expression bound).Weighs Expr.excess
  | 0 => fun _ => counts_starve
  | bound + 1 => by
    have inner := weighs_expression bound
    rw [expression_succ]
    refine weighs_assignment (weighs_ladder (weighs_unary (weighs_call inner _) _) _ _ ?_) inner
    simp only [levels, List.forall_mem_cons, List.not_mem_nil, false_implies, implies_true,
      and_true]
    exact ⟨fun _ _ _ => rfl, fun _ _ _ => rfl, fun _ _ _ => rfl, fun _ _ _ => rfl, fun _ _ _ => rfl,
      fun _ _ _ => rfl⟩

/-! ### Statements -/

section

variable {expression : Parser Expr} (weighs : expression.Weighs Expr.excess)

include weighs

/-- An expression and a token behind it make a tree that has no more beyond the limit. -/
theorem counts_terminated {kind : Kind} {error : SyntaxError} (other : error.isExcess = false)
    {next : Expr → Token → Parser α}
    (behind : ∀ value token, (next value token).Counts (before + value.excess) weight) :
    Counts before weight (expression >>= fun value =>
      expect kind error >>= fun token => next value token) :=
  counts_bind (weighs before) fun value => counts_bind (counts_expect other) fun token =>
    behind value token

theorem weighs_constantDeclaration : (constantDeclaration expression).Weighs Stmt.excess :=
  fun _ => counts_bind (counts_expect rfl) fun _ => counts_bind (counts_expect rfl) fun _ =>
    counts_terminated weighs rfl fun _ _ => counts_pure rfl

theorem weighs_variableDeclaration : (variableDeclaration expression).Weighs Stmt.excess := by
  intro before
  refine counts_bind (counts_expect rfl) fun _ => counts_bind (counts_accept _) fun equal => ?_
  cases equal with
  | none => exact counts_bind (counts_expect rfl) fun _ => counts_pure rfl
  | some _ => exact counts_terminated weighs rfl fun _ _ => counts_pure rfl

theorem weighs_constDeclaration : (constDeclaration expression).Weighs Stmt.excess :=
  fun before => counts_bind (counts_expect rfl) fun _ => weighs_constantDeclaration weighs before

theorem weighs_expressionStatement : (expressionStatement expression).Weighs Stmt.excess :=
  fun _ => counts_terminated weighs rfl fun _ _ => counts_pure rfl

theorem weighs_printStatement : (printStatement expression).Weighs Stmt.excess :=
  fun _ => counts_terminated weighs rfl fun _ _ => counts_pure rfl

theorem weighs_returnStatement (keyword : Token) :
    (returnStatement expression keyword).Weighs Stmt.excess :=
  fun _ => counts_bind (counts_nextIs _) fun _ => counts_ite
    (counts_bind (counts_expect rfl) fun _ => counts_pure rfl)
    (counts_terminated weighs rfl fun _ _ => counts_pure rfl)

theorem weighs_forInitializer : (forInitializer expression).Weighs Stmt.excess? := by
  intro before
  refine counts_bind (counts_accept _) fun first => ?_
  cases first with
  | none =>
    exact counts_bind (weighs_expressionStatement weighs before) fun _ => counts_pure rfl
  | some token =>
    dsimp only
    split
    · exact counts_bind (weighs_constDeclaration weighs before) fun _ => counts_pure rfl
    · exact counts_bind (weighs_variableDeclaration weighs before) fun _ => counts_pure rfl
    · exact counts_pure rfl

theorem weighs_forClause (closing : Kind) :
    (forClause closing expression).Weighs Expr.excess? :=
  fun before => counts_bind counts_atEnd fun _ => counts_bind (counts_nextIs _) fun _ =>
    counts_ite (counts_pure rfl) (counts_bind (weighs before) fun _ => counts_pure rfl)

variable {statement : Parser Stmt} (statementWeighs : statement.Weighs Stmt.excess)

include statementWeighs

theorem weighs_ifStatement : (ifStatement expression statement).Weighs Stmt.excess := by
  intro before
  refine counts_bind (counts_expect rfl) fun _ => counts_terminated weighs rfl fun condition _ => ?_
  refine counts_bind (statementWeighs _) fun consequent => ?_
  refine counts_bind (counts_accept _) fun separator => ?_
  cases separator with
  | none => exact counts_pure (Nat.add_assoc _ _ _)
  | some _ =>
    refine counts_bind (statementWeighs _) fun alternative => counts_pure ?_
    rw [Stmt.excess, Nat.add_assoc before, Nat.add_assoc before]

theorem weighs_whileStatement : (whileStatement expression statement).Weighs Stmt.excess :=
  fun _ => counts_bind (counts_expect rfl) fun _ => counts_terminated weighs rfl fun _ _ =>
    counts_bind (statementWeighs _) fun _ => counts_pure (Nat.add_assoc _ _ _)

theorem weighs_forStatement : (forStatement expression statement).Weighs Stmt.excess := by
  intro before
  refine counts_bind (counts_expect rfl) fun _ => ?_
  refine counts_bind (weighs_forInitializer weighs _) fun initializer => ?_
  refine counts_bind (weighs_forClause weighs _ _) fun condition => ?_
  refine counts_bind (counts_expect rfl) fun _ => ?_
  refine counts_bind (weighs_forClause weighs _ _) fun increment => ?_
  refine counts_bind (counts_expect rfl) fun _ => ?_
  refine counts_bind (statementWeighs _) fun body => counts_pure ?_
  rw [Stmt.excess_forLoop]
  omega

end

/-! ### Nesting -/

section

variable {declaration : Parser (Option Stmt)} (weighs : declaration.Weighs Stmt.excess?)

include weighs

theorem weighs_repeatUntil {stop : Parser Bool}
    (stays : ∀ before, stop.Counts before fun _ => before) :
    ∀ bound, (repeatUntil stop declaration bound).Weighs Stmt.excessAll
  | 0 => fun _ => counts_starve
  | bound + 1 => fun before => by
    rw [repeatUntil]
    refine counts_bind (stays before) fun stops => counts_ite (counts_pure rfl) ?_
    refine counts_bind (weighs before) fun first => ?_
    refine counts_bind (weighs_repeatUntil stays bound _) fun others => counts_pure ?_
    rw [Stmt.excessAll_append, Stmt.excessAll_toList, Nat.add_assoc]

theorem weighs_blockBody (bound : Nat) : (blockBody bound declaration).Weighs Stmt.excessAll := by
  intro before
  refine counts_bind (weighs_repeatUntil weighs (fun before => ?_) bound before) fun body => ?_
  · exact counts_bind counts_atEnd fun _ => counts_bind (counts_nextIs _) fun _ => counts_pure rfl
  · exact counts_bind (counts_expect rfl) fun _ => counts_pure rfl

theorem weighs_functionDeclaration (bound : Nat) :
    (functionDeclaration bound declaration).Weighs Stmt.excess := by
  intro before
  have parameter : (expect .identifier .parameterName).Weighs fun _ => 0 :=
    fun _ => counts_expect rfl
  refine counts_bind (counts_expect rfl) fun name => counts_bind (counts_expect rfl) fun _ => ?_
  refine counts_bind (counts_listed rfl parameter _ _) fun parameters => ?_
  refine counts_bind (counts_expect rfl) fun _ => counts_bind (counts_expect rfl) fun _ => ?_
  refine counts_bind (weighs_blockBody weighs bound _) fun body => counts_pure ?_
  simp only [List.map_const', List.sum_replicate_nat, Nat.mul_zero, Nat.zero_add, Stmt.excess,
    Nat.add_assoc]

variable {statement : Parser Stmt} (statementWeighs : statement.Weighs Stmt.excess)

include statementWeighs

theorem weighs_statementOver (bound : Nat) :
    (statementOver bound statement declaration).Weighs Stmt.excess := by
  intro before
  have expressions := weighs_expression bound
  refine counts_bind (counts_accept _) fun keyword => ?_
  cases keyword with
  | none => exact weighs_expressionStatement expressions before
  | some token =>
    dsimp only
    split
    · exact weighs_printStatement expressions before
    · exact counts_bind (weighs_blockBody weighs bound before) fun _ => counts_pure rfl
    · exact weighs_ifStatement expressions statementWeighs before
    · exact weighs_whileStatement expressions statementWeighs before
    · exact weighs_forStatement expressions statementWeighs before
    · exact weighs_returnStatement expressions token before

/-- A declaration that is not recovered from reports what is beyond the limit in it, if the
statements and declarations nested in it do. -/
theorem weighs_declarationOver (bound : Nat) :
    (declarationOver bound statement declaration).Weighs Stmt.excess := by
  intro before
  have expressions := weighs_expression bound
  refine counts_bind (counts_accept _) fun keyword => ?_
  cases keyword with
  | none => exact statementWeighs before
  | some token =>
    dsimp only
    split
    · exact weighs_variableDeclaration expressions before
    · exact weighs_constDeclaration expressions before
    · exact weighs_functionDeclaration weighs bound before

end

end Parser

end Lox
