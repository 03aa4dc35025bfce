/-
This file proves that parsers go forward: what a parser leaves is an end of the
tokens in front of it, a parser that fails has reported why, and a parser with
a bound above the number of its tokens never starves. A declaration, parsed or
given up, takes at least one token.
-/

import Lox.Syntax.Program

namespace Lox

open Token (Kind)

variable {α β : Type}

/-- What is left is an end of the tokens, a failure has a report, and only as many tokens as the
bound starve the parser. -/
def Parse.Proper (bound : Nat) (tokens : List Token) : Parse α → Prop
  | .done _ rest _ => rest <:+ tokens
  | .failed rest reports => rest <:+ tokens ∧ reports ≠ []
  | .starved => bound ≤ tokens.length

/-- Earlier reports, more tokens and a smaller bound keep an outcome proper. -/
theorem Parse.Proper.after {bound fewer : Nat} {tokens others : List Token} {parse : Parse α}
    (proper : parse.Proper bound tokens) (longer : tokens <:+ others)
    (smaller : bound ≤ tokens.length → fewer ≤ others.length) (earlier : List Report) :
    (parse.after earlier).Proper fewer others := by
  cases parse with
  | done value rest reports => exact proper.trans longer
  | failed rest reports =>
    exact ⟨proper.1.trans longer, fun none => proper.2 (List.append_eq_nil_iff.mp none).2⟩
  | starved => exact smaller proper

namespace Parser

/-- All outcomes of the parser are proper. -/
def Proper (bound : Nat) (parser : Parser α) : Prop :=
  ∀ tokens, (parser tokens).Proper bound tokens

theorem Proper.mono {bound fewer : Nat} {parser : Parser α} (proper : parser.Proper bound)
    (smaller : fewer ≤ bound) : parser.Proper fewer := by
  intro tokens
  have outcome := proper tokens
  cases parsed : parser tokens with
  | done value rest reports =>
    rw [parsed] at outcome
    exact outcome
  | failed rest reports =>
    rw [parsed] at outcome
    exact outcome
  | starved =>
    rw [parsed] at outcome
    exact Nat.le_trans smaller outcome

/-! ### Parts of productions -/

theorem proper_pure (bound : Nat) (value : α) : (pure value : Parser α).Proper bound :=
  fun tokens => List.suffix_refl tokens

theorem proper_bind {bound : Nat} {first : Parser α} {next : α → Parser β}
    (proper : first.Proper bound) (behind : ∀ value, (next value).Proper bound) :
    (first >>= next).Proper bound := by
  intro tokens
  have outcome := proper tokens
  cases parsed : first tokens with
  | done value rest reports =>
    rw [parsed] at outcome
    rw [bind_of_done parsed]
    exact (behind value rest).after outcome (fun few => Nat.le_trans few outcome.length_le) reports
  | failed rest reports =>
    rw [parsed] at outcome
    rw [bind_of_failed parsed]
    exact outcome
  | starved =>
    rw [parsed] at outcome
    rw [bind_of_starved parsed]
    exact outcome

theorem proper_atEnd (bound : Nat) : atEnd.Proper bound :=
  fun tokens => List.suffix_refl tokens

theorem proper_nextIs (bound : Nat) (kind : Kind) : (nextIs kind).Proper bound :=
  fun tokens => List.suffix_refl tokens

theorem proper_fail (bound : Nat) (error : SyntaxError) : (fail error : Parser α).Proper bound :=
  fun tokens => ⟨List.suffix_refl tokens, List.cons_ne_nil _ _⟩

theorem proper_failAt (bound : Nat) (token : Token) (error : SyntaxError) :
    (failAt token error : Parser α).Proper bound :=
  fun tokens => ⟨List.suffix_refl tokens, List.cons_ne_nil _ _⟩

theorem proper_warn (bound : Nat) (error : SyntaxError) : (warn error).Proper bound :=
  fun tokens => List.suffix_refl tokens

theorem proper_starve : (starve : Parser α).Proper 0 :=
  fun tokens => Nat.zero_le tokens.length

theorem proper_accept (bound : Nat) (kinds : List Kind) : (accept kinds).Proper bound := by
  intro tokens
  cases tokens with
  | nil => exact List.suffix_refl []
  | cons token rest =>
    by_cases member : token.kind ∈ kinds
    · rw [accept_of_mem rest member]
      exact List.suffix_cons token rest
    · rw [accept_of_notMem rest member]
      exact List.suffix_refl _

theorem proper_expect (bound : Nat) (kind : Kind) (error : SyntaxError) :
    (expect kind error).Proper bound := by
  refine proper_bind (proper_accept bound [kind]) fun accepted => ?_
  cases accepted with
  | none => exact proper_fail bound error
  | some token => exact proper_pure bound token

/-- Behind an optional token that was there, one token less is left to starve on. -/
theorem proper_accept_bind {bound : Nat} {kinds : List Kind} {next : Option Token → Parser β}
    (absent : (next none).Proper bound)
    (present : ∀ token, (next (some token)).Proper (bound - 1)) :
    (accept kinds >>= next).Proper bound := by
  intro tokens
  cases tokens with
  | nil =>
    rw [bind_of_done (accept_nil kinds)]
    exact (absent []).after (List.suffix_refl []) id []
  | cons token rest =>
    by_cases member : token.kind ∈ kinds
    · rw [bind_of_done (accept_of_mem rest member)]
      exact (present token rest).after (List.suffix_cons token rest) Nat.le_add_of_sub_le []
    · rw [bind_of_done (accept_of_notMem rest member)]
      exact (absent _).after (List.suffix_refl _) id []

/-- A list with commas starves on no fewer tokens than its bound and that of its items. -/
theorem proper_commaSeparated {itemBound : Nat} {excess : SyntaxError} {item : Parser α}
    (proper : item.Proper itemBound) :
    ∀ bound taken fewer, fewer ≤ bound → fewer ≤ itemBound →
      (commaSeparated excess item bound taken).Proper fewer
  | 0, _, _, small, _ => proper_starve.mono small
  | bound + 1, taken, fewer, small, smallItem => by
    have further : (commaSeparated excess item bound (taken + 1)).Proper (fewer - 1) :=
      proper_commaSeparated proper bound (taken + 1) (fewer - 1) (by omega) (by omega)
    rw [commaSeparated]
    split
    any_goals refine proper_bind (proper_warn _ _) fun _ => ?_
    all_goals
      refine proper_bind (proper.mono smallItem) fun first => ?_
      refine proper_accept_bind (proper_pure _ _) fun _ => ?_
      exact proper_bind further fun others => proper_pure _ _

theorem proper_listed {bound itemBound fewer : Nat} {excess : SyntaxError} {item : Parser α}
    (proper : item.Proper itemBound) (small : fewer ≤ bound) (smallItem : fewer ≤ itemBound) :
    (listed bound excess item).Proper fewer := by
  refine proper_bind (proper_nextIs _ _) fun ends => ?_
  split
  · exact proper_pure _ _
  · exact proper_commaSeparated proper bound 0 fewer small smallItem

/-! ### Expressions -/

theorem proper_primary {bound : Nat} {inner : Parser Expr} (proper : inner.Proper bound) :
    (primary inner).Proper (bound + 1) := by
  intro tokens
  cases tokens with
  | nil => exact ⟨List.suffix_refl [], List.cons_ne_nil _ _⟩
  | cons token rest =>
    simp only [primary]
    split
    · exact List.suffix_cons token rest
    · split
      · have inside : (grouped inner).Proper bound :=
          proper_bind proper fun _ =>
            proper_bind (proper_expect _ _ _) fun _ => proper_pure _ _
        have outcome := (inside rest).after (List.suffix_cons token rest)
          Nat.succ_le_succ []
        cases parsed : grouped inner rest <;> rw [parsed] at outcome <;> exact outcome
      · exact ⟨List.suffix_refl _, List.cons_ne_nil _ _⟩

theorem proper_calls {innerBound : Nat} {inner : Parser Expr} (proper : inner.Proper innerBound) :
    ∀ bound callee, bound ≤ innerBound + 1 → (calls inner bound callee).Proper bound
  | 0, _, _ => proper_starve
  | bound + 1, callee, small => by
    rw [calls]
    refine proper_accept_bind (proper_pure _ _) fun _ => ?_
    refine proper_bind (proper_listed proper ?_ ?_) fun arguments => ?_
    · omega
    · omega
    · exact proper_bind (proper_expect _ _ _) fun paren =>
        proper_calls proper bound (.call callee paren arguments) (by omega)

theorem proper_call {bound : Nat} {inner : Parser Expr} (proper : inner.Proper bound) :
    (call (bound + 1) inner).Proper (bound + 1) :=
  proper_bind (proper_primary proper) fun callee =>
    proper_calls proper (bound + 1) callee (Nat.le_refl _)

theorem proper_unary {operandBound : Nat} {operand : Parser Expr}
    (proper : operand.Proper operandBound) :
    ∀ bound, bound ≤ operandBound → (unary operand bound).Proper bound
  | 0, _ => proper_starve
  | bound + 1, small => by
    rw [unary]
    refine proper_accept_bind (proper.mono small) fun operator => ?_
    exact proper_bind (proper_unary proper bound (by omega)) fun _ => proper_pure _ _

theorem proper_chain {operandBound : Nat} {level : Level} {operand : Parser Expr}
    (proper : operand.Proper operandBound) :
    ∀ bound left, bound ≤ operandBound → (chain level operand bound left).Proper bound
  | 0, _, _ => proper_starve
  | bound + 1, left, small => by
    rw [chain]
    refine proper_accept_bind (proper_pure _ _) fun operator => ?_
    exact proper_bind (proper.mono (by omega)) fun right =>
      proper_chain proper bound (level.tree left operator right) (by omega)

theorem proper_ladder {bound : Nat} {tightest : Parser Expr} (proper : tightest.Proper bound) :
    ∀ levels, (ladder bound tightest levels).Proper bound
  | [] => proper
  | level :: tighter => by
    have operand := proper_ladder proper tighter
    exact proper_bind operand fun left => proper_chain operand bound left (Nat.le_refl _)

theorem proper_assignment {bound : Nat} {target value : Parser Expr}
    (targetProper : target.Proper (bound + 1)) (valueProper : value.Proper bound) :
    (assignment target value).Proper (bound + 1) := by
  refine proper_bind targetProper fun left => proper_accept_bind (proper_pure _ _) fun equals => ?_
  refine proper_bind valueProper fun right => ?_
  split
  · exact proper_pure _ _
  · exact proper_failAt _ _ _

theorem proper_expression : ∀ bound, (expression bound).Proper bound
  | 0 => fun tokens => Nat.zero_le tokens.length
  | bound + 1 => by
    have inner := proper_expression bound
    rw [expression_succ, expressionOver]
    exact proper_assignment
      (proper_ladder (proper_unary (proper_call inner) _ (Nat.le_refl _)) levels) inner

/-! ### Parsers that take a token -/

/-- The parser makes its values of at least one token. -/
def Consumes (parser : Parser α) : Prop :=
  ∀ tokens value rest reports, parser tokens = .done value rest reports →
    rest.length < tokens.length

/-- A value of a sequence is made of what its parts leave. -/
theorem exists_of_bind_eq_done {first : Parser α} {next : α → Parser β} {tokens rest : List Token}
    {value : β} {reports : List Report}
    (parsed : (first >>= next) tokens = .done value rest reports) :
    ∃ middle between earlier later, first tokens = .done middle between earlier ∧
      next middle between = .done value rest later := by
  cases start : first tokens with
  | done middle between earlier =>
    rw [bind_of_done start] at parsed
    cases behind : next middle between with
    | done last left later =>
      rw [behind] at parsed
      cases parsed
      exact ⟨middle, between, earlier, later, rfl, behind⟩
    | failed left later =>
      rw [behind] at parsed
      cases parsed
    | starved =>
      rw [behind] at parsed
      cases parsed
  | failed left earlier =>
    rw [bind_of_failed start] at parsed
    cases parsed
  | starved =>
    rw [bind_of_starved start] at parsed
    cases parsed

/-- A proper parser leaves no more than it got. -/
theorem Proper.length_le {bound : Nat} {parser : Parser α} (proper : parser.Proper bound)
    {tokens rest : List Token} {value : α} {reports : List Report}
    (parsed : parser tokens = .done value rest reports) : rest.length ≤ tokens.length := by
  have outcome := proper tokens
  rw [parsed] at outcome
  exact outcome.length_le

theorem consumes_bind {bound : Nat} {first : Parser α} {next : α → Parser β}
    (proper : first.Proper bound) (behind : ∀ value, (next value).Consumes) :
    (first >>= next).Consumes := by
  intro tokens value rest reports parsed
  obtain ⟨middle, between, earlier, later, start, finish⟩ := exists_of_bind_eq_done parsed
  exact Nat.lt_of_lt_of_le (behind middle _ _ _ _ finish) (proper.length_le start)

theorem consumes_expect_bind {bound : Nat} {kind : Kind} {error : SyntaxError}
    {next : Token → Parser β} (behind : ∀ token, (next token).Proper bound) :
    (expect kind error >>= next).Consumes := by
  intro tokens value rest reports parsed
  obtain ⟨token, between, earlier, later, start, finish⟩ := exists_of_bind_eq_done parsed
  have shorter : between.length < tokens.length := by
    cases tokens with
    | nil => cases start
    | cons first others =>
      by_cases same : first.kind ∈ [kind]
      · rw [expect, bind_of_done (accept_of_mem others same)] at start
        cases start
        simp
      · rw [expect, bind_of_done (accept_of_notMem others same)] at start
        cases start
  exact Nat.lt_of_le_of_lt ((behind token).length_le finish) shorter

theorem consumes_accept_bind {bound : Nat} {kinds : List Kind} {next : Option Token → Parser β}
    (absent : (next none).Consumes) (present : ∀ token, (next (some token)).Proper bound) :
    (accept kinds >>= next).Consumes := by
  intro tokens value rest reports parsed
  obtain ⟨accepted, between, earlier, later, start, finish⟩ := exists_of_bind_eq_done parsed
  cases tokens with
  | nil =>
    cases start
    exact absent _ _ _ _ finish
  | cons first others =>
    by_cases member : first.kind ∈ kinds
    · rw [accept_of_mem others member] at start
      cases start
      exact Nat.lt_succ_of_le ((present first).length_le finish)
    · rw [accept_of_notMem others member] at start
      cases start
      exact absent _ _ _ _ finish

theorem proper_consumes_accept_bind {bound : Nat} {kinds : List Kind}
    {next : Option Token → Parser β} (absent : (next none).Proper bound ∧ (next none).Consumes)
    (present : ∀ token, (next (some token)).Proper (bound - 1)) :
    (accept kinds >>= next).Proper bound ∧ (accept kinds >>= next).Consumes :=
  ⟨proper_accept_bind absent.1 present, consumes_accept_bind absent.2 present⟩

/-! ### Statements -/

section Statements

variable {bound : Nat} {expression : Parser Expr} {statement : Parser Stmt}

theorem proper_constantDeclaration (proper : expression.Proper bound) :
    (constantDeclaration expression).Proper bound :=
  proper_bind (proper_expect _ _ _) fun _ => proper_bind (proper_expect _ _ _) fun _ =>
    proper_bind proper fun _ => proper_bind (proper_expect _ _ _) fun _ => proper_pure _ _

theorem proper_constDeclaration (proper : expression.Proper bound) :
    (constDeclaration expression).Proper bound :=
  proper_bind (proper_expect _ _ _) fun _ => proper_constantDeclaration proper

theorem proper_variableDeclaration (proper : expression.Proper bound) :
    (variableDeclaration expression).Proper bound := by
  refine proper_bind (proper_expect _ _ _) fun _ =>
    proper_bind (proper_accept _ _) fun accepted => ?_
  cases accepted with
  | none => exact proper_bind (proper_expect _ _ _) fun _ => proper_pure _ _
  | some _ =>
    exact proper_bind proper fun _ => proper_bind (proper_expect _ _ _) fun _ => proper_pure _ _

theorem proper_expressionStatement (proper : expression.Proper bound) :
    (expressionStatement expression).Proper bound :=
  proper_bind proper fun _ => proper_bind (proper_expect _ _ _) fun _ => proper_pure _ _

theorem consumes_expressionStatement (proper : expression.Proper bound) :
    (expressionStatement expression).Consumes :=
  consumes_bind proper fun _ => consumes_expect_bind fun _ => proper_pure bound _

theorem proper_printStatement (proper : expression.Proper bound) :
    (printStatement expression).Proper bound :=
  proper_bind proper fun _ => proper_bind (proper_expect _ _ _) fun _ => proper_pure _ _

theorem proper_returnStatement (proper : expression.Proper bound) (keyword : Token) :
    (returnStatement expression keyword).Proper bound := by
  refine proper_bind (proper_nextIs _ _) fun ends => ?_
  split
  · exact proper_bind (proper_expect _ _ _) fun _ => proper_pure _ _
  · exact proper_bind proper fun _ => proper_bind (proper_expect _ _ _) fun _ => proper_pure _ _

theorem proper_ifStatement (proper : expression.Proper bound)
    (statementProper : statement.Proper bound) :
    (ifStatement expression statement).Proper bound := by
  refine proper_bind (proper_expect _ _ _) fun _ => proper_bind proper fun _ =>
    proper_bind (proper_expect _ _ _) fun _ => proper_bind statementProper fun _ =>
      proper_bind (proper_accept _ _) fun accepted => ?_
  cases accepted with
  | none => exact proper_pure _ _
  | some _ => exact proper_bind statementProper fun _ => proper_pure _ _

theorem proper_whileStatement (proper : expression.Proper bound)
    (statementProper : statement.Proper bound) :
    (whileStatement expression statement).Proper bound :=
  proper_bind (proper_expect _ _ _) fun _ => proper_bind proper fun _ =>
    proper_bind (proper_expect _ _ _) fun _ => proper_bind statementProper fun _ =>
      proper_pure _ _

theorem proper_forInitializer (proper : expression.Proper bound) :
    (forInitializer expression).Proper bound := by
  refine proper_bind (proper_accept _ _) fun accepted => ?_
  cases accepted with
  | none => exact proper_bind (proper_expressionStatement proper) fun _ => proper_pure _ _
  | some token =>
    dsimp only
    split
    · exact proper_bind (proper_constDeclaration proper) fun _ => proper_pure _ _
    · exact proper_bind (proper_variableDeclaration proper) fun _ => proper_pure _ _
    · exact proper_pure _ _

theorem proper_forClause (proper : expression.Proper bound) (closing : Kind) :
    (forClause closing expression).Proper bound := by
  refine proper_bind (proper_atEnd _) fun _ => proper_bind (proper_nextIs _ _) fun _ => ?_
  split
  · exact proper_pure _ _
  · exact proper_bind proper fun _ => proper_pure _ _

theorem proper_forStatement (proper : expression.Proper bound)
    (statementProper : statement.Proper bound) :
    (forStatement expression statement).Proper bound :=
  proper_bind (proper_expect _ _ _) fun _ => proper_bind (proper_forInitializer proper) fun _ =>
    proper_bind (proper_forClause proper _) fun _ => proper_bind (proper_expect _ _ _) fun _ =>
      proper_bind (proper_forClause proper _) fun _ => proper_bind (proper_expect _ _ _) fun _ =>
        proper_bind statementProper fun _ => proper_pure _ _

end Statements

/-! ### Nesting and recovery -/

/-- The parser takes at least one of the tokens if there is one. -/
def Advances (parser : Parser α) : Prop :=
  ∀ token tokens value rest reports, parser (token :: tokens) = .done value rest reports →
    rest.length ≤ tokens.length

/-- A stop condition looks at the tokens, takes none, and holds at their end. -/
structure Looks (stop : Parser Bool) (halts : List Token → Bool) : Prop where
  look : ∀ tokens, stop tokens = .done (halts tokens) tokens []
  halts_nil : halts [] = true

/-- The end of the tokens as a stop condition. -/
theorem looks_atEnd : Looks atEnd List.isEmpty := ⟨fun _ => rfl, rfl⟩

/-- The end of the tokens or of a block as a stop condition. -/
theorem looks_blockEnd :
    Looks (do return (← atEnd) || (← nextIs .rightBrace)) fun tokens =>
      tokens.isEmpty || tokens.head?.any fun token => token.kind = .rightBrace :=
  ⟨fun _ => rfl, rfl⟩

theorem proper_repeatUntil {itemBound : Nat} {stop : Parser Bool} {halts : List Token → Bool}
    {item : Parser (Option α)} (looks : Looks stop halts) (proper : item.Proper itemBound)
    (advances : item.Advances) :
    ∀ bound fewer, fewer ≤ bound → fewer ≤ itemBound →
      (repeatUntil stop item bound).Proper fewer
  | 0, _, small, _ => proper_starve.mono small
  | bound + 1, fewer, small, smallItem => by
    intro tokens
    rw [repeatUntil, bind_of_done (looks.look tokens)]
    refine @Parse.Proper.after _ fewer fewer tokens tokens _ ?_ (List.suffix_refl tokens) id []
    split
    · exact proper_pure _ _ tokens
    · next going =>
      cases tokens with
      | nil => exact absurd looks.halts_nil going
      | cons token others =>
        have outcome := proper.mono smallItem (token :: others)
        cases parsed : item (token :: others) with
        | done value rest reports =>
          rw [parsed] at outcome
          rw [bind_of_done parsed]
          have further := proper_repeatUntil looks proper advances bound (fewer - 1)
            (by omega) (by omega)
          have shorter := advances token others value rest reports parsed
          refine (proper_bind further (fun _ => proper_pure _ _) rest).after outcome ?_ reports
          rw [List.length_cons]
          omega
        | failed rest reports =>
          rw [parsed] at outcome
          rw [bind_of_failed parsed]
          exact outcome
        | starved =>
          rw [parsed] at outcome
          rw [bind_of_starved parsed]
          exact outcome

/-- Recovery leaves an end of the tokens. -/
theorem synchronize_suffix : ∀ tokens, synchronize tokens <:+ tokens
  | [] => List.suffix_refl []
  | token :: rest => by
    rw [synchronize]
    split
    · exact List.suffix_cons token rest
    · exact (synchronize_suffix rest).trans (List.suffix_cons token rest)

theorem proper_recover {bound : Nat} {parser : Parser α} (proper : parser.Proper bound) :
    (recover parser).Proper bound := by
  intro tokens
  have outcome := proper tokens
  cases parsed : parser tokens with
  | done value rest reports =>
    rw [parsed] at outcome
    rw [recover, parsed]
    exact outcome
  | failed rest reports =>
    rw [parsed] at outcome
    rw [recover, parsed]
    exact (synchronize_suffix rest).trans outcome.1
  | starved =>
    rw [parsed] at outcome
    rw [recover, parsed]
    exact outcome

/-- Recovery takes a token even where the parser that failed took none. -/
theorem advances_recover {bound : Nat} {parser : Parser α} (proper : parser.Proper bound)
    (consumes : parser.Consumes) : (recover parser).Advances := by
  intro token tokens value rest reports parsed
  have outcome := proper (token :: tokens)
  cases start : parser (token :: tokens) with
  | done made left reported =>
    rw [recover, start] at parsed
    cases parsed
    exact Nat.le_of_lt_succ (consumes _ _ _ _ start)
  | failed left reported =>
    rw [start] at outcome
    rw [recover, start] at parsed
    cases parsed
    cases left with
    | nil => exact Nat.zero_le _
    | cons next others =>
      have dropped := length_synchronize_lt next others
      have reached := outcome.1.length_le
      simp only [List.length_cons] at dropped reached ⊢
      omega
  | starved =>
    rw [recover, start] at parsed
    cases parsed

section Declarations

variable {bound : Nat} {statement : Parser Stmt} {declaration : Parser (Option Stmt)}

theorem proper_blockBody (proper : declaration.Proper bound) (advances : declaration.Advances) :
    (blockBody (bound + 1) declaration).Proper bound :=
  proper_bind
    (proper_repeatUntil looks_blockEnd proper advances _ _ (Nat.le_succ _) (Nat.le_refl _))
    fun _ => proper_bind (proper_expect _ _ _) fun _ => proper_pure _ _

theorem proper_functionDeclaration (proper : declaration.Proper bound)
    (advances : declaration.Advances) :
    (functionDeclaration (bound + 1) declaration).Proper bound :=
  proper_bind (proper_expect _ _ _) fun _ => proper_bind (proper_expect _ _ _) fun _ =>
    proper_bind (proper_listed (proper_expect (bound + 1) _ _) (Nat.le_succ _) (Nat.le_succ _))
      fun _ => proper_bind (proper_expect _ _ _) fun _ =>
        proper_bind (proper_expect _ _ _) fun _ =>
          proper_bind (proper_blockBody proper advances) fun _ => proper_pure _ _

theorem proper_statementOver (statementProper : statement.Proper bound)
    (proper : declaration.Proper bound) (advances : declaration.Advances) :
    (statementOver (bound + 1) statement declaration).Proper (bound + 1) ∧
      (statementOver (bound + 1) statement declaration).Consumes := by
  have expression := proper_expression (bound + 1)
  have fewer := expression.mono (Nat.le_succ bound)
  rw [statementOver]
  refine proper_consumes_accept_bind
    ⟨proper_expressionStatement expression, consumes_expressionStatement expression⟩ fun token => ?_
  dsimp only
  split
  · exact proper_printStatement fewer
  · exact proper_bind (proper_blockBody proper advances) fun _ => proper_pure _ _
  · exact proper_ifStatement fewer statementProper
  · exact proper_whileStatement fewer statementProper
  · exact proper_forStatement fewer statementProper
  · exact proper_returnStatement fewer token

theorem proper_declarationOver
    (statementProper : statement.Proper (bound + 1) ∧ statement.Consumes)
    (proper : declaration.Proper bound) (advances : declaration.Advances) :
    (declarationOver (bound + 1) statement declaration).Proper (bound + 1) ∧
      (declarationOver (bound + 1) statement declaration).Consumes := by
  have expression := (proper_expression (bound + 1)).mono (Nat.le_succ bound)
  rw [declarationOver]
  refine proper_consumes_accept_bind statementProper fun token => ?_
  dsimp only
  split
  · exact proper_variableDeclaration expression
  · exact proper_constDeclaration expression
  · exact proper_functionDeclaration proper advances

end Declarations

/-- Statements and declarations are parsed properly, and a declaration takes a token. -/
theorem proper_statement_declaration :
    ∀ bound, (statement bound).Proper bound ∧ (declaration bound).Proper bound ∧
      (declaration bound).Advances
  | 0 => ⟨fun tokens => Nat.zero_le tokens.length, fun tokens => Nat.zero_le tokens.length,
      fun _ _ _ _ _ parsed => by cases parsed⟩
  | bound + 1 => by
    obtain ⟨statementProper, proper, advances⟩ := proper_statement_declaration bound
    have here := proper_statementOver statementProper proper advances
    have whole := proper_declarationOver here proper advances
    rw [statement_succ, declaration_succ]
    exact ⟨here.1, proper_recover whole.1, advances_recover whole.1 whole.2⟩

theorem proper_statement (bound : Nat) : (statement bound).Proper bound :=
  (proper_statement_declaration bound).1

theorem proper_declaration (bound : Nat) : (declaration bound).Proper bound :=
  (proper_statement_declaration bound).2.1

theorem advances_declaration (bound : Nat) : (declaration bound).Advances :=
  (proper_statement_declaration bound).2.2

/-- All declarations up to the end are parsed properly. -/
theorem proper_declarations (bound : Nat) : (declarations bound).Proper bound :=
  proper_repeatUntil looks_atEnd (proper_declaration bound) (advances_declaration bound) bound
    bound (Nat.le_refl _) (Nat.le_refl _)

end Parser

end Lox
