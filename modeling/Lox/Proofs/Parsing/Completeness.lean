/-
This file proves that the parser refuses nothing of the grammar: every phrase
is taken as a whole, as long as what follows it would not go on with it.

A rank that groups to the left is read by a loop, so a phrase of it is said to
lead the loop: what the loop goes on to take behind the phrase, the parser of
the rank takes from the beginning of the phrase.
-/

import Lox.Proofs.Parsing.Soundness
import Mathlib.Logic.ExistsUnique

namespace Lox.Grammar

open Token (Kind)

/-! ### What goes on with an expression -/

/-- The ranks of binary operators with all tighter ones. -/
def Rank.all : List Rank :=
  [.assignment, .or, .and, .equality, .comparison, .term, .factor, .unary, .call, .primary]

/-- The kinds of the tokens that go on with an expression of a rank other than assignment. -/
def Rank.extending (rank : Rank) : List Kind :=
  (Rank.all.dropWhile (· ≠ rank)).flatMap Rank.operators ++ [.leftParen]

theorem Rank.extending_eq {rank next : Rank} (tighter : rank.tighter? = some next) :
    rank.extending = rank.operators ++ next.extending := by
  cases rank <;> cases tighter <;> rfl

/-- An operator of a rank does not go on with its operands. -/
theorem Rank.notMem_extending {rank next : Rank} (tighter : rank.tighter? = some next) :
    ∀ kind ∈ rank.operators, kind ∉ next.extending := by
  cases rank <;> cases tighter <;> decide

end Lox.Grammar

namespace Lox.Parser

open Grammar
open Token (Kind)

theorem avoids_of_begins {kinds others : List Kind} {tokens : List Token}
    (begins : Begins kinds tokens) (disjoint : ∀ kind ∈ kinds, kind ∉ others) :
    Avoids others tokens := by
  obtain ⟨first, rest, rfl, member⟩ := begins
  exact avoids_cons.mpr (disjoint _ member)

variable {α : Type}

/-! ### Lists -/

/-- What ends a list: neither a comma nor more of the last item. -/
theorem takes_commaSeparated {item : Parser α} {phrase : Phrase α} {excess : SyntaxError}
    {follow : List Kind} {tokens rest : List Token} {values : List α}
    (derives : Separated phrase tokens values rest) (comma : .comma ∉ follow)
    (shorter : ∀ {tokens value rest}, phrase tokens value rest → rest.length < tokens.length)
    (ends : Avoids (.comma :: follow) rest) :
    ∀ bound taken, tokens.length < bound → taken + values.length ≤ argumentLimit →
      (∀ {start value left}, phrase start value left → start.length ≤ tokens.length →
        Avoids follow left → item.Takes start value left) →
      (commaSeparated excess item bound taken).Takes tokens values rest := by
  induction derives with
  | @last tokens rest value first =>
    intro bound taken short few takes
    obtain ⟨bound, rfl⟩ : ∃ fewer, bound = fewer + 1 := ⟨bound - 1, by omega⟩
    rw [List.length_singleton] at few
    rw [commaSeparated, if_neg (by omega)]
    refine Takes.bind (takes first (Nat.le_refl _) (ends.mono (List.subset_cons_self _ _))) ?_
    exact takes_accept_bind_of_avoids (ends.mono (by simp)) (takes_pure.mpr ⟨rfl, rfl⟩)
  | @more tokens between rest separator value others first commaKind _ inductionHypothesis =>
    intro bound taken short few takes
    obtain ⟨bound, rfl⟩ : ∃ fewer, bound = fewer + 1 := ⟨bound - 1, by omega⟩
    have taken' := shorter first
    rw [List.length_cons] at few taken'
    rw [commaSeparated, if_neg (by omega)]
    refine Takes.bind (takes first (Nat.le_refl _) (avoids_cons.mpr (commaKind ▸ comma))) ?_
    refine takes_accept_bind_of_mem (by simp [commaKind]) ?_
    refine Takes.bind ?_ (takes_pure.mpr ⟨rfl, rfl⟩)
    exact inductionHypothesis ends bound (taken + 1) (by omega) (by omega)
      fun derives within => takes derives (by omega)

theorem takes_listed {item : Parser α} {phrase : Phrase α} {excess : SyntaxError}
    {follow : List Kind} {tokens rest : List Token} {values : List α} {bound : Nat}
    {closing : Token} (derives : Listed phrase tokens values (closing :: rest))
    (closes : closing.kind = .rightParen) (comma : .comma ∉ follow) (paren : .rightParen ∉ follow)
    (shorter : ∀ {tokens value rest}, phrase tokens value rest → rest.length < tokens.length)
    (opens : ∀ {tokens value rest}, phrase tokens value rest → Avoids [.rightParen] tokens)
    (short : tokens.length < bound)
    (takes : ∀ {start value left}, phrase start value left → start.length ≤ tokens.length →
      Avoids follow left → item.Takes start value left) :
    (listed bound excess item).Takes tokens values (closing :: rest) := by
  cases derives with
  | none =>
    refine Takes.bind (takes_nextIs.mpr ⟨rfl, rfl⟩) ?_
    rw [if_pos (by simp [closes])]
    exact takes_pure.mpr ⟨rfl, rfl⟩
  | some separated few =>
    have avoids : Avoids [.rightParen] tokens := by
      cases separated with
      | last first => exact opens first
      | more first _ _ => exact opens first
    refine Takes.bind (takes_nextIs.mpr ⟨rfl, rfl⟩) ?_
    rw [if_neg ?_]
    · refine takes_commaSeparated separated comma shorter (avoids_cons.mpr ?_) bound 0 short
        (by rw [argumentLimit]; omega) takes
      rw [closes, List.mem_cons, not_or]
      exact ⟨by decide, paren⟩
    · cases tokens with
      | nil => simp
      | cons first others => simpa using avoids

/-! ### Expressions -/

/-- The operands of binary operators. -/
def tightest (bound : Nat) : Parser Expr :=
  unary (call (bound + 1) (expression bound)) (bound + 1)

/-- What the loop takes behind the rest, with a bound above its length, the parser takes behind
the tokens. -/
def Leads (loop : Nat → Parser Expr) (parser : Parser Expr) (tokens rest : List Token) : Prop :=
  ∃ bound, rest.length < bound ∧
    ∀ value left, (loop bound).Takes rest value left → parser.Takes tokens value left

/-- The parser of binary operators of a rank reads the phrase and then goes on with the loop of
the rank. -/
def ReadsOperation (bound : Nat) (rank : Rank) : Phrase Expr := fun tokens value rest =>
  ∀ next levels, rank.tighter? = some next → Rung levels next → Avoids next.extending rest →
    Leads (fun fewer => chain ⟨rank.operators, rank.tree⟩
        (ladder (bound + 1) (tightest bound) levels) fewer value)
      (ladder (bound + 1) (tightest bound) (⟨rank.operators, rank.tree⟩ :: levels)) tokens rest

/-- The parser of the rank reads the phrase. -/
def ReadsWithin (bound : Nat) : Rank → Phrase Expr
  | .primary => (primary (expression bound)).Takes
  | .call => fun tokens value rest =>
    Leads (fun fewer => calls (expression bound) fewer value)
      (call (bound + 1) (expression bound)) tokens rest
  | .unary => fun tokens value rest =>
    ∀ fewer, tokens.length < fewer → Avoids Rank.unary.extending rest →
      (unary (call (bound + 1) (expression bound)) fewer).Takes tokens value rest
  | .assignment => fun tokens value rest =>
    Avoids (.equal :: Rank.or.extending) rest → (expression (bound + 1)).Takes tokens value rest
  | rank => ReadsOperation bound rank

/-- The parser of the rank reads the phrase, with any bound that is no less than the number of the
tokens. -/
def Reads (rank : Rank) : Phrase Expr := fun tokens value rest =>
  ∀ bound, tokens.length ≤ bound → ReadsWithin bound rank tokens value rest

theorem readsWithin_of_operators {rank : Rank} (operators : rank.operators ≠ []) (bound : Nat) :
    ReadsWithin bound rank = ReadsOperation bound rank := by
  cases rank <;> first | rfl | exact absurd rfl operators

theorem takes_chain_of_avoids {level : Level} {operand : Parser Expr} {bound : Nat} {left : Expr}
    {rest : List Token} (positive : 0 < bound) (ends : Avoids level.operators rest) :
    (chain level operand bound left).Takes rest left rest := by
  obtain ⟨bound, rfl⟩ : ∃ fewer, bound = fewer + 1 := ⟨bound - 1, by omega⟩
  exact takes_accept_bind_of_avoids ends (takes_pure.mpr ⟨rfl, rfl⟩)

theorem takes_calls_of_avoids {inner : Parser Expr} {bound : Nat} {callee : Expr}
    {rest : List Token} (positive : 0 < bound) (ends : Avoids [.leftParen] rest) :
    (calls inner bound callee).Takes rest callee rest := by
  obtain ⟨bound, rfl⟩ : ∃ fewer, bound = fewer + 1 := ⟨bound - 1, by omega⟩
  exact takes_accept_bind_of_avoids ends (takes_pure.mpr ⟨rfl, rfl⟩)

section Expressions

variable {rank next : Rank} {tokens rest : List Token} {value : Expr} {bound : Nat}

/-- In front of a token that does not go on with it, a phrase is all that is read. -/
theorem Reads.takes_ladder {levels : List Level} (reads : Reads rank tokens value rest)
    (rung : Rung levels rank) (short : tokens.length ≤ bound)
    (ends : Avoids rank.extending rest) :
    (ladder (bound + 1) (tightest bound) levels).Takes tokens value rest := by
  cases rung with
  | bottom => exact reads bound short (bound + 1) (Nat.lt_succ_of_le short) ends
  | step operators tighter rung =>
    have leads := reads bound short
    rw [readsWithin_of_operators operators] at leads
    rw [Rank.extending_eq tighter] at ends
    obtain ⟨fewer, within, leads⟩ :=
      leads _ _ tighter rung (ends.mono (List.subset_append_right _ _))
    exact leads _ _ (takes_chain_of_avoids (Nat.zero_lt_of_lt within)
      (ends.mono (List.subset_append_left _ _)))

theorem reads_call_of_primary (derives : Expression .primary tokens value rest)
    (reads : Reads .primary tokens value rest) : Reads .call tokens value rest := by
  intro bound short
  exact ⟨bound + 1, Nat.lt_succ_of_lt (Nat.lt_of_lt_of_le derives.length_lt short),
    fun _ _ takes => Takes.bind (reads bound short) takes⟩

theorem reads_unary_of_call (derives : Expression .call tokens value rest)
    (reads : Reads .call tokens value rest) : Reads .unary tokens value rest := by
  intro bound short fewer within ends
  obtain ⟨fewer, rfl⟩ : ∃ less, fewer = less + 1 := ⟨fewer - 1, by omega⟩
  obtain ⟨loop, positive, leads⟩ := reads bound short
  refine takes_accept_bind_of_avoids (avoids_of_begins derives.begins (by decide)) ?_
  exact leads _ _ (takes_calls_of_avoids (Nat.zero_lt_of_lt positive) ends)

theorem reads_of_tighter_of_operators (operators : rank.operators ≠ [])
    (tighter : rank.tighter? = some next) (derives : Expression next tokens value rest)
    (reads : Reads next tokens value rest) : Reads rank tokens value rest := by
  intro bound short
  rw [readsWithin_of_operators operators]
  intro same levels equal rung ends
  obtain rfl : next = same := Option.some.inj (tighter.symm.trans equal)
  exact ⟨bound + 1, Nat.lt_succ_of_lt (Nat.lt_of_lt_of_le derives.length_lt short),
    fun _ _ takes => Takes.bind (reads.takes_ladder rung short ends) takes⟩

theorem reads_assignment_of_or (reads : Reads .or tokens value rest) :
    Reads .assignment tokens value rest := by
  intro bound short ends
  rw [expression_succ, expressionOver]
  refine Takes.bind (reads.takes_ladder rung_levels short
    (ends.mono (List.subset_cons_self _ _))) ?_
  exact takes_accept_bind_of_avoids (ends.mono (by simp)) (takes_pure.mpr ⟨rfl, rfl⟩)

/-- An expression of the rank below is read as one of the rank. -/
theorem reads_of_tighter (tighter : rank.tighter? = some next)
    (derives : Expression next tokens value rest) (reads : Reads next tokens value rest) :
    Reads rank tokens value rest := by
  by_cases operators : rank.operators = []
  · cases rank <;> cases tighter <;> try cases operators
    · exact reads_assignment_of_or reads
    · exact reads_unary_of_call derives reads
    · exact reads_call_of_primary derives reads
  · exact reads_of_tighter_of_operators operators tighter derives reads

end Expressions

theorem atom?_eq_some {token : Token} {value : Expr} (atom : Atom token value) :
    atom? token = some value := by
  cases atom <;> simp [atom?, *]

theorem reads_atom {token : Token} {value : Expr} (atom : Atom token value) (rest : List Token) :
    Reads .primary (token :: rest) value rest := by
  intro bound short
  show primary (expression bound) (token :: rest) = .done value rest []
  rw [primary, atom?_eq_some atom]

/-- One rank up. -/
theorem climb (rank : Rank) {next : Rank} {tokens rest : List Token} {value : Expr}
    (tighter : rank.tighter? = some next)
    (below : Expression next tokens value rest ∧ Reads next tokens value rest) :
    Expression rank tokens value rest ∧ Reads rank tokens value rest :=
  ⟨.tighter tighter below.1, reads_of_tighter tighter below.1 below.2⟩

theorem reads_or_of_atom {token : Token} {value : Expr} (atom : Atom token value)
    (rest : List Token) : Reads .or (token :: rest) value rest :=
  (climb .or rfl <| climb .and rfl <| climb .equality rfl <| climb .comparison rfl <|
    climb .term rfl <| climb .factor rfl <| climb .unary rfl <| climb .call rfl
      ⟨.atom atom, reads_atom atom rest⟩).2

/-- Every phrase of a rank is read by the parser of the rank. -/
theorem reads_of_expression {rank : Rank} {tokens rest : List Token} {value : Expr}
    (derives : Expression rank tokens value rest) : Reads rank tokens value rest := by
  refine Expression.induct (motive := Reads) ?tighter ?assign ?operation ?unary ?call ?grouping
    ?atom derives
  case tighter =>
    intro _ _ _ _ _ tighter derives reads
    exact reads_of_tighter tighter derives reads
  case assign =>
    intro name equal tokens rest value nameKind equalKind _ reads bound short ends
    simp only [List.length_cons] at short
    obtain ⟨bound, rfl⟩ : ∃ less, bound = less + 1 := ⟨bound - 1, by omega⟩
    rw [expression_succ, expressionOver]
    refine Takes.bind ((reads_or_of_atom (.name nameKind) _).takes_ladder rung_levels
      (by simp only [List.length_cons]; omega) (avoids_cons.mpr ?_)) ?_
    · rw [equalKind]
      decide
    · refine takes_accept_bind_of_mem (by simp [equalKind]) ?_
      exact Takes.bind (reads bound (by omega) ends) (takes_pure.mpr ⟨rfl, rfl⟩)
  case operation =>
    intro rank next operator tokens between rest left right tighter member leftDerives leftReads
      rightDerives rightReads bound short
    have operators : rank.operators ≠ [] := List.ne_nil_of_mem member
    have leads := leftReads bound short
    rw [readsWithin_of_operators operators] at leads ⊢
    intro same levels equal rung ends
    obtain rfl : next = same := Option.some.inj (tighter.symm.trans equal)
    have leftLonger := leftDerives.length_lt
    have rightLonger := rightDerives.length_lt
    rw [List.length_cons] at leftLonger
    obtain ⟨fewer, within, leads⟩ := leads _ _ tighter rung
      (avoids_cons.mpr (Rank.notMem_extending tighter _ member))
    rw [List.length_cons] at within
    obtain ⟨fewer, rfl⟩ : ∃ less, fewer = less + 1 := ⟨fewer - 1, by omega⟩
    refine ⟨fewer, by omega, fun value behind takes => leads _ _ ?_⟩
    refine takes_accept_bind_of_mem member ?_
    exact Takes.bind (rightReads.takes_ladder rung (by omega) ends) takes
  case unary =>
    intro operator tokens rest operand operatorKind _ reads bound short fewer within ends
    simp only [List.length_cons] at short within
    obtain ⟨fewer, rfl⟩ : ∃ less, fewer = less + 1 := ⟨fewer - 1, by omega⟩
    refine takes_accept_bind_of_mem (by simpa using operatorKind) ?_
    exact Takes.bind (reads bound (by omega) fewer (by omega) ends)
      (takes_pure.mpr ⟨rfl, rfl⟩)
  case call =>
    intro opening closing tokens between rest callee arguments calleeDerives calleeReads
      openingKind argumentsDerive closingKind bound short
    have calleeLonger := calleeDerives.length_lt
    have argumentsLonger := argumentsDerive.length_le fun derives => derives.1.length_lt
    rw [List.length_cons] at calleeLonger argumentsLonger
    obtain ⟨fewer, within, leads⟩ := calleeReads bound short
    rw [List.length_cons] at within
    obtain ⟨bound, rfl⟩ : ∃ less, bound = less + 1 := ⟨bound - 1, by omega⟩
    obtain ⟨fewer, rfl⟩ : ∃ less, fewer = less + 1 := ⟨fewer - 1, by omega⟩
    refine ⟨fewer, by omega, fun value behind takes => leads _ _ ?_⟩
    refine takes_accept_bind_of_mem (by simp [openingKind]) ?_
    refine Takes.bind (takes_listed argumentsDerive closingKind ?_ ?_
      (fun derives => derives.1.length_lt)
      (fun derives => avoids_of_begins derives.1.begins (by decide)) (by omega)
      fun derives within ends => derives.2 bound (by omega) ends) ?_
    · decide
    · decide
    · exact takes_expect_bind closingKind takes
  case grouping =>
    intro opening closing tokens rest inner openingKind innerDerives reads closingKind bound short
    rw [List.length_cons] at short
    obtain ⟨bound, rfl⟩ : ∃ less, bound = less + 1 := ⟨bound - 1, by omega⟩
    have notAtom : atom? opening = none := by simp [atom?, openingKind]
    show primary (expression (bound + 1)) (opening :: tokens) = .done (.grouping inner) rest []
    simp only [primary, notAtom, openingKind, if_pos]
    refine Takes.bind (reads bound (by omega) (avoids_cons.mpr ?_)) ?_
    · rw [closingKind]
      decide
    · exact takes_expect_bind closingKind (takes_pure.mpr ⟨rfl, rfl⟩)
  case atom =>
    intro token rest value atom
    exact reads_atom atom rest

/-- The kinds of tokens that go on with an expression. -/
def extendingKinds : List Kind := .equal :: Rank.or.extending

/-- An expression is taken in front of any token that does not go on with it. -/
theorem takes_expression {tokens rest : List Token} {value : Expr} {bound : Nat} {token : Token}
    {kind : Kind} (derives : Expression .assignment tokens value (token :: rest))
    (same : token.kind = kind) (ends : kind ∉ extendingKinds) (short : tokens.length < bound) :
    (expression bound).Takes tokens value (token :: rest) := by
  obtain ⟨bound, rfl⟩ := Nat.exists_eq_add_one_of_ne_zero (Nat.ne_zero_of_lt short)
  exact reads_of_expression derives bound (Nat.le_of_lt_succ short)
    (avoids_cons.mpr (same ▸ ends))

/-! ### Statements -/

section Statements

variable {bound : Nat} {tokens rest : List Token}

/-- An expression is taken with its semicolon. -/
theorem takes_terminated {error : SyntaxError} {tree : Expr → Stmt} {value : Expr}
    {semicolon : Token} (derives : Expression .assignment tokens value (semicolon :: rest))
    (semicolonKind : semicolon.kind = .semicolon) (short : tokens.length < bound) :
    (do
      let value ← expression bound
      let _ ← expect .semicolon error
      return tree value : Parser Stmt).Takes tokens (tree value) rest :=
  Takes.bind (takes_expression derives semicolonKind (by decide) short)
    (takes_expect_bind semicolonKind (takes_pure.mpr ⟨rfl, rfl⟩))

/-- A condition is taken with its parentheses. -/
theorem takes_condition {opens closes : SyntaxError} {next : Expr → Parser Stmt}
    {behind : List Token} {condition : Expr} {opening closing : Token} {statement : Stmt}
    (openingKind : opening.kind = .leftParen)
    (derives : Expression .assignment tokens condition (closing :: behind))
    (closingKind : closing.kind = .rightParen) (short : tokens.length < bound)
    (takes : (next condition).Takes behind statement rest) :
    (do
      let _ ← expect .leftParen opens
      let condition ← expression bound
      let _ ← expect .rightParen closes
      next condition : Parser Stmt).Takes (opening :: tokens) statement rest := by
  refine takes_expect_bind openingKind ?_
  refine Takes.bind (takes_expression derives closingKind (by decide) short) ?_
  exact takes_expect_bind closingKind takes

theorem takes_expressionStatement {statement : Stmt}
    (derives : ExpressionStatement tokens statement rest) (short : tokens.length < bound) :
    (expressionStatement (expression bound)).Takes tokens statement rest := by
  cases derives with
  | expression value semicolonKind => exact takes_terminated value semicolonKind short

/-- A declaration of a variable is taken behind its first keyword. -/
theorem takes_variableDeclaration {statement : Stmt}
    (derives : VariableDeclaration tokens statement rest) (short : tokens.length < bound) :
    ∃ keyword others, tokens = keyword :: others ∧
      (keyword.kind = .var ∧
          (variableDeclaration (expression bound)).Takes others statement rest ∨
        keyword.kind = .const ∧
          (constDeclaration (expression bound)).Takes others statement rest) := by
  cases derives with
  | bare keywordKind nameKind semicolonKind =>
    refine ⟨_, _, rfl, .inl ⟨keywordKind, takes_expect_bind nameKind ?_⟩⟩
    refine takes_accept_bind_of_avoids (avoids_cons.mpr (by simp [semicolonKind])) ?_
    exact takes_expect_bind semicolonKind (takes_pure.mpr ⟨rfl, rfl⟩)
  | initialized keywordKind nameKind equalKind value semicolonKind =>
    simp only [List.length_cons] at short
    refine ⟨_, _, rfl, .inl ⟨keywordKind, takes_expect_bind nameKind ?_⟩⟩
    refine takes_accept_bind_of_mem (by simp [equalKind]) ?_
    exact takes_terminated value semicolonKind (by omega)
  | constant prefixedKind keywordKind nameKind equalKind value semicolonKind =>
    simp only [List.length_cons] at short
    refine ⟨_, _, rfl, .inr ⟨prefixedKind, takes_expect_bind keywordKind ?_⟩⟩
    refine takes_expect_bind nameKind (takes_expect_bind equalKind ?_)
    exact takes_terminated value semicolonKind (by omega)

theorem takes_forInitializer {initializer : Option Stmt}
    (derives : Initializer tokens initializer rest) (short : tokens.length < bound) :
    (forInitializer (expression bound)).Takes tokens initializer rest := by
  cases derives with
  | none semicolonKind =>
    refine takes_accept_bind_of_mem (by simp [semicolonKind]) ?_
    simp only [semicolonKind]
    exact takes_pure.mpr ⟨rfl, rfl⟩
  | declaration derives =>
    obtain ⟨keyword, others, rfl, ⟨kind, takes⟩ | ⟨kind, takes⟩⟩ :=
      takes_variableDeclaration derives short
    · refine takes_accept_bind_of_mem (by simp [kind]) ?_
      simp only [kind]
      exact Takes.bind takes (takes_pure.mpr ⟨rfl, rfl⟩)
    · refine takes_accept_bind_of_mem (by simp [kind]) ?_
      simp only [kind]
      exact Takes.bind takes (takes_pure.mpr ⟨rfl, rfl⟩)
  | expression derives =>
    have begins : Begins (Rank.starts .assignment) tokens := by
      cases derives with
      | expression value _ => exact value.begins
    refine takes_accept_bind_of_avoids (avoids_of_begins begins (by decide)) ?_
    exact Takes.bind (takes_expressionStatement derives short) (takes_pure.mpr ⟨rfl, rfl⟩)

theorem takes_forClause {clause : Option Expr} {closing : Token} {kind : Kind}
    (derives : Clause tokens clause (closing :: rest)) (closes : closing.kind = kind)
    (ends : kind ∉ extendingKinds) (opens : kind ∉ Rank.starts .assignment)
    (short : tokens.length < bound) :
    (forClause kind (expression bound)).Takes tokens clause (closing :: rest) := by
  refine Takes.bind (takes_atEnd.mpr ⟨rfl, rfl⟩) (Takes.bind (takes_nextIs.mpr ⟨rfl, rfl⟩) ?_)
  cases derives with
  | none =>
    rw [if_pos (by simp [closes])]
    exact takes_pure.mpr ⟨rfl, rfl⟩
  | some value =>
    obtain ⟨first, others, rfl, member⟩ := value.begins
    have different : first.kind ≠ kind := fun same => opens (same ▸ member)
    rw [if_neg (by simp [different])]
    exact Takes.bind (takes_expression value closes ends short) (takes_pure.mpr ⟨rfl, rfl⟩)

/-- A statement behind the keyword or brace that it begins with. -/
theorem takes_statement_of_keyword {keyword : Token} {others : List Token} {statement : Stmt}
    (member : keyword.kind ∈ statementKinds)
    (takes : (match keyword.kind with
      | .print => printStatement (expression (bound + 1))
      | .leftBrace => return .block (← blockBody (bound + 1) (declaration bound))
      | .if => ifStatement (expression (bound + 1)) (Parser.statement bound)
      | .while => whileStatement (expression (bound + 1)) (Parser.statement bound)
      | .for => forStatement (expression (bound + 1)) (Parser.statement bound)
      | _ => returnStatement (expression (bound + 1)) keyword : Parser Stmt).Takes others statement
        rest) :
    (Parser.statement (bound + 1)).Takes (keyword :: others) statement rest := by
  rw [statement_succ]
  exact takes_accept_bind_of_mem member takes

/-- A declaration that is a statement. -/
theorem takes_declaration_of_statement {statement : Stmt}
    (begins : Begins statementStarts tokens)
    (takes : (Parser.statement (bound + 1)).Takes tokens statement rest) :
    (declaration (bound + 1)).Takes tokens (some statement) rest := by
  have whole : (declarationOver (bound + 1) (Parser.statement (bound + 1))
      (declaration bound)).Takes tokens statement rest :=
    takes_accept_bind_of_avoids (avoids_of_begins begins (by decide)) takes
  rw [Takes] at whole ⊢
  rw [declaration_succ, recover, whole]

/-- A declaration behind the keyword that it begins with. -/
theorem takes_declaration_of_keyword {keyword : Token} {others : List Token} {statement : Stmt}
    (member : keyword.kind ∈ [Kind.var, .const, .fun])
    (takes : (match keyword.kind with
      | .var => variableDeclaration (expression (bound + 1))
      | .const => constDeclaration (expression (bound + 1))
      | _ => functionDeclaration (bound + 1) (declaration bound) : Parser Stmt).Takes others
        statement rest) :
    (declaration (bound + 1)).Takes (keyword :: others) (some statement) rest := by
  have whole : (declarationOver (bound + 1) (Parser.statement (bound + 1))
      (declaration bound)).Takes (keyword :: others) statement rest :=
    takes_accept_bind_of_mem member takes
  rw [Takes] at whole ⊢
  rw [declaration_succ, recover, whole]

/-- A block is taken with its closing brace. -/
theorem takes_blockBody {body : List Stmt} {closing : Token} {item : Parser (Option Stmt)}
    (takes : (repeatUntil (do return (← atEnd) || (← nextIs .rightBrace)) item bound).Takes tokens
      body (closing :: rest))
    (closes : closing.kind = .rightBrace) : (blockBody bound item).Takes tokens body rest :=
  Takes.bind takes (takes_expect_bind closes (takes_pure.mpr ⟨rfl, rfl⟩))

end Statements

/-- A stop condition that does not hold where a declaration begins. -/
structure Passes (halts : List Token → Bool) : Prop where
  passes : ∀ tokens, Begins declarationStarts tokens → halts tokens = false
  avoids : ∀ tokens, halts tokens = true → Avoids [.else] tokens

theorem passes_isEmpty : Passes List.isEmpty where
  passes := by
    rintro tokens ⟨first, others, rfl, _⟩
    rfl
  avoids := by
    intro tokens ends
    rw [List.isEmpty_iff.mp ends]
    exact avoids_nil _

theorem passes_blockEnd :
    Passes fun tokens => tokens.isEmpty || tokens.head?.any fun token => token.kind = .rightBrace where
  passes := by
    rintro tokens ⟨first, others, rfl, member⟩
    have different : first.kind ≠ .rightBrace := fun same => by
      rw [same] at member
      revert member
      decide
    simp [different]
  avoids := by
    intro tokens ends
    cases tokens with
    | nil => exact avoids_nil _
    | cons first others =>
      have same : first.kind = .rightBrace := by simpa using ends
      exact avoids_cons.mpr (by simp [same])

/-! ### Nesting -/

mutual

/-- A statement is taken, in front of an `else` only if its tail is closed. -/
theorem takes_statement {tail : Tail} {tokens rest : List Token} {statement : Stmt} :
    Statement tail tokens statement rest → ∀ bound, tokens.length < bound →
      (tail = .dangling → Avoids [.else] rest) →
      (Parser.statement bound).Takes tokens statement rest
  | .expression derives => by
    intro bound short _
    obtain ⟨bound, rfl⟩ := Nat.exists_eq_add_one_of_ne_zero (Nat.ne_zero_of_lt short)
    have begins : Begins (Rank.starts .assignment) tokens := by
      cases derives with
      | expression value _ => exact value.begins
    rw [statement_succ]
    refine takes_accept_bind_of_avoids (avoids_of_begins begins (by decide)) ?_
    exact takes_expressionStatement derives short
  | .print keywordKind value semicolonKind => by
    intro bound short _
    obtain ⟨bound, rfl⟩ := Nat.exists_eq_add_one_of_ne_zero (Nat.ne_zero_of_lt short)
    rw [List.length_cons] at short
    refine takes_statement_of_keyword (by rw [keywordKind]; decide) ?_
    simp only [keywordKind]
    exact takes_terminated value semicolonKind (by omega)
  | .block openingKind body closingKind => by
    intro bound short _
    obtain ⟨bound, rfl⟩ := Nat.exists_eq_add_one_of_ne_zero (Nat.ne_zero_of_lt short)
    rw [List.length_cons] at short
    refine takes_statement_of_keyword (by rw [openingKind]; decide) ?_
    simp only [openingKind]
    have items := takes_repeated body bound (bound + 1) looks_blockEnd passes_blockEnd (by omega)
      (by omega) (by simp [closingKind])
    exact Takes.bind (takes_blockBody items closingKind) (takes_pure.mpr ⟨rfl, rfl⟩)
  | .ifThen keywordKind openingKind condition closingKind consequent => by
    intro bound short avoids
    obtain ⟨bound, rfl⟩ := Nat.exists_eq_add_one_of_ne_zero (Nat.ne_zero_of_lt short)
    have longer := condition.length_lt
    simp only [List.length_cons] at short longer
    refine takes_statement_of_keyword (by rw [keywordKind]; decide) ?_
    simp only [keywordKind]
    refine takes_condition openingKind condition closingKind (by omega) ?_
    refine Takes.bind (takes_statement consequent bound (by omega) fun _ => avoids rfl) ?_
    exact takes_accept_bind_of_avoids (avoids rfl) (takes_pure.mpr ⟨rfl, rfl⟩)
  | .ifElse keywordKind openingKind condition closingKind consequent separatorKind alternative => by
    intro bound short avoids
    obtain ⟨bound, rfl⟩ := Nat.exists_eq_add_one_of_ne_zero (Nat.ne_zero_of_lt short)
    have longer := condition.length_lt
    have further := consequent.length_lt
    simp only [List.length_cons] at short longer further
    refine takes_statement_of_keyword (by rw [keywordKind]; decide) ?_
    simp only [keywordKind]
    refine takes_condition openingKind condition closingKind (by omega) ?_
    refine Takes.bind (takes_statement consequent bound (by omega) fun dangling => ?_) ?_
    · cases dangling
    · refine takes_accept_bind_of_mem (by simp [separatorKind]) ?_
      exact Takes.bind (takes_statement alternative bound (by omega) avoids)
        (takes_pure.mpr ⟨rfl, rfl⟩)
  | .while keywordKind openingKind condition closingKind body => by
    intro bound short avoids
    obtain ⟨bound, rfl⟩ := Nat.exists_eq_add_one_of_ne_zero (Nat.ne_zero_of_lt short)
    have longer := condition.length_lt
    simp only [List.length_cons] at short longer
    refine takes_statement_of_keyword (by rw [keywordKind]; decide) ?_
    simp only [keywordKind]
    refine takes_condition openingKind condition closingKind (by omega) ?_
    exact Takes.bind (takes_statement body bound (by omega) avoids) (takes_pure.mpr ⟨rfl, rfl⟩)
  | .for keywordKind openingKind initializer condition semicolonKind increment closingKind body => by
    intro bound short avoids
    obtain ⟨bound, rfl⟩ := Nat.exists_eq_add_one_of_ne_zero (Nat.ne_zero_of_lt short)
    have start := initializer.length_lt
    have longer := condition.length_le
    have further := increment.length_le
    simp only [List.length_cons] at short longer further
    refine takes_statement_of_keyword (by rw [keywordKind]; decide) ?_
    simp only [keywordKind]
    refine takes_expect_bind openingKind ?_
    refine Takes.bind (takes_forInitializer initializer (by omega)) ?_
    refine Takes.bind
      (takes_forClause condition semicolonKind (by decide) (by decide) (by omega)) ?_
    refine takes_expect_bind semicolonKind ?_
    refine Takes.bind
      (takes_forClause increment closingKind (by decide) (by decide) (by omega)) ?_
    refine takes_expect_bind closingKind ?_
    exact Takes.bind (takes_statement body bound (by omega) avoids) (takes_pure.mpr ⟨rfl, rfl⟩)
  | .returnNothing keywordKind semicolonKind => by
    intro bound short _
    obtain ⟨bound, rfl⟩ := Nat.exists_eq_add_one_of_ne_zero (Nat.ne_zero_of_lt short)
    refine takes_statement_of_keyword (by rw [keywordKind]; decide) ?_
    simp only [keywordKind]
    refine Takes.bind (takes_nextIs.mpr ⟨rfl, rfl⟩) ?_
    rw [if_pos (by simp [semicolonKind])]
    exact takes_expect_bind semicolonKind (takes_pure.mpr ⟨rfl, rfl⟩)
  | .returnValue keywordKind value semicolonKind => by
    intro bound short _
    obtain ⟨bound, rfl⟩ := Nat.exists_eq_add_one_of_ne_zero (Nat.ne_zero_of_lt short)
    rw [List.length_cons] at short
    refine takes_statement_of_keyword (by rw [keywordKind]; decide) ?_
    simp only [keywordKind]
    refine Takes.bind (takes_nextIs.mpr ⟨rfl, rfl⟩) ?_
    have avoids : Avoids [.semicolon] _ := avoids_of_begins value.begins (by decide)
    rw [if_neg ?_]
    · exact takes_terminated value semicolonKind (by omega)
    · obtain ⟨first, others, rfl, _⟩ := value.begins
      simpa using avoids

/-- A declaration is taken in front of anything but an `else`. -/
theorem takes_declaration {tokens rest : List Token} {statement : Stmt} :
    Declaration tokens statement rest → ∀ bound, tokens.length < bound → Avoids [.else] rest →
      (declaration bound).Takes tokens (some statement) rest
  | .variableDeclaration derives => by
    intro bound short _
    obtain ⟨bound, rfl⟩ := Nat.exists_eq_add_one_of_ne_zero (Nat.ne_zero_of_lt short)
    obtain ⟨keyword, others, rfl, ⟨kind, takes⟩ | ⟨kind, takes⟩⟩ :=
      takes_variableDeclaration derives short
    · refine takes_declaration_of_keyword (by rw [kind]; decide) ?_
      simp only [kind]
      exact takes
    · refine takes_declaration_of_keyword (by rw [kind]; decide) ?_
      simp only [kind]
      exact takes
  | .function keywordKind nameKind openingKind parameters closingKind openingBraceKind body
      closingBraceKind => by
    intro bound short _
    obtain ⟨bound, rfl⟩ := Nat.exists_eq_add_one_of_ne_zero (Nat.ne_zero_of_lt short)
    have longer := parameters.length_le Name.length_lt
    simp only [List.length_cons] at short longer
    refine takes_declaration_of_keyword (by rw [keywordKind]; decide) ?_
    simp only [keywordKind]
    refine takes_expect_bind nameKind (takes_expect_bind openingKind ?_)
    refine Takes.bind (takes_listed parameters closingKind (List.not_mem_nil : Kind.comma ∉ [])
      List.not_mem_nil Name.length_lt ?_ (by omega) ?_) ?_
    · rintro tokens name rest ⟨identifier⟩
      exact avoids_cons.mpr (by simp [identifier])
    · rintro tokens name rest ⟨identifier⟩ _ _
      exact takes_expect.mpr ⟨rfl, identifier⟩
    · refine takes_expect_bind closingKind (takes_expect_bind openingBraceKind ?_)
      have items := takes_repeated body bound (bound + 1) looks_blockEnd passes_blockEnd
        (by omega) (by omega) (by simp [closingBraceKind])
      exact Takes.bind (takes_blockBody items closingBraceKind) (takes_pure.mpr ⟨rfl, rfl⟩)
  | .statement derives => by
    intro bound short avoids
    obtain ⟨bound, rfl⟩ := Nat.exists_eq_add_one_of_ne_zero (Nat.ne_zero_of_lt short)
    exact takes_declaration_of_statement derives.begins
      (takes_statement derives (bound + 1) short fun _ => avoids)

/-- Declarations are taken up to where the stop condition holds. -/
theorem takes_repeated {tokens rest : List Token} {body : List Stmt} :
    Repeated Declaration tokens body rest → ∀ bound fewer {stop halts}, Looks stop halts →
      Passes halts → tokens.length < bound → tokens.length < fewer → halts rest = true →
      (repeatUntil stop (declaration bound) fewer).Takes tokens body rest
  | .nil => by
    intro bound fewer stop halts looks _ _ within ends
    obtain ⟨fewer, rfl⟩ : ∃ less, fewer = less + 1 := ⟨fewer - 1, by omega⟩
    refine Takes.bind (looks.look _) ?_
    rw [if_pos ends]
    exact takes_pure.mpr ⟨rfl, rfl⟩
  | .cons first others => by
    intro bound fewer stop halts looks passes short within ends
    obtain ⟨fewer, rfl⟩ : ∃ less, fewer = less + 1 := ⟨fewer - 1, by omega⟩
    have longer := first.length_lt
    refine Takes.bind (looks.look _) ?_
    rw [if_neg (by simp [passes.passes _ first.begins])]
    refine Takes.bind (takes_declaration first bound short ?_) ?_
    · cases others with
      | nil => exact passes.avoids _ ends
      | cons next _ => exact avoids_of_begins next.begins (by decide)
    · refine Takes.bind ?_ (takes_pure.mpr ⟨rfl, rfl⟩)
      exact takes_repeated others bound fewer looks passes (by omega) (by omega) ends

end

/-- A program is taken as a whole. -/
theorem takes_program {tokens : List Token} {statements : List Stmt} {bound : Nat}
    (derives : Grammar.Program tokens statements) (short : tokens.length < bound) :
    (declarations bound).Takes tokens statements [] :=
  takes_repeated derives bound bound looks_atEnd passes_isEmpty short short rfl

end Lox.Parser

namespace Lox.Program

/-! ### Programs -/

/-- A program without diagnostics is one that was taken as a whole. -/
theorem clean_ofStream_iff (stream : TokenStream) (statements : List Stmt) :
    (ofStream stream).clean = true ∧ (ofStream stream).statements = statements ↔
      ∃ rest, (Parser.declarations (stream.tokens.length + 1)).Takes stream.tokens statements
        rest := by
  have proper := Parser.proper_declarations (stream.tokens.length + 1) stream.tokens
  rw [ofStream]
  cases parsed : Parser.declarations (stream.tokens.length + 1) stream.tokens with
  | done made rest reports =>
    simp only [clean, List.isEmpty_iff, List.map_eq_nil_iff, Parser.Takes, parsed]
    constructor
    · rintro ⟨rfl, rfl⟩
      exact ⟨rest, rfl⟩
    · rintro ⟨_, equal⟩
      cases equal
      exact ⟨rfl, rfl⟩
  | failed rest reports =>
    rw [parsed] at proper
    simp [clean, Parser.Takes, parsed, proper.2]
  | starved =>
    rw [parsed] at proper
    exact absurd proper (Nat.not_succ_le_self _)

/-- The parser accepts exactly the grammar. Without a diagnostic it answers the statements that
the tokens derive, and tokens that derive statements derive one list only. -/
theorem derives_iff_parses (stream : TokenStream) :
    (∀ statements, Grammar.Program stream.tokens statements ↔
      (ofStream stream).clean = true ∧ (ofStream stream).statements = statements) ∧
    ((ofStream stream).clean = true ↔ ∃! statements, Grammar.Program stream.tokens statements) := by
  have answers (statements : List Stmt) : Grammar.Program stream.tokens statements ↔
      (ofStream stream).clean = true ∧ (ofStream stream).statements = statements := by
    rw [clean_ofStream_iff]
    constructor
    · intro derives
      exact ⟨[], Parser.takes_program derives (Nat.lt_succ_self _)⟩
    · rintro ⟨rest, takes⟩
      exact Parser.program_of_takes takes
  refine ⟨answers, ?_⟩
  constructor
  · intro clean
    refine ⟨(ofStream stream).statements, (answers _).mpr ⟨clean, rfl⟩, fun other derives => ?_⟩
    exact ((answers other).mp derives).2.symm
  · rintro ⟨statements, derives, _⟩
    exact ((answers statements).mp derives).1

end Lox.Program
