/-
This file proves that the parser stays inside its list and always goes on. The
second account of parsing mirrors the first production by production, so it
never reads beside the list, no syntax error leaves a declaration, and every
declaration, given up or not, ends behind where it began.
-/

import Lox.Proofs.Parsing.Mirroring

namespace Lox

open Token (Kind)

namespace Cursor

variable {α β : Type} {stream : TokenStream} {when : Nat → Prop}

section

variable (parseable : stream.Parseable)

include parseable

/-! ### Lists -/

theorem mirrors_warn_bind {next : Unit → Parser β} {nextCursor : Unit → Cursor β}
    (error : SyntaxError)
    (behind : ∀ value, Mirrors stream Anywhere (next value) (nextCursor value)) :
    Mirrors stream when (Parser.warn error >>= next)
      (peek >>= fun token => report token error >>= nextCursor) := by
  have mirrors : Mirrors stream when _ _ := (mirrors_warn parseable error).bind behind
  rwa [bind_assoc] at mirrors

/-- What the next token is shows in the tokens that are left. -/
theorem any_head?_drop {kind : Kind} (isToken : .eof ≠ kind) {position : Nat}
    (inside : position ≤ stream.tokens.length) :
    ((stream.tokens.drop position).head?.any fun token => token.kind = kind) =
      decide ((stream.token position).kind = kind) := by
  rcases drop_cases inside with ⟨none, last⟩ | ⟨token, _, rest, here⟩
  · rw [none, last, parseable.ends, decide_eq_false isToken]
    rfl
  · rw [rest, here]
    rfl

theorem isEmpty_drop {position : Nat} (inside : position ≤ stream.tokens.length) :
    (stream.tokens.drop position).isEmpty = decide ((stream.token position).kind = .eof) := by
  rcases drop_cases inside with ⟨none, last⟩ | ⟨token, found, rest, here⟩
  · rw [none, last, decide_eq_true parseable.ends]
    rfl
  · rw [rest, here, decide_eq_false (kind_ne_eof parseable found)]
    rfl

theorem mirrors_nextIs {kind : Kind} (isToken : .eof ≠ kind) :
    Mirrors stream when (Parser.nextIs kind) (check kind) := by
  intro state inside _
  obtain ⟨reached, looks, stays⟩ := looks_check kind state inside trivial
  let answer := decide ((stream.token state.position).kind = kind)
  have agrees : Agrees stream state (.done answer _ []) _ := .done stays.reaches
  rw [stays.position] at agrees
  rw [looks, Parser.nextIs, any_head?_drop parseable isToken inside]
  exact agrees

theorem mirrors_commaSeparated {item : Parser α} {itemCursor : Cursor α}
    (mirrors : Mirrors stream Anywhere item itemCursor) (excess : SyntaxError) :
    ∀ bound taken, Mirrors stream Anywhere (Parser.commaSeparated excess item bound taken)
      (commaSeparated excess itemCursor bound taken)
  | 0, _ => mirrors_starve
  | bound + 1, taken => by
    rw [Parser.commaSeparated, commaSeparated]
    suffices further : Mirrors stream Anywhere _ _ from
      (mirrors_warn_bind parseable excess fun _ => further).ite further
    refine mirrors.bind fun first => ?_
    refine mirrors_accept_bind parseable (by decide) (fun token _ => ?_) (mirrors_pure _)
    refine (mirrors_commaSeparated mirrors excess bound (taken + 1)).restrict.bind fun others => ?_
    exact mirrors_pure _

theorem mirrors_listed {item : Parser α} {itemCursor : Cursor α}
    (mirrors : Mirrors stream Anywhere item itemCursor) (bound : Nat) (excess : SyntaxError) :
    Mirrors stream Anywhere (Parser.listed bound excess item) (listed bound excess itemCursor) := by
  refine (mirrors_nextIs parseable (by decide)).bind fun ends => ?_
  exact (mirrors_pure _).ite (mirrors_commaSeparated parseable mirrors excess bound 0)

omit parseable in
theorem mirrors_repeatUntil {stop : Parser Bool} {halts : List Token → Bool}
    {going : Cursor Bool} {item : Parser (Option α)} {itemCursor : Cursor (Option α)}
    (looks : Parser.Looks stop halts)
    (goes : Looks stream Anywhere going fun position => !halts (stream.tokens.drop position))
    (mirrors : Mirrors stream (InFront stream) item itemCursor) :
    ∀ bound, Mirrors stream Anywhere (Parser.repeatUntil stop item bound)
      (repeatWhile going itemCursor bound)
  | 0 => mirrors_starve
  | bound + 1 => by
    refine goes.bind fun onward => ?_
    rintro state inside ⟨_, answer⟩
    rw [Parser.repeatUntil, Parser.bind_of_done (looks.look _), Parse.after_nil]
    cases onward with
    | false =>
      rw [if_pos ((Bool.not_eq_false' _).mp answer)]
      exact .done (.refl inside)
    | true =>
      have halting := (Bool.not_eq_true' _).mp answer
      have inFront : InFront stream state.position := by
        refine Nat.lt_of_not_le fun none => ?_
        rw [List.drop_of_length_le none, looks.halts_nil] at halting
        cases halting
      rw [if_neg (Bool.eq_false_iff.mp halting)]
      have further := mirrors_repeatUntil looks goes mirrors bound
      exact mirrors.bind (fun first => further.bind fun others => mirrors_pure _) state inside
        inFront

/-- The cursor goes on in front of tokens of other kinds. -/
theorem looks_lacks {kind : Kind} (isToken : .eof ≠ kind) :
    Looks stream Anywhere (lacks kind) fun position =>
      !((stream.tokens.drop position).isEmpty ||
        (stream.tokens.drop position).head?.any fun token => token.kind = kind) := by
  intro state inside _
  dsimp only
  rw [isEmpty_drop parseable inside, any_head?_drop parseable isToken inside]
  obtain ⟨looked, looks, stays⟩ := looks_atEnd state inside trivial
  dsimp only at looks
  rw [lacks, bind_of_done looks]
  by_cases last : (stream.token state.position).kind = .eof
  · rw [decide_eq_true last, if_pos rfl]
    exact ⟨looked, rfl, stays⟩
  · obtain ⟨reached, further, same⟩ := looks_check kind looked stays.reaches.inside trivial
    rw [decide_eq_false last, if_neg Bool.false_ne_true, bind_of_done further, stays.position]
    exact ⟨reached, rfl, same.position.trans stays.position, stays.reaches.trans same.reaches⟩

/-! ### Expressions -/

omit parseable in
/-- The numbers that the scanner makes are read. -/
theorem readNumber_eq {lexeme : String} (scanned : Token.Scanned lexeme) :
    readNumber lexeme = pure (.ofNumber lexeme) := by
  have noPoint : ∀ {digits : List Char}, (∀ char ∈ digits, char.isDigit = true) → '.' ∉ digits :=
    fun all member => absurd (all _ member) (by decide)
  obtain ⟨digits, some, all, whole | ⟨places, allPlaces, fraction⟩⟩ :=
    scanned.belongs.digits_or_fraction
  · have isDigits : Decimal.isDigits digits = true := by
      rw [Decimal.isDigits, List.isEmpty_eq_false_iff.mpr some, List.all_eq_true.mpr all]
      rfl
    funext tokens state
    simp only [readNumber, Literal.ofNumber, whole, noPoint all, isDigits,
      Decimal.ofChars?_of_digits some all, not_false_eq_true, true_and, Bool.true_eq_false,
      if_false]
    split <;> rfl
  · have point : '.' ∈ digits ++ '.' :: places :=
      List.mem_append_right _ List.mem_cons_self
    funext tokens state
    simp only [readNumber, Literal.ofNumber, fraction, point,
      Decimal.ofChars?_of_fraction some all allPlaces, not_true_eq_false, false_and, if_false]
    rfl

/-- The kinds that begin a primary expression. -/
def primaryKinds : List Kind := [.false, .true, .nil, .string, .number, .leftParen, .identifier]

/-- A primary expression behind its first token. -/
def primaryBehind (inner : Parser Expr) (token : Token) : Parser Expr :=
  match Parser.atom? token with
  | some expression => pure expression
  | none => Parser.grouped inner

omit parseable in
/-- A primary expression is chosen by its first token. -/
theorem primary_eq (inner : Parser Expr) :
    Parser.primary inner = Parser.accept primaryKinds >>= fun accepted =>
      match accepted with
      | none => Parser.fail .expression
      | some token => primaryBehind inner token := by
  funext tokens
  cases tokens with
  | nil => rfl
  | cons token rest =>
    by_cases member : token.kind ∈ primaryKinds
    · rw [Parser.bind_of_done (Parser.accept_of_mem rest member), Parse.after_nil]
      obtain ⟨kind, lexeme, line⟩ := token
      simp only [primaryKinds, List.mem_cons, List.not_mem_nil, or_false] at member
      rcases member with rfl | rfl | rfl | rfl | rfl | rfl | rfl <;> rfl
    · rw [Parser.bind_of_done (Parser.accept_of_notMem rest member), Parse.after_nil]
      obtain ⟨kind, lexeme, line⟩ := token
      change kind ∉ primaryKinds at member
      cases kind <;> first | exact absurd (by decide) member | rfl

theorem mirrors_primary {inner : Parser Expr} {innerCursor : Cursor Expr}
    (mirrors : Mirrors stream Anywhere inner innerCursor) :
    Mirrors stream when (Parser.primary inner) (primary innerCursor) := by
  have atom {token : Token} {expression : Expr} (atom : Parser.atom? token = some expression) :
      primaryBehind inner token = pure expression := by
    rw [primaryBehind, atom]
  have constant {token : Token} {expression : Expr}
      (isAtom : Parser.atom? token = some expression) :
      Mirrors stream (Behind stream token) (primaryBehind inner token) (pure expression) :=
    atom isAtom ▸ mirrors_pure expression
  have looked {token : Token} {expression : Token → Expr}
      (isAtom : Parser.atom? token = some (expression token)) :
      Mirrors stream (Behind stream token) (primaryBehind inner token)
        (previous >>= fun token => pure (expression token)) :=
    mirrors_previous_bind (atom isAtom ▸ mirrors_pure _)
  rw [primary_eq, primaryKinds]
  refine mirrors_accept_cons_bind parseable (by decide) (fun token same => ?false) ?_
  case false => exact constant (by rw [Parser.atom?, same])
  refine mirrors_accept_cons_bind parseable (by decide) (fun token same => ?true) ?_
  case true => exact constant (by rw [Parser.atom?, same])
  refine mirrors_accept_cons_bind parseable (by decide) (fun token same => ?nil) ?_
  case nil => exact constant (by rw [Parser.atom?, same])
  refine mirrors_accept_cons_bind parseable (by decide) (fun token same => ?string) ?_
  case string => exact looked (by rw [Parser.atom?, same])
  refine mirrors_accept_cons_bind parseable (by decide) (fun token same => ?number) ?_
  case number =>
    rintro state inside ⟨index, behind, found⟩
    have scanned := parseable.numbers token (List.mem_of_getElem? found) same
    have reads : Mirrors stream (Behind stream token) (primaryBehind inner token)
        (previous >>= fun token => readNumber token.lexeme >>= fun literal =>
          pure (.literal literal)) := by
      refine mirrors_previous_bind ?_
      rw [readNumber_eq scanned, pure_bind, atom (by rw [Parser.atom?, same])]
      exact mirrors_pure _
    exact reads state inside ⟨index, behind, found⟩
  refine mirrors_accept_cons_bind parseable (by decide) (fun token same => ?group) ?_
  case group =>
    have isGroup : primaryBehind inner token = Parser.grouped inner := by
      rw [primaryBehind, Parser.atom?, same]
    dsimp only
    rw [isGroup]
    refine mirrors.restrict.bind fun expression => ?_
    exact (mirrors_consume parseable (by decide) _).bind fun _ => mirrors_pure _
  refine mirrors_accept_cons_bind parseable (by decide) (fun token same => ?name) ?_
  case name => exact looked (by rw [Parser.atom?, same])
  exact mirrors_accept_nil_bind (mirrors_fail parseable _)

theorem mirrors_calls {inner : Parser Expr} {innerCursor : Cursor Expr}
    (mirrors : Mirrors stream Anywhere inner innerCursor) :
    ∀ bound callee, Mirrors stream Anywhere (Parser.calls inner bound callee)
      (calls innerCursor bound callee)
  | 0, _ => mirrors_starve
  | bound + 1, callee => by
    rw [Parser.calls, calls]
    refine mirrors_accept_bind parseable (by decide) (fun token _ => ?_) (mirrors_pure _)
    refine (mirrors_listed parseable mirrors _ _).restrict.bind fun arguments => ?_
    refine (mirrors_consume parseable (by decide) _).bind fun paren => ?_
    exact mirrors_calls mirrors bound (.call callee paren arguments)

theorem mirrors_call {inner : Parser Expr} {innerCursor : Cursor Expr}
    (mirrors : Mirrors stream Anywhere inner innerCursor) (bound : Nat) :
    Mirrors stream Anywhere (Parser.call bound inner) (call bound innerCursor) :=
  (mirrors_primary parseable mirrors).bind fun callee =>
    mirrors_calls parseable mirrors bound callee

theorem mirrors_unary {operand : Parser Expr} {operandCursor : Cursor Expr}
    (mirrors : Mirrors stream Anywhere operand operandCursor) :
    ∀ bound, Mirrors stream Anywhere (Parser.unary operand bound) (unary operandCursor bound)
  | 0 => mirrors_starve
  | bound + 1 => by
    rw [Parser.unary, unary]
    refine mirrors_accept_bind parseable (by decide) (fun operator _ => ?_) mirrors
    exact mirrors_previous_bind ((mirrors_unary mirrors bound).bind fun _ => mirrors_pure _)

theorem mirrors_chain {level : Parser.Level} (noEnd : .eof ∉ level.operators)
    {operand : Parser Expr} {operandCursor : Cursor Expr}
    (mirrors : Mirrors stream Anywhere operand operandCursor) :
    ∀ bound left, Mirrors stream Anywhere (Parser.chain level operand bound left)
      (chain level operandCursor bound left)
  | 0, _ => mirrors_starve
  | bound + 1, left => by
    rw [Parser.chain, chain]
    refine mirrors_accept_bind parseable noEnd (fun operator _ => ?_) (mirrors_pure _)
    refine mirrors_previous_bind (mirrors.bind fun right => ?_)
    exact mirrors_chain noEnd mirrors bound (level.tree left operator right)

theorem mirrors_ladder {tightest : Parser Expr} {tightestCursor : Cursor Expr}
    (mirrors : Mirrors stream Anywhere tightest tightestCursor) (bound : Nat) :
    ∀ levels : List Parser.Level, (∀ level ∈ levels, .eof ∉ level.operators) →
      Mirrors stream Anywhere (Parser.ladder bound tightest levels)
        (ladder bound tightestCursor levels)
  | [], _ => mirrors
  | level :: tighter, noEnd => by
    obtain ⟨noEndHere, noEndTighter⟩ := List.forall_mem_cons.mp noEnd
    have operand := mirrors_ladder mirrors bound tighter noEndTighter
    exact operand.bind fun left => mirrors_chain parseable noEndHere operand bound left

theorem mirrors_assignment {target value : Parser Expr} {targetCursor valueCursor : Cursor Expr}
    (targetMirrors : Mirrors stream Anywhere target targetCursor)
    (valueMirrors : Mirrors stream Anywhere value valueCursor) :
    Mirrors stream Anywhere (Parser.assignment target value)
      (assignment targetCursor valueCursor) := by
  refine targetMirrors.bind fun left => ?_
  refine mirrors_accept_bind parseable (by decide) (fun equals isEqual => ?_) (mirrors_pure _)
  refine mirrors_previous_bind (valueMirrors.bind fun right => ?_)
  have isToken : equals.kind ≠ .eof := by
    rw [List.mem_singleton.mp isEqual]
    decide
  cases left with
  | «variable» name => exact mirrors_pure _
  | literal _ | grouping _ | assign _ _ | unary _ _ | binary _ _ _ | logical _ _ _ | call _ _ _ =>
    exact mirrors_failAt isToken _

theorem mirrors_expression : ∀ bound,
    Mirrors stream Anywhere (Parser.expression bound) (expression bound)
  | 0 => mirrors_starve
  | bound + 1 => by
    have inner := mirrors_expression bound
    have operands := mirrors_unary parseable (mirrors_call parseable inner (bound + 1)) (bound + 1)
    rw [Parser.expression_succ, expression]
    exact mirrors_assignment parseable
      (mirrors_ladder parseable operands (bound + 1) Parser.levels (by decide)) inner

/-! ### Declarations -/

section

variable {expression : Parser Expr} {expressionCursor : Cursor Expr}
  (mirrors : Mirrors stream Anywhere expression expressionCursor)

include mirrors

theorem mirrors_constantDeclaration :
    Mirrors stream when (Parser.constantDeclaration expression)
      (varDeclaration true expressionCursor) :=
  (mirrors_consume parseable (by decide) _).bind fun _ =>
    (mirrors_consume parseable (by decide) _).bind fun _ => mirrors.bind fun _ =>
      (mirrors_consume parseable (by decide) _).bind fun _ => mirrors_pure _

theorem mirrors_variableDeclaration :
    Mirrors stream when (Parser.variableDeclaration expression)
      (varDeclaration false expressionCursor) := by
  refine (mirrors_consume parseable (by decide) _).bind fun name => ?_
  refine mirrors_accept_bind parseable (by decide) (fun _ _ => ?_) ?_
  · exact mirrors.restrict.bind fun _ =>
      (mirrors_consume parseable (by decide) _).bind fun _ => mirrors_pure _
  · exact (mirrors_consume parseable (by decide) _).bind fun _ => mirrors_pure _

theorem mirrors_constDeclaration :
    Mirrors stream when (Parser.constDeclaration expression)
      (consume .var .varAfterConst >>= fun _ => varDeclaration true expressionCursor) :=
  (mirrors_consume parseable (by decide) _).bind fun _ =>
    mirrors_constantDeclaration parseable mirrors

theorem mirrors_expressionStatement :
    Mirrors stream when (Parser.expressionStatement expression)
      (expressionStatement expressionCursor) :=
  mirrors.restrict.bind fun _ =>
    (mirrors_consume parseable (by decide) _).bind fun _ => mirrors_pure _

theorem mirrors_printStatement :
    Mirrors stream when (Parser.printStatement expression) (printStatement expressionCursor) :=
  mirrors.restrict.bind fun _ =>
    (mirrors_consume parseable (by decide) _).bind fun _ => mirrors_pure _

theorem mirrors_returnStatement (keyword : Token) :
    Mirrors stream (Behind stream keyword) (Parser.returnStatement expression keyword)
      (returnStatement expressionCursor) := by
  refine mirrors_previous_bind ((mirrors_nextIs parseable (by decide)).bind fun ends => ?_)
  refine Mirrors.ite ?_ ?_
  · exact (mirrors_consume parseable (by decide) _).bind fun _ => mirrors_pure _
  · exact mirrors.bind fun _ =>
      (mirrors_consume parseable (by decide) _).bind fun _ => mirrors_pure _

theorem mirrors_forInitializer :
    Mirrors stream when (Parser.forInitializer expression) (forInitializer expressionCursor) := by
  refine mirrors_accept_cons_bind parseable (by decide) (fun token same => ?semicolon) ?_
  case semicolon =>
    dsimp only
    rw [same]
    exact mirrors_pure _
  refine mirrors_accept_cons_bind parseable (by decide) (fun token same => ?const) ?_
  case const =>
    dsimp only
    rw [same]
    have declares : Mirrors stream (Behind stream token) _ _ :=
      (mirrors_constDeclaration parseable mirrors).bind
        fun declaration => mirrors_pure (some declaration)
    rwa [bind_assoc] at declares
  refine mirrors_accept_cons_bind parseable (by decide) (fun token same => ?var) ?_
  case var =>
    dsimp only
    rw [same]
    exact (mirrors_variableDeclaration parseable mirrors).bind fun _ => mirrors_pure _
  exact mirrors_accept_nil_bind
    ((mirrors_expressionStatement parseable mirrors).bind fun _ => mirrors_pure _)

theorem mirrors_forClause {closing : Kind} (isToken : .eof ≠ closing) :
    Mirrors stream Anywhere (Parser.forClause closing expression)
      (forClause closing expressionCursor) := by
  have absent (tokens : List Token) : Parser.forClause closing expression tokens =
      (if (tokens.isEmpty || tokens.head?.any fun token => token.kind = closing) = true then
        pure none else expression >>= fun clause => pure (some clause) : Parser _) tokens := by
    rw [Parser.forClause, Parser.bind_of_done rfl, Parser.bind_of_done rfl, Parse.after_nil,
      Parse.after_nil]
  refine (looks_lacks parseable isToken).bind fun onward => ?_
  rintro state inside ⟨_, answer⟩
  rw [absent]
  cases onward with
  | false =>
    rw [if_pos ((Bool.not_eq_false' _).mp answer)]
    exact .done (.refl inside)
  | true =>
    rw [if_neg ((Bool.not_eq_true' _).mp answer ▸ Bool.false_ne_true)]
    exact mirrors.bind (fun _ => mirrors_pure _) state inside trivial

variable {statement : Parser Stmt} {statementCursor : Cursor Stmt}
  (statementMirrors : Mirrors stream Anywhere statement statementCursor)

include statementMirrors

theorem mirrors_ifStatement :
    Mirrors stream when (Parser.ifStatement expression statement)
      (ifStatement expressionCursor statementCursor) := by
  refine (mirrors_consume parseable (by decide) _).bind fun _ => mirrors.bind fun _ =>
    (mirrors_consume parseable (by decide) _).bind fun _ => statementMirrors.bind fun _ => ?_
  refine mirrors_accept_bind parseable (by decide) (fun _ _ => ?_) (mirrors_pure _)
  exact statementMirrors.restrict.bind fun _ => mirrors_pure _

theorem mirrors_whileStatement :
    Mirrors stream when (Parser.whileStatement expression statement)
      (whileStatement expressionCursor statementCursor) :=
  (mirrors_consume parseable (by decide) _).bind fun _ => mirrors.bind fun _ =>
    (mirrors_consume parseable (by decide) _).bind fun _ => statementMirrors.bind fun _ =>
      mirrors_pure _

theorem mirrors_forStatement :
    Mirrors stream when (Parser.forStatement expression statement)
      (forStatement expressionCursor statementCursor) :=
  (mirrors_consume parseable (by decide) _).bind fun _ =>
    (mirrors_forInitializer parseable mirrors).bind fun _ =>
      (mirrors_forClause parseable mirrors (by decide)).bind fun _ =>
        (mirrors_consume parseable (by decide) _).bind fun _ =>
          (mirrors_forClause parseable mirrors (by decide)).bind fun _ =>
            (mirrors_consume parseable (by decide) _).bind fun _ => statementMirrors.bind fun _ =>
              mirrors_pure _

end

section

variable {declaration : Parser (Option Stmt)} {declarationCursor : Cursor (Option Stmt)}
  (mirrors : Mirrors stream (InFront stream) declaration declarationCursor)

include mirrors

theorem mirrors_blockBody (bound : Nat) :
    Mirrors stream Anywhere (Parser.blockBody bound declaration)
      (blockBody bound declarationCursor) :=
  (mirrors_repeatUntil Parser.looks_blockEnd (looks_lacks parseable (by decide)) mirrors
    bound).bind fun _ => (mirrors_consume parseable (by decide) _).bind fun _ => mirrors_pure _

theorem mirrors_functionDeclaration (bound : Nat) :
    Mirrors stream when (Parser.functionDeclaration bound declaration)
      (functionDeclaration bound declarationCursor) :=
  (mirrors_consume parseable (by decide) _).bind fun _ =>
    (mirrors_consume parseable (by decide) _).bind fun _ =>
      (mirrors_listed parseable (mirrors_consume parseable (by decide) _) _ _).bind fun _ =>
        (mirrors_consume parseable (by decide) _).bind fun _ =>
          (mirrors_consume parseable (by decide) _).bind fun _ =>
            (mirrors_blockBody parseable mirrors bound).bind fun _ => mirrors_pure _

/-! ### Statements -/

variable {statement : Parser Stmt} {statementCursor : Cursor Stmt}
  (statementMirrors : Mirrors stream Anywhere statement statementCursor)

include statementMirrors

theorem mirrors_statementOver (bound : Nat) :
    Mirrors stream Anywhere (Parser.statementOver bound statement declaration)
      (statementOver bound statementCursor declarationCursor) := by
  have expression := mirrors_expression parseable bound
  rw [Parser.statementOver, Parser.statementKinds, statementOver]
  refine mirrors_accept_cons_bind parseable (by decide) (fun token same => ?print) ?_
  case print =>
    dsimp only
    rw [same]
    exact mirrors_printStatement parseable expression
  refine mirrors_accept_cons_bind parseable (by decide) (fun token same => ?block) ?_
  case block =>
    dsimp only
    rw [same]
    exact (mirrors_blockBody parseable mirrors bound).restrict.bind fun _ => mirrors_pure _
  refine mirrors_accept_cons_bind parseable (by decide) (fun token same => ?ifThen) ?_
  case ifThen =>
    dsimp only
    rw [same]
    exact mirrors_ifStatement parseable expression statementMirrors
  refine mirrors_accept_cons_bind parseable (by decide) (fun token same => ?loop) ?_
  case loop =>
    dsimp only
    rw [same]
    exact mirrors_whileStatement parseable expression statementMirrors
  refine mirrors_accept_cons_bind parseable (by decide) (fun token same => ?forLoop) ?_
  case forLoop =>
    dsimp only
    rw [same]
    exact mirrors_forStatement parseable expression statementMirrors
  refine mirrors_accept_cons_bind parseable (by decide) (fun token same => ?leave) ?_
  case leave =>
    dsimp only
    rw [same]
    exact mirrors_returnStatement parseable expression token
  exact mirrors_accept_nil_bind (mirrors_expressionStatement parseable expression)

theorem mirrors_declarationOver (bound : Nat) :
    Mirrors stream Anywhere (Parser.declarationOver bound statement declaration)
      (declarationOver bound statementCursor declarationCursor) := by
  have expression := mirrors_expression parseable bound
  rw [Parser.declarationOver, declarationOver]
  refine mirrors_accept_cons_bind parseable (by decide) (fun token same => ?var) ?_
  case var =>
    dsimp only
    rw [same]
    exact mirrors_variableDeclaration parseable expression
  refine mirrors_accept_cons_bind parseable (by decide) (fun token same => ?const) ?_
  case const =>
    dsimp only
    rw [same]
    exact mirrors_constDeclaration parseable expression
  refine mirrors_accept_cons_bind parseable (by decide) (fun token same => ?function) ?_
  case function =>
    dsimp only
    rw [same]
    exact mirrors_functionDeclaration parseable mirrors bound
  exact mirrors_accept_nil_bind statementMirrors

end

/-! ### Recovery -/

omit parseable in
theorem synchronize_singleton (token : Token) : Parser.synchronize [token] = [] := by
  rw [Parser.synchronize]
  split <;> rfl

/-- Skipping stops where the first account stops, if it starts behind a token. -/
theorem exists_skip : ∀ (bound : Nat) (state : State) {index : Nat} {token : Token},
    state.position = index + 1 → stream.tokens[index]? = some token →
    stream.tokens.length < state.position + bound →
    ∃ reached, skip bound stream.toList state = (.done (), reached) ∧
      stream.tokens.drop reached.position = Parser.synchronize (stream.tokens.drop index) ∧
      Reaches stream [] state reached
  | 0, state, index, token, behind, found, few => by
    have before := (List.getElem?_eq_some_iff.mp found).1
    omega
  | bound + 1, state, index, token, behind, found, few => by
    obtain ⟨before, here⟩ := List.getElem?_eq_some_iff.mp found
    have inside : state.position ≤ stream.tokens.length := behind ▸ before
    have rest : stream.tokens.drop index = token :: stream.tokens.drop state.position := by
      rw [behind, List.drop_eq_getElem_cons before, here]
    obtain ⟨looked, looks, stays⟩ := looks_atEnd state inside trivial
    dsimp only at looks
    rw [skip, bind_of_done looks, rest, Parser.synchronize]
    rcases drop_cases inside with ⟨none, last⟩ | ⟨next, foundNext, restNext, hereNext⟩
    · rw [last, decide_eq_true parseable.ends, if_pos rfl]
      refine ⟨looked, rfl, ?_, stays.reaches⟩
      rw [stays.position, ← Parser.synchronize, none, synchronize_singleton]
    · obtain ⟨back, looksBack, staysBack⟩ := looks_previous looked stays.reaches.inside
        ⟨index, stays.position.trans behind, found⟩
      rw [hereNext, decide_eq_false (kind_ne_eof parseable foundNext),
        if_neg Bool.false_ne_true, bind_of_done looksBack]
      have seen := stays.reaches.trans staysBack.reaches
      have position := staysBack.position.trans stays.position
      by_cases semicolon : token.kind = .semicolon
      · rw [if_pos semicolon, if_pos (.inl semicolon)]
        exact ⟨back, rfl, congrArg stream.tokens.drop position, seen⟩
      · obtain ⟨peeked, peeks, staysPeeked⟩ := looks_peek back staysBack.reaches.inside trivial
        rw [position, hereNext] at peeks
        rw [if_neg semicolon, bind_of_done peeks]
        have seenNext := seen.trans staysPeeked.reaches
        have positionNext := staysPeeked.position.trans position
        by_cases resumes : next.kind ∈ Parser.resumingKinds
        · have stop : (stream.tokens.drop state.position).head?.any
              (fun next => next.kind ∈ Parser.resumingKinds) = true := by
            rw [restNext]
            exact decide_eq_true resumes
          rw [if_pos resumes, if_pos (.inr stop)]
          exact ⟨peeked, rfl, congrArg stream.tokens.drop positionNext, seenNext⟩
        · have onward : ¬ (token.kind = .semicolon ∨
              (stream.tokens.drop state.position).head?.any
                (fun next => next.kind ∈ Parser.resumingKinds) = true) := by
            rw [restNext]
            exact not_or.mpr ⟨semicolon, fun stop => resumes (of_decide_eq_true stop)⟩
          obtain ⟨moved, moves, steps⟩ :=
            exists_advance parseable (positionNext.symm ▸ foundNext)
          rw [if_neg resumes, if_neg onward, bind_of_done moves]
          obtain ⟨reached, ends, drops, further⟩ := exists_skip bound moved
            (steps.onward.trans (congrArg (· + 1) positionNext)) foundNext (by
              rw [steps.onward, positionNext]
              omega)
          exact ⟨reached, ends, drops, (seenNext.trans steps.reaches).trans further⟩

/-- Recovery stops where the first account stops, if there is a token at all. -/
theorem exists_synchronize {state : State} (inside : state.position ≤ stream.tokens.length)
    (some : stream.tokens ≠ []) :
    ∃ reached, synchronize stream.toList state = (.done (), reached) ∧
      stream.tokens.drop reached.position =
        Parser.synchronize (stream.tokens.drop state.position) ∧
      Reaches stream [] state reached := by
  have enough : stream.toList.length = stream.tokens.length + 1 := stream.length_toList
  rcases drop_cases inside with ⟨none, last⟩ | ⟨token, found, _, _⟩
  · -- at the end no token is left to step over, and the last one is looked at
    have behind : state.position ≠ 0 := fun start => by
      rw [start, List.drop_zero] at none
      exact some none
    obtain ⟨index, behind⟩ := Nat.exists_eq_succ_of_ne_zero behind
    have before : index < stream.tokens.length := by omega
    have found := List.getElem?_eq_getElem before
    obtain ⟨looked, looks, stays⟩ := looks_atEnd state inside trivial
    dsimp only at looks
    obtain ⟨back, looksBack, staysBack⟩ := looks_previous looked stays.reaches.inside
      ⟨index, stays.position.trans behind, found⟩
    have position := (staysBack.position.trans stays.position).trans behind
    obtain ⟨reached, ends, drops, further⟩ := exists_skip parseable stream.toList.length back
      position found (by omega)
    refine ⟨reached, ?_, ?_, (stays.reaches.trans staysBack.reaches).trans further⟩
    · show (advance >>= fun _ => skip _) _ _ = _
      rw [last, decide_eq_true parseable.ends] at looks
      have advances : advance stream.toList state = (.done _, back) :=
        (bind_of_done looks).trans looksBack
      rw [bind_of_done advances, ends]
    · rw [drops, none, List.drop_eq_getElem_cons before, ← Nat.succ_eq_add_one, ← behind, none,
        synchronize_singleton]
      rfl
  · obtain ⟨moved, moves, steps⟩ := exists_advance parseable found
    obtain ⟨reached, ends, drops, further⟩ := exists_skip parseable stream.toList.length moved
      steps.onward found (by omega)
    refine ⟨reached, ?_, drops, steps.reaches.trans further⟩
    show (advance >>= fun _ => skip _) _ _ = _
    rw [bind_of_done moves, ends]

theorem mirrors_recover {parser : Parser α} {cursor : Cursor α}
    (mirrors : Mirrors stream Anywhere parser cursor) :
    Mirrors stream (InFront stream) (Parser.recover parser) (recover cursor) := by
  intro state inside inFront
  have agrees := mirrors state inside trivial
  have some : stream.tokens ≠ [] := List.ne_nil_of_length_pos (Nat.zero_lt_of_lt inFront)
  rw [Parser.recover, recover]
  generalize parser (stream.tokens.drop state.position) = parse at agrees
  generalize cursor stream.toList state = result at agrees
  cases agrees with
  | done reaches => exact .done reaches
  | @failed _ fallen reaches =>
    obtain ⟨reached, ends, drops, further⟩ := exists_synchronize parseable reaches.inside some
    have nothing : Agrees stream fallen (.done (none : Option α) _ _) _ := .done further
    have agrees := nothing.after reaches
    rw [drops, Parse.after, List.append_nil] at agrees
    dsimp only
    rw [bind_of_done ends]
    exact agrees
  | starved => exact .starved

omit parseable in
theorem mirrors_logged {parser : Parser α} {cursor : Cursor α}
    (mirrors : Mirrors stream (InFront stream) parser cursor) (advances : parser.Advances) :
    Mirrors stream (InFront stream) parser (logged cursor) := by
  intro state inside inFront
  have agrees := mirrors state inside inFront
  show Agrees stream state _ (Cursor.bind cursor _ stream.toList state)
  rw [Cursor.bind]
  generalize cursor stream.toList state = result at agrees
  generalize parsed : parser (stream.tokens.drop state.position) = parse at agrees
  cases agrees with
  | @done value reports reached reaches =>
    have onward : state.position < reached.position := by
      rw [List.drop_eq_getElem_cons inFront] at parsed
      have shorter := advances _ _ _ _ _ parsed
      rw [List.length_drop, List.length_drop] at shorter
      have := reaches.inside
      change state.position < _ at inFront
      omega
    have noted : Stays stream reached
        (reached.noting (.declared state.position reached.position)) :=
      stays_noting reaches.inside ⟨onward, reaches.inside⟩
    have kept : Agrees stream reached (.done value _ _) _ := .done noted.reaches
    have agrees := kept.after reaches
    rw [Parse.after, List.append_nil] at agrees
    exact agrees
  | failed reaches => exact .failed reaches
  | starved => exact .starved

/-! ### Nesting -/

theorem mirrors_statement_declaration : ∀ bound,
    Mirrors stream Anywhere (Parser.statement bound) (statement bound) ∧
      Mirrors stream (InFront stream) (Parser.declaration bound) (declaration bound)
  | 0 => ⟨mirrors_starve, mirrors_starve⟩
  | bound + 1 => by
    obtain ⟨statementMirrors, mirrors⟩ := mirrors_statement_declaration bound
    have here := mirrors_statementOver parseable mirrors statementMirrors (bound + 1)
    have advances := Parser.advances_declaration (bound + 1)
    rw [Parser.declaration_succ, Parser.statement_succ] at advances ⊢
    rw [statement, declaration]
    exact ⟨here, mirrors_logged
      (mirrors_recover parseable (mirrors_declarationOver parseable mirrors here (bound + 1)))
      advances⟩

/-- The whole parse mirrors the first account. -/
theorem mirrors_declarations (bound : Nat) :
    Mirrors stream Anywhere (Parser.declarations bound) (declarations bound) := by
  refine mirrors_repeatUntil Parser.looks_atEnd ?_
    (mirrors_statement_declaration parseable bound).2 bound
  intro state inside _
  dsimp only
  rw [isEmpty_drop parseable inside]
  exact looks_atEnd.map (!·) state inside trivial

end

end Cursor

/-! ### Whole sources -/

namespace Parser

/-- A list of items that do not fail does not fail, and only the end of the tokens ends it. -/
theorem repeatUntil_atEnd {α : Type} {item : Parser (Option α)}
    (recovers : ∀ tokens rest reports, item tokens ≠ .failed rest reports) :
    ∀ bound tokens, repeatUntil atEnd item bound tokens = .starved ∨
      ∃ values reports, repeatUntil atEnd item bound tokens = .done values [] reports
  | 0, _ => .inl rfl
  | bound + 1, [] => .inr ⟨[], [], rfl⟩
  | bound + 1, token :: tokens => by
    have further := repeatUntil_atEnd recovers bound
    rw [repeatUntil, bind_of_done rfl, List.isEmpty_cons, if_neg Bool.false_ne_true,
      Parse.after_nil]
    cases parsed : item (token :: tokens) with
    | done first rest reports =>
      rw [bind_of_done parsed]
      rcases further rest with starves | ⟨others, later, ends⟩
      · rw [bind_of_starved starves]
        exact .inl rfl
      · rw [bind_of_done ends]
        exact .inr ⟨_, _, rfl⟩
    | failed rest reports => exact absurd parsed (recovers _ _ _)
    | starved => exact .inl (bind_of_starved parsed)

theorem declaration_ne_failed : ∀ bound tokens rest reports,
    declaration bound tokens ≠ .failed rest reports
  | 0, _, _, _ => fun failed => by cases failed
  | bound + 1, tokens, rest, reports => by
    intro failed
    rw [declaration_succ, recover] at failed
    split at failed <;> cases failed

/-- With a bound above the number of tokens all of them are parsed. -/
theorem exists_declarations {bound : Nat} {tokens : List Token} (enough : tokens.length < bound) :
    ∃ statements reports, declarations bound tokens = .done statements [] reports := by
  rcases repeatUntil_atEnd (declaration_ne_failed bound) bound tokens with starves | ends
  · have proper := proper_declarations bound tokens
    rw [declarations, starves] at proper
    exact absurd enough (Nat.not_lt.mpr proper)
  · exact ends

end Parser

/-- The second account parses what the first one does, and comes to the end. -/
theorem Cursor.exists_parse {stream : TokenStream} (parseable : stream.Parseable) :
    ∃ reports final,
      Cursor.parse stream.toList = (.done (Program.ofStream stream).statements, final) ∧
      (Program.ofStream stream).diagnostics = reports.map (Report.diagnostic stream.eof.line) ∧
      final.position = stream.tokens.length ∧ Reaches stream reports .start final := by
  obtain ⟨statements, reports, parsed⟩ :=
    Parser.exists_declarations (Nat.lt_succ_self stream.tokens.length)
  have agrees := mirrors_declarations parseable (stream.tokens.length + 1) .start
    (Nat.zero_le _) trivial
  obtain ⟨final, ends, rest, reaches⟩ := agrees.of_done parsed
  have program : Program.ofStream stream =
      ⟨statements, reports.map (Report.diagnostic stream.eof.line)⟩ := by
    simp only [Program.ofStream, parsed]
  rw [program, parse, stream.length_toList]
  exact ⟨reports, final, ends, rfl,
    Nat.le_antisymm reaches.inside (List.drop_eq_nil_iff.mp rest.symm), reaches⟩

/-- The flag is set exactly if something was printed, which are the diagnostics of the program. -/
theorem Cursor.printed_parse {stream : TokenStream} (parseable : stream.Parseable) :
    let final := (Cursor.parse stream.toList).2
    final.printed = (Program.ofStream stream).diagnostics ∧
      (final.hadError = true ↔ final.printed ≠ []) := by
  obtain ⟨reports, final, ends, diagnostics, -, reaches⟩ := exists_parse parseable
  have printed : final.printed = reports.map (Report.diagnostic stream.eof.line) :=
    reaches.printed
  rw [ends, diagnostics]
  refine ⟨printed, ?_⟩
  show final.hadError = true ↔ final.printed ≠ []
  rw [reaches.hadError, printed]
  cases reports <;> simp [State.start]

/-- The parser always ends, goes on and stays inside its list. Given any tokens, whatever their
order, with the end of the source behind them and with numbers that the scanner can make, it comes
to the end of the source, and no syntax error gets out. Everything it reads on its way is in the
list, it never goes beyond the end, and every declaration, also one that is given up or that stands
in a block that is, ends behind where it began. Statements and diagnostics are those of the
program. -/
theorem parser_goes_on (stream : TokenStream) (parseable : stream.Parseable) :
    let program := Program.ofStream stream
    ∃ final, Cursor.parse stream.toList = (.done program.statements, final) ∧
      final.position = stream.tokens.length ∧
      (∀ index : Int, .read index ∈ final.log → 0 ≤ index ∧ index < stream.toList.length) ∧
      (∀ position, .moved position ∈ final.log → position ≤ stream.tokens.length) ∧
      (∀ start stop, .declared start stop ∈ final.log →
        start < stop ∧ stop ≤ stream.tokens.length) ∧
      final.printed = program.diagnostics := by
  intro program
  obtain ⟨reports, final, ends, diagnostics, last, reaches⟩ := Cursor.exists_parse parseable
  obtain ⟨events, log, proper⟩ := reaches.logged
  have isProper : ∀ event ∈ final.log, event.Proper stream := by
    rw [log]
    exact proper
  refine ⟨final, ends, last, fun index read => ?_, fun position => isProper _,
    fun start stop => isProper _, reaches.printed.trans diagnostics.symm⟩
  obtain ⟨nonnegative, inside⟩ := isProper _ read
  rw [stream.length_toList]
  exact ⟨nonnegative, Int.lt_add_one_of_le inside⟩

/-- Two declarations that are given up: a brace that closes nothing, and a print statement that has
such a brace in the place of its semicolon. -/
theorem parser_goes_on_strayBraces :
    let stream : TokenStream :=
      ⟨[⟨.rightBrace, "\x7d", 1⟩, ⟨.print, "print", 1⟩, ⟨.number, "2", 1⟩,
          ⟨.rightBrace, "\x7d", 1⟩],
        ⟨.eof, "", 1⟩⟩
    stream.Parseable ∧ ∃ final, Cursor.parse stream.toList = (.done [], final) ∧
      final.position = 4 ∧ final.printed.length = 2 ∧
      ∀ start stop, .declared start stop ∈ final.log → start < stop ∧ stop ≤ 4 := by
  intro stream
  have scanned : Token.Scanned "2" := ⟨['2'], 1, ⟨.number, "2", 1⟩, by decide +kernel, rfl, rfl⟩
  have parseable : stream.Parseable := by
    refine ⟨rfl, by decide, fun token member isNumber => ?_⟩
    simp only [stream, List.mem_cons, List.not_mem_nil, or_false] at member
    rcases member with rfl | rfl | rfl | rfl
    any_goals cases isNumber
    exact scanned
  obtain ⟨final, ends, last, -, -, onward, printed⟩ := parser_goes_on stream parseable
  exact ⟨parseable, final, ends, last, printed ▸ rfl, onward⟩

end Lox
