/-
This file says which reports are a declaration's own. A declaration is parsed
alone by passing over the declarations nested in it: they are taken as ever, but
neither their trees nor their reports are kept. What is reported then is the
declaration's own, and the whole report is that with the reports of the nested
declarations in between.

A declaration that is kept has reported, of its own, each item that is beyond
the limit outside its blocks; one that is given up has reported such items and
then the error that it was given up for. So one broken declaration can have more
than one report of its own, and the file ends with the shortest call that does.
-/

import Lox.Proofs.Parsing.Bounds
import Lox.Proofs.Parsing.Excess
import Lox.Proofs.Parsing.Limits

namespace Lox

open Token (Kind)

variable {α β : Type}

/-! ### Declarations alone -/

/-- What a parser reported, if it was not starved. -/
def Parse.reports : Parse α → List Report
  | .done _ _ reports => reports
  | .failed _ reports => reports
  | .starved => []

namespace Parser

/-- Goes on behind what the parser takes, and keeps neither its value nor its reports. -/
def passOver (parser : Parser (Option α)) : Parser (Option α) := fun tokens =>
  match parser tokens with
  | .done _ rest _ => .done none rest []
  | .failed rest _ => .done none rest []
  | .starved => .starved

/-- A statement without the declarations nested in it. -/
def aloneStatement : Nat → Parser Stmt
  | 0 => starve
  | bound + 1 =>
    statementOver (bound + 1) (aloneStatement bound) (passOver (declaration bound))

/-- A declaration without the declarations nested in it. -/
def aloneDeclaration : Nat → Parser (Option Stmt)
  | 0 => starve
  | bound + 1 =>
    recover (declarationOver (bound + 1) (aloneStatement (bound + 1))
      (passOver (declaration bound)))

/-- The block is what a declaration reports that begins at one of the tokens. -/
def ReportedIn (tokens : List Token) (block : List Report) : Prop :=
  ∃ bound place value rest, place <:+ tokens ∧ place.length < bound ∧
    declaration bound place = .done value rest block

theorem ReportedIn.mono {tokens others : List Token} {block : List Report}
    (reported : ReportedIn tokens block) (longer : tokens <:+ others) :
    ReportedIn others block := by
  obtain ⟨bound, place, value, rest, inside, enough, parsed⟩ := reported
  exact ⟨bound, place, value, rest, inside.trans longer, enough, parsed⟩

/-- What a declaration reports with any bound it also reports with one that is large enough. -/
theorem reportedIn_of_done {bound : Nat} {tokens rest : List Token} {value : Option Stmt}
    {reports : List Report} (parsed : declaration bound tokens = .done value rest reports) :
    ReportedIn tokens reports := by
  have enough : tokens.length < max bound (tokens.length + 1) := by omega
  have more := (Extends.statement_declaration (Nat.le_max_left bound (tokens.length + 1))).2
  have same := (more (Parse.ne_starved_of_done parsed)).trans parsed
  exact ⟨_, tokens, value, rest, List.suffix_refl tokens, enough, same⟩

/-- What is passed over has neither reports nor a tree. -/
theorem weighs_passOver (parser : Parser (Option Stmt)) :
    (passOver parser).Weighs Stmt.excess? := by
  intro before tokens
  rw [passOver]
  split
  · exact Parse.counted_done_nil _ rfl
  · exact Parse.counted_done_nil _ rfl
  · trivial

theorem weighs_aloneStatement : ∀ bound, (aloneStatement bound).Weighs Stmt.excess
  | 0 => fun _ => counts_starve
  | bound + 1 => weighs_statementOver (weighs_passOver _) (weighs_aloneStatement bound) (bound + 1)

end Parser

/-! ### Reports in between -/

/-- The reports of the second list are those of the first with blocks of others in between. -/
inductive Around (Block : List Report → Prop) : List Report → List Report → Prop
  | nil : Around Block [] []
  | own {own all : List Report} (report : Report) (others : Around Block own all) :
    Around Block (report :: own) (report :: all)
  | block {own all block : List Report} (isBlock : Block block) (others : Around Block own all) :
    Around Block own (block ++ all)

namespace Around

variable {Block : List Report → Prop}

theorem refl : ∀ reports : List Report, Around Block reports reports
  | [] => .nil
  | report :: others => .own report (refl others)

theorem append {own all ownLater allLater : List Report} (earlier : Around Block own all)
    (later : Around Block ownLater allLater) :
    Around Block (own ++ ownLater) (all ++ allLater) := by
  induction earlier with
  | nil => exact later
  | own report _ inductionHypothesis => exact .own report inductionHypothesis
  | block isBlock _ inductionHypothesis =>
    rw [List.append_assoc]
    exact .block isBlock inductionHypothesis

theorem mono {Larger : List Report → Prop} {own all : List Report}
    (around : Around Block own all) (larger : ∀ block, Block block → Larger block) :
    Around Larger own all := by
  induction around with
  | nil => exact .nil
  | own report _ inductionHypothesis => exact .own report inductionHypothesis
  | block isBlock _ inductionHypothesis => exact .block (larger _ isBlock) inductionHypothesis

end Around

/-! ### Parsers that pass over -/

/-- The second outcome is the first one without the declarations nested in it: the same tokens are
left, the values are related, and what the first one reported beside the second are reports of
declarations inside. -/
inductive Parse.Overlooks (related : α → β → Prop) (tokens inside : List Token) :
    Parse α → Parse β → Prop
  | done {value : α} {outline : β} {rest : List Token} {reports own : List Report}
    (same : related value outline) (behind : rest <:+ tokens)
    (around : Around (Parser.ReportedIn inside) own reports) :
    Overlooks related tokens inside (.done value rest reports) (.done outline rest own)
  | failed {rest : List Token} {reports own : List Report} (behind : rest <:+ tokens)
    (around : Around (Parser.ReportedIn inside) own reports) :
    Overlooks related tokens inside (.failed rest reports) (.failed rest own)
  | starved : Overlooks related tokens inside .starved .starved

/-- Earlier reports and more tokens keep the outcomes related. -/
theorem Parse.Overlooks.after {related : α → β → Prop} {tokens inside rest within : List Token}
    {earlier own : List Report} {loud : Parse α} {alone : Parse β}
    (overlooks : Overlooks related rest within loud alone) (behind : rest <:+ tokens)
    (wider : within <:+ inside) (around : Around (Parser.ReportedIn inside) own earlier) :
    Overlooks related tokens inside (loud.after earlier) (alone.after own) := by
  have widened : ∀ block, Parser.ReportedIn within block → Parser.ReportedIn inside block :=
    fun _ reported => reported.mono wider
  cases overlooks with
  | done same further later =>
    exact .done same (further.trans behind) (around.append (later.mono widened))
  | failed further later => exact .failed (further.trans behind) (around.append (later.mono widened))
  | starved => exact .starved

namespace Parser

/-- The second parser does what the first one does, without the declarations nested in it. -/
def Overlooks (related : α → β → Prop) (loud : Parser α) (alone : Parser β) : Prop :=
  ∀ tokens, (loud tokens).Overlooks related tokens tokens (alone tokens)

/-- The same where no nested declaration begins at the first token. -/
def OverlooksInside (related : α → β → Prop) (loud : Parser α) (alone : Parser β) : Prop :=
  ∀ tokens, (loud tokens).Overlooks related tokens tokens.tail (alone tokens)

theorem OverlooksInside.overlooks {related : α → β → Prop} {loud : Parser α} {alone : Parser β}
    (inside : loud.OverlooksInside related alone) : loud.Overlooks related alone := by
  intro tokens
  have outcome := inside tokens
  generalize loud tokens = parse, alone tokens = parseAlone at outcome
  have wider : ∀ block, ReportedIn tokens.tail block → ReportedIn tokens block :=
    fun _ reported => reported.mono (List.tail_suffix tokens)
  cases outcome with
  | done same behind around => exact .done same behind (around.mono wider)
  | failed behind around => exact .failed behind (around.mono wider)
  | starved => exact .starved

/-- A parser that is the same alone has nothing nested in it. -/
theorem Overlooks.inside {related : α → α → Prop} {parser : Parser α}
    (overlooks : parser.Overlooks related parser) : parser.OverlooksInside related parser := by
  intro tokens
  have outcome := overlooks tokens
  generalize parser tokens = parse at outcome
  cases outcome with
  | done same behind _ => exact .done same behind (.refl _)
  | failed behind _ => exact .failed behind (.refl _)
  | starved => exact .starved

theorem Proper.overlooks {bound : Nat} {parser : Parser α} (proper : parser.Proper bound) :
    parser.Overlooks Eq parser := by
  intro tokens
  have outcome := proper tokens
  generalize parser tokens = parse at outcome
  cases parse with
  | done value rest reports => exact .done rfl outcome (.refl reports)
  | failed rest reports => exact .failed outcome.1 (.refl reports)
  | starved => exact .starved

namespace Overlooks

theorem pure {related : α → β → Prop} {value : α} {outline : β} (same : related value outline) :
    Overlooks related (pure value) (pure outline) :=
  fun tokens => .done same (List.suffix_refl tokens) .nil

theorem ite {related : α → β → Prop} {condition : Prop} [Decidable condition]
    {loud loudElse : Parser α} {alone aloneElse : Parser β}
    (positive : loud.Overlooks related alone) (negative : loudElse.Overlooks related aloneElse) :
    Overlooks related (if condition then loud else loudElse)
      (if condition then alone else aloneElse) := by
  split
  · exact positive
  · exact negative

section

variable {γ δ : Type} {related : α → β → Prop} {final : γ → δ → Prop}

theorem bind {loud : Parser α} {alone : Parser β} {loudNext : α → Parser γ}
    {aloneNext : β → Parser δ} (first : loud.Overlooks related alone)
    (next : ∀ value outline, related value outline →
      (loudNext value).Overlooks final (aloneNext outline)) :
    Overlooks final (loud >>= loudNext) (alone >>= aloneNext) := by
  intro tokens
  have outcome := first tokens
  generalize parsed : loud tokens = firstLoud, parsedAlone : alone tokens = firstAlone at outcome
  cases outcome with
  | done same behind around =>
    rw [bind_of_done parsed, bind_of_done parsedAlone]
    exact (next _ _ same _).after behind behind around
  | failed behind around =>
    rw [bind_of_failed parsed, bind_of_failed parsedAlone]
    exact .failed behind around
  | starved =>
    rw [bind_of_starved parsed, bind_of_starved parsedAlone]
    exact .starved

/-- What comes behind a part without declarations. -/
theorem behind {bound : Nat} {first : Parser α} {loudNext : α → Parser γ}
    {aloneNext : α → Parser δ} (proper : first.Proper bound)
    (next : ∀ value, (loudNext value).Overlooks final (aloneNext value)) :
    Overlooks final (first >>= loudNext) (first >>= aloneNext) :=
  bind proper.overlooks fun value _ same => same ▸ next value

/-- Behind an optional token that was there, the first of the tokens is taken. -/
theorem inside_accept_bind {kinds : List Kind} {loudNext : Option Token → Parser γ}
    {aloneNext : Option Token → Parser δ}
    (absent : (loudNext none).OverlooksInside final (aloneNext none))
    (present : ∀ token, (loudNext (some token)).Overlooks final (aloneNext (some token))) :
    OverlooksInside final (accept kinds >>= loudNext) (accept kinds >>= aloneNext) := by
  intro tokens
  cases tokens with
  | nil =>
    rw [bind_of_done (accept_nil kinds), bind_of_done (accept_nil kinds)]
    exact (absent []).after (List.suffix_refl []) (List.suffix_refl []) .nil
  | cons token rest =>
    by_cases member : token.kind ∈ kinds
    · rw [bind_of_done (accept_of_mem rest member), bind_of_done (accept_of_mem rest member)]
      exact (present token rest).after (List.suffix_cons token rest) (List.suffix_refl rest) .nil
    · rw [bind_of_done (accept_of_notMem rest member), bind_of_done (accept_of_notMem rest member)]
      exact (absent _).after (List.suffix_refl _) (List.suffix_refl rest) .nil

end

/-- A list of declarations that are passed over is empty. -/
theorem repeatUntil {stop : Parser Bool} {halts : List Token → Bool} (looks : Looks stop halts)
    {loud : Parser (Option α)} {alone : Parser (Option β)}
    (item : loud.Overlooks (fun _ outline => outline = none) alone) : ∀ bound,
    Overlooks (fun _ outline => outline = []) (Parser.repeatUntil stop loud bound)
      (Parser.repeatUntil stop alone bound)
  | 0 => fun _ => .starved
  | bound + 1 => by
    have proper : stop.Proper 0 := fun tokens => by
      rw [looks.look]
      exact List.suffix_refl tokens
    refine behind proper fun stops => ite (pure rfl) ?_
    refine bind item fun first outline missing => ?_
    refine bind (repeatUntil looks item bound) fun others outlines empty => pure ?_
    rw [missing, empty]
    rfl

end Overlooks

end Parser

/-! ### Outlines -/

/-- The second statement is the first one with its blocks and function bodies emptied. -/
inductive Stmt.Outlines : Stmt → Stmt → Prop
  | expression (value : Expr) : Outlines (.expression value) (.expression value)
  | print (value : Expr) : Outlines (.print value) (.print value)
  | var (constant : Bool) (name : Token) (initializer : Option Expr) :
    Outlines (.var constant name initializer) (.var constant name initializer)
  | block (body : List Stmt) : Outlines (.block body) (.block [])
  | ifThen {consequent outline : Stmt} (condition : Expr) (same : Outlines consequent outline) :
    Outlines (.ifThen condition consequent) (.ifThen condition outline)
  | ifElse {consequent alternative outline other : Stmt} (condition : Expr)
    (same : Outlines consequent outline) (sameElse : Outlines alternative other) :
    Outlines (.ifElse condition consequent alternative) (.ifElse condition outline other)
  | while {body outline : Stmt} (condition : Expr) (same : Outlines body outline) :
    Outlines (.while condition body) (.while condition outline)
  | forLoop {body outline : Stmt} (initializer : Option Stmt) (condition increment : Option Expr)
    (same : Outlines body outline) :
    Outlines (Stmt.forLoop initializer condition increment body)
      (Stmt.forLoop initializer condition increment outline)
  | function (name : Token) (parameters : List Token) (body : List Stmt) :
    Outlines (.function name parameters body) (.function name parameters [])
  | return (keyword : Token) (value : Option Expr) :
    Outlines (.return keyword value) (.return keyword value)

namespace Parser.Overlooks

section

variable {bound : Nat} {expression : Parser Expr} (proper : expression.Proper bound)

include proper

theorem constantDeclaration :
    Overlooks Stmt.Outlines (Parser.constantDeclaration expression)
      (Parser.constantDeclaration expression) :=
  behind (proper_expect 0 _ _) fun _ => behind (proper_expect 0 _ _) fun _ =>
    behind proper fun _ => behind (proper_expect 0 _ _) fun _ => pure (.var _ _ _)

theorem variableDeclaration :
    Overlooks Stmt.Outlines (Parser.variableDeclaration expression)
      (Parser.variableDeclaration expression) := by
  refine behind (proper_expect 0 _ _) fun _ => behind (proper_accept 0 _) fun equal => ?_
  cases equal with
  | none => exact behind (proper_expect 0 _ _) fun _ => pure (.var _ _ _)
  | some _ => exact behind proper fun _ => behind (proper_expect 0 _ _) fun _ => pure (.var _ _ _)

theorem constDeclaration :
    Overlooks Stmt.Outlines (Parser.constDeclaration expression)
      (Parser.constDeclaration expression) :=
  behind (proper_expect 0 _ _) fun _ => constantDeclaration proper

theorem expressionStatement :
    Overlooks Stmt.Outlines (Parser.expressionStatement expression)
      (Parser.expressionStatement expression) :=
  behind proper fun _ => behind (proper_expect 0 _ _) fun _ => pure (.expression _)

theorem printStatement :
    Overlooks Stmt.Outlines (Parser.printStatement expression)
      (Parser.printStatement expression) :=
  behind proper fun _ => behind (proper_expect 0 _ _) fun _ => pure (.print _)

theorem returnStatement (keyword : Token) :
    Overlooks Stmt.Outlines (Parser.returnStatement expression keyword)
      (Parser.returnStatement expression keyword) :=
  behind (proper_nextIs 0 _) fun _ => ite
    (behind (proper_expect 0 _ _) fun _ => pure (.return _ _))
    (behind proper fun _ => behind (proper_expect 0 _ _) fun _ => pure (.return _ _))

variable {loud alone : Parser Stmt} (statement : loud.Overlooks Stmt.Outlines alone)

include statement

theorem ifStatement :
    Overlooks Stmt.Outlines (Parser.ifStatement expression loud)
      (Parser.ifStatement expression alone) := by
  refine behind (proper_expect 0 _ _) fun _ => behind proper fun condition => ?_
  refine behind (proper_expect 0 _ _) fun _ => bind statement fun consequent outline same => ?_
  refine behind (proper_accept 0 _) fun separator => ?_
  cases separator with
  | none => exact pure (.ifThen condition same)
  | some _ => exact bind statement fun _ _ sameElse => pure (.ifElse condition same sameElse)

theorem whileStatement :
    Overlooks Stmt.Outlines (Parser.whileStatement expression loud)
      (Parser.whileStatement expression alone) :=
  behind (proper_expect 0 _ _) fun _ => behind proper fun condition =>
    behind (proper_expect 0 _ _) fun _ => bind statement fun _ _ same =>
      pure (.while condition same)

theorem forStatement :
    Overlooks Stmt.Outlines (Parser.forStatement expression loud)
      (Parser.forStatement expression alone) :=
  behind (proper_expect 0 _ _) fun _ => behind (proper_forInitializer proper) fun _ =>
    behind (proper_forClause proper _) fun _ => behind (proper_expect 0 _ _) fun _ =>
      behind (proper_forClause proper _) fun _ => behind (proper_expect 0 _ _) fun _ =>
        bind statement fun _ _ same => pure (.forLoop _ _ _ same)

end

section

variable {loud alone : Parser (Option Stmt)}
  (declaration : loud.Overlooks (fun _ outline => outline = none) alone)

include declaration

theorem blockBody (bound : Nat) :
    Overlooks (fun _ outline => outline = []) (Parser.blockBody bound loud)
      (Parser.blockBody bound alone) :=
  bind (repeatUntil looks_blockEnd declaration bound) fun _ _ empty =>
    behind (proper_expect 0 _ _) fun _ => pure empty

theorem functionDeclaration (bound : Nat) :
    Overlooks Stmt.Outlines (Parser.functionDeclaration bound loud)
      (Parser.functionDeclaration bound alone) := by
  refine behind (proper_expect 0 _ _) fun name => behind (proper_expect 0 _ _) fun _ => ?_
  refine behind (proper_listed (proper_expect bound _ _) (Nat.le_refl bound) (Nat.le_refl bound))
    fun parameters => ?_
  refine behind (proper_expect 0 _ _) fun _ => behind (proper_expect 0 _ _) fun _ => ?_
  refine bind (blockBody declaration bound) fun body outline empty => pure ?_
  rw [empty]
  exact .function name parameters body

variable {loudStatement aloneStatement : Parser Stmt}

theorem statementOver (statement : loudStatement.Overlooks Stmt.Outlines aloneStatement)
    (bound : Nat) :
    OverlooksInside Stmt.Outlines (Parser.statementOver bound loudStatement loud)
      (Parser.statementOver bound aloneStatement alone) := by
  have proper := proper_expression bound
  refine inside_accept_bind (expressionStatement proper).inside fun token => ?_
  dsimp only
  split
  · exact printStatement proper
  · refine bind (blockBody declaration bound) fun body outline empty => pure ?_
    rw [empty]
    exact .block body
  · exact ifStatement proper statement
  · exact whileStatement proper statement
  · exact forStatement proper statement
  · exact returnStatement proper token

theorem declarationOver (statement : loudStatement.OverlooksInside Stmt.Outlines aloneStatement)
    (bound : Nat) :
    OverlooksInside Stmt.Outlines (Parser.declarationOver bound loudStatement loud)
      (Parser.declarationOver bound aloneStatement alone) := by
  have proper := proper_expression bound
  refine inside_accept_bind statement fun token => ?_
  dsimp only
  split
  · exact variableDeclaration proper
  · exact constDeclaration proper
  · exact functionDeclaration declaration bound

end

end Parser.Overlooks

namespace Parser

theorem overlooks_passOver (bound : Nat) :
    (declaration bound).Overlooks (fun _ outline => outline = none)
      (passOver (declaration bound)) := by
  intro tokens
  have proper := proper_declaration bound tokens
  rw [passOver]
  cases parsed : declaration bound tokens with
  | done value rest reports =>
    rw [parsed] at proper
    -- All that is reported is one block, and nothing is left of it alone.
    have nested := Around.block (reportedIn_of_done parsed) .nil
    rw [List.append_nil] at nested
    exact .done rfl proper nested
  | failed rest reports => exact absurd parsed (declaration_ne_failed bound tokens rest reports)
  | starved => exact .starved

theorem overlooks_recover {related : α → β → Prop} {loud : Parser α} {alone : Parser β}
    (overlooks : loud.OverlooksInside related alone) :
    (recover loud).OverlooksInside (Option.Rel related) (recover alone) := by
  intro tokens
  have outcome := overlooks tokens
  rw [recover, recover]
  generalize loud tokens = parse, alone tokens = parseAlone at outcome
  -- Both give up in the same place, so they go on in the same place.
  cases outcome with
  | done same behind around => exact .done (.some same) behind around
  | failed behind around => exact .done .none ((synchronize_suffix _).trans behind) around
  | starved => exact .starved

theorem overlooks_statement : ∀ bound,
    (statement bound).OverlooksInside Stmt.Outlines (aloneStatement bound)
  | 0 => fun _ => .starved
  | bound + 1 => by
    rw [statement_succ, aloneStatement]
    exact Overlooks.statementOver (overlooks_passOver bound) (overlooks_statement bound).overlooks
      (bound + 1)

/-- A declaration alone is parsed as it is with the declarations nested in it. -/
theorem overlooks_declaration : ∀ bound,
    (declaration bound).OverlooksInside (Option.Rel Stmt.Outlines) (aloneDeclaration bound)
  | 0 => fun _ => .starved
  | bound + 1 => by
    rw [declaration_succ, aloneDeclaration]
    exact overlooks_recover (Overlooks.declarationOver (overlooks_passOver bound)
      (overlooks_statement (bound + 1)) (bound + 1))

/-! ### The reports of one declaration -/

/-- What a declaration reports of its own. One that is kept reports each item beyond the limit
once; one that is given up reports some of them and then an error of another kind. -/
def Accounted : Option Stmt → List Report → Prop
  | some outline, own =>
    (∀ report ∈ own, report.isExcess = true) ∧ own.length = outline.excess
  | none, own => ∃ excess last, own = excess ++ [last] ∧
    (∀ report ∈ excess, report.isExcess = true) ∧ last.isExcess = false

theorem accounted_aloneDeclaration : ∀ {bound : Nat} {tokens rest : List Token}
    {outline : Option Stmt} {own : List Report},
    aloneDeclaration bound tokens = .done outline rest own → Accounted outline own
  | 0, _, _, _, _, parsed => by cases parsed
  | bound + 1, tokens, rest, outline, own, parsed => by
    have counted := weighs_declarationOver (weighs_passOver (declaration bound))
      (weighs_aloneStatement (bound + 1)) (bound + 1) 0 tokens
    rw [aloneDeclaration, recover] at parsed
    generalize declarationOver (bound + 1) (aloneStatement (bound + 1))
      (passOver (declaration bound)) tokens = parse at counted parsed
    cases parse with
    | done value left reports =>
      cases parsed
      obtain ⟨excess, same⟩ := counted
      rw [Nat.zero_add] at same
      exact ⟨excess, same.trans (Nat.zero_add _)⟩
    | failed left reports =>
      cases parsed
      exact counted
    | starved => cases parsed

/-- A declaration that is kept has at most one report exactly if at most one item is beyond the
limit in it, and one that is given up exactly if no such item was reported. -/
theorem Accounted.length_le_one_iff {outline : Option Stmt} {own : List Report}
    (accounted : Accounted outline own) :
    own.length ≤ 1 ↔ outline.elim (∀ report ∈ own, report.isExcess = false) fun statement =>
      statement.excess ≤ 1 := by
  cases outline with
  | some statement => rw [accounted.2, Option.elim_some]
  | none =>
    obtain ⟨excess, last, rfl, allExcess, other⟩ := accounted
    rw [Option.elim_none, List.length_append, List.length_singleton]
    constructor
    · intro few
      have noExcess : excess = [] := List.eq_nil_of_length_eq_zero (by omega)
      rw [noExcess]
      exact List.forall_mem_singleton.mpr other
    · intro others
      cases excess with
      | nil => exact Nat.le_refl 1
      | cons first later =>
        have isExcess := allExcess first List.mem_cons_self
        rw [others first List.mem_cons_self] at isExcess
        cases isExcess

/-- A declaration reports, beside what the declarations nested in it report, each item beyond the
limit of a list and the error that it is given up for. So it has at most one report of its own
exactly if at most one item is beyond the limit in it, outside its blocks, or if it is given up
before there is one. -/
theorem own_reports_of_declaration {bound : Nat} {tokens : List Token}
    (enough : tokens.length < bound) :
    ∃ kept outline rest reports own,
      declaration bound tokens = .done kept rest reports ∧
      aloneDeclaration bound tokens = .done outline rest own ∧
      Option.Rel Stmt.Outlines kept outline ∧
      Around (ReportedIn tokens.tail) own reports ∧
      Accounted outline own ∧
      (own.length ≤ 1 ↔ outline.elim (∀ report ∈ own, report.isExcess = false)
        fun statement => statement.excess ≤ 1) := by
  have outcome := overlooks_declaration bound tokens
  generalize parsed : declaration bound tokens = parse,
    parsedAlone : aloneDeclaration bound tokens = parseAlone at outcome
  cases outcome with
  | done same _ around =>
    have accounted := accounted_aloneDeclaration parsedAlone
    exact ⟨_, _, _, _, _, rfl, rfl, same, around, accounted, accounted.length_le_one_iff⟩
  | failed _ _ => exact absurd parsed (declaration_ne_failed bound tokens _ _)
  | starved =>
    have proper := proper_declaration bound tokens
    rw [parsed] at proper
    exact absurd enough (Nat.not_lt.mpr proper)

/-- A block without its closing brace, and a print statement without a value in it. Both are
reported, and one of the two reports is the block's own. -/
theorem own_reports_of_declaration_unclosed :
    let semicolon : Token := ⟨.semicolon, ";", 1⟩
    let tokens : List Token := [⟨.leftBrace, "\x7b", 1⟩, ⟨.print, "print", 1⟩, semicolon]
    let unclosed : Report := ⟨none, .braceAfterBlock⟩
    tokens.length < 4 ∧
      declaration 4 tokens = .done none [] [⟨some semicolon, .expression⟩, unclosed] ∧
      aloneDeclaration 4 tokens = .done none [] [unclosed] ∧
      Around (ReportedIn tokens.tail) [unclosed] [⟨some semicolon, .expression⟩, unclosed] ∧
      Accounted none [unclosed] := by
  intro semicolon tokens unclosed
  have enough : tokens.length < 4 := by decide
  obtain ⟨kept, outline, rest, reports, own, parsed, parsedAlone, -, around, accounted, -⟩ :=
    own_reports_of_declaration enough
  have whole : declaration 4 tokens = .done none [] [⟨some semicolon, .expression⟩, unclosed] := rfl
  have alone : aloneDeclaration 4 tokens = .done none [] [unclosed] := rfl
  cases parsed.symm.trans whole
  cases parsedAlone.symm.trans alone
  exact ⟨enough, whole, alone, around, accounted⟩

/-- A call with two arguments beyond the limit is one declaration, has no other declaration in it
and is kept, and still it has two reports. -/
theorem excess_arguments_reported_each :
    let one : Token := ⟨.number, "1", 1⟩
    let tokens : List Token :=
      [⟨.identifier, "f", 1⟩, ⟨.leftParen, "(", 1⟩, one] ++
        (List.replicate 256 [⟨.comma, ",", 1⟩, one]).flatten ++
        [⟨.rightParen, ")", 1⟩, ⟨.semicolon, ";", 1⟩]
    let program := Program.ofStream ⟨tokens, ⟨.eof, "", 1⟩⟩
    (aloneDeclaration (tokens.length + 1) tokens).reports =
        [⟨some one, .tooManyArguments⟩, ⟨some one, .tooManyArguments⟩] ∧
      program.statements.length = 1 ∧
      program.diagnostics = [.atToken one .tooManyArguments, .atToken one .tooManyArguments] := by
  decide +kernel

end Parser

end Lox
