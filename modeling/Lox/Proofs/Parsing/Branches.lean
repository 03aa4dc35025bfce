/-
This file proves that the parser makes no bare declaration the branch of a
conditional or the body of a loop, with or without errors in the source. So a
statement that is no declaration itself declares nothing in its own scope.
-/

import Lox.Proofs.Parsing.Progress

namespace Lox

variable {α β : Type}

/-! ### Statements and the declarations in them -/

namespace Stmt

/-- The statement is a declaration of a variable, a constant or a function. -/
def isDeclaration : Stmt → Bool
  | .var _ _ _ => true
  | .function _ _ _ => true
  | _ => false

/-- The statement may declare something in the scope it runs in: it is a declaration, or one of the
branches or the loop body in it is. -/
def Declares : Stmt → Prop
  | .var _ _ _ => True
  | .function _ _ _ => True
  | .ifThen _ consequent => consequent.Declares
  | .ifElse _ consequent alternative => consequent.Declares ∨ alternative.Declares
  | .while _ body => body.Declares
  | _ => False

/-- The first statement is the second or a part of it. -/
inductive Occurs : Stmt → Stmt → Prop where
  | self (statement : Stmt) : Occurs statement statement
  | block {inner statement : Stmt} {body : List Stmt} (member : statement ∈ body)
      (occurs : Occurs inner statement) : Occurs inner (.block body)
  | ifThen {inner consequent : Stmt} {condition : Expr} (occurs : Occurs inner consequent) :
      Occurs inner (.ifThen condition consequent)
  | consequent {inner consequent alternative : Stmt} {condition : Expr}
      (occurs : Occurs inner consequent) : Occurs inner (.ifElse condition consequent alternative)
  | alternative {inner consequent alternative : Stmt} {condition : Expr}
      (occurs : Occurs inner alternative) : Occurs inner (.ifElse condition consequent alternative)
  | while {inner body : Stmt} {condition : Expr} (occurs : Occurs inner body) :
      Occurs inner (.while condition body)
  | function {inner statement : Stmt} {name : Token} {parameters : List Token}
      {body : List Stmt} (member : statement ∈ body) (occurs : Occurs inner statement) :
      Occurs inner (.function name parameters body)

/-- No part of the statement declares anything in the scope it runs in, but the declarations. -/
def Tidy (statement : Stmt) : Prop :=
  ∀ inner : Stmt, inner.Occurs statement → inner.isDeclaration = false → ¬ inner.Declares

/-- A tidy statement that declares nothing in its own scope can stand as a branch. -/
def Plain (statement : Stmt) : Prop := statement.Tidy ∧ ¬ statement.Declares

theorem plain_expression (value : Expr) : (expression value).Plain := by
  refine ⟨fun inner occurs _ => ?_, id⟩
  cases occurs
  exact id

theorem plain_print (value : Expr) : (print value).Plain := by
  refine ⟨fun inner occurs _ => ?_, id⟩
  cases occurs
  exact id

theorem plain_return (keyword : Token) (value : Option Expr) :
    (Stmt.return keyword value).Plain := by
  refine ⟨fun inner occurs _ => ?_, id⟩
  cases occurs
  exact id

theorem plain_block {body : List Stmt} (tidy : ∀ statement ∈ body, statement.Tidy) :
    (block body).Plain := by
  refine ⟨fun inner occurs other => ?_, id⟩
  cases occurs with
  | self => exact id
  | block member occurs => exact tidy _ member inner occurs other

theorem plain_pair {first second : Stmt} (tidyFirst : first.Tidy) (tidySecond : second.Tidy) :
    (block [first, second]).Plain := by
  refine plain_block fun statement member => ?_
  rcases List.mem_cons.mp member with rfl | last
  · exact tidyFirst
  · exact List.mem_singleton.mp last ▸ tidySecond

theorem plain_ifThen {consequent : Stmt} (plain : consequent.Plain) (condition : Expr) :
    (ifThen condition consequent).Plain := by
  refine ⟨fun inner occurs other => ?_, plain.2⟩
  cases occurs with
  | self => exact plain.2
  | ifThen occurs => exact plain.1 inner occurs other

theorem plain_ifElse {consequent alternative : Stmt} (plain : consequent.Plain)
    (plainElse : alternative.Plain) (condition : Expr) :
    (ifElse condition consequent alternative).Plain := by
  have neither : ¬ (ifElse condition consequent alternative).Declares :=
    not_or_intro plain.2 plainElse.2
  refine ⟨fun inner occurs other => ?_, neither⟩
  cases occurs with
  | self => exact neither
  | consequent occurs => exact plain.1 inner occurs other
  | alternative occurs => exact plainElse.1 inner occurs other

theorem plain_while {body : Stmt} (plain : body.Plain) (condition : Expr) :
    (Stmt.while condition body).Plain := by
  refine ⟨fun inner occurs other => ?_, plain.2⟩
  cases occurs with
  | self => exact plain.2
  | «while» occurs => exact plain.1 inner occurs other

theorem tidy_var (constant : Bool) (name : Token) (initializer : Option Expr) :
    (var constant name initializer).Tidy := by
  intro inner occurs other
  cases occurs
  exact nomatch other

theorem tidy_function {body : List Stmt} (tidy : ∀ statement ∈ body, statement.Tidy)
    (name : Token) (parameters : List Token) : (function name parameters body).Tidy := by
  intro inner occurs other
  cases occurs with
  | self => exact nomatch other
  | function member occurs => exact tidy _ member inner occurs other

/-- Whatever a `for` statement declares, it declares in a block of its own. -/
theorem plain_forLoop {initializer : Option Stmt} {body : Stmt}
    (tidy : ∀ statement ∈ initializer, statement.Tidy) (plain : body.Plain)
    (condition increment : Option Expr) : (forLoop initializer condition increment body).Plain := by
  have ofStep {step : Stmt} (plainStep : step.Plain) :
      (forLoop initializer condition none step).Plain := by
    have plainLoop := plain_while plainStep (condition.getD (.literal (.boolean true)))
    cases initializer with
    | none => exact plainLoop
    | some initializer => exact plain_pair (tidy initializer rfl) plainLoop.1
  cases increment with
  | none => exact ofStep plain
  | some increment => exact ofStep (plain_pair plain.1 (plain_expression increment).1)

end Stmt

namespace Parser

/-! ### What parsers yield -/

/-- Whatever value the parser comes to, with or without reports, has the property. -/
def Yields (parser : Parser α) (property : α → Prop) : Prop :=
  ∀ ⦃tokens value rest reports⦄, parser tokens = .done value rest reports → property value

variable {property : α → Prop}

theorem yields_pure {value : α} (holds : property value) : Yields (pure value) property := by
  intro tokens answer rest reports parsed
  cases parsed
  exact holds

/-- What the first parser yields is known behind it. -/
theorem Yields.bind {first : Parser β} {next : β → Parser α} {known : β → Prop}
    (firstYields : first.Yields known)
    (yields : ∀ value, known value → (next value).Yields property) :
    Yields (first >>= next) property := by
  intro tokens value rest reports parsed
  obtain ⟨middle, between, _, _, start, finish⟩ := exists_of_bind_eq_done parsed
  exact yields middle (firstYields start) finish

/-- A sequence yields what its last parser does. -/
theorem yields_bind {first : Parser β} {next : β → Parser α}
    (yields : ∀ value, (next value).Yields property) : Yields (first >>= next) property :=
  Yields.bind (fun _ _ _ _ _ => trivial) fun value (_ : True) => yields value

theorem yields_ite {condition : Prop} [Decidable condition] {positive negative : Parser α}
    (positiveYields : positive.Yields property) (negativeYields : negative.Yields property) :
    Yields (if condition then positive else negative) property := by
  split
  · exact positiveYields
  · exact negativeYields

theorem yields_repeatUntil {stop : Parser Bool} {item : Parser (Option α)}
    (yields : item.Yields fun value? => ∀ value ∈ value?, property value) (bound : Nat) :
    (repeatUntil stop item bound).Yields fun values => ∀ value ∈ values, property value := by
  induction bound with
  | zero =>
    intro tokens value rest reports parsed
    exact nomatch parsed
  | succ bound inductionHypothesis =>
    rw [repeatUntil]
    refine yields_bind fun stops => yields_ite ?_ ?_
    · exact yields_pure fun value member => absurd member List.not_mem_nil
    · refine yields.bind fun first firstHolds => ?_
      refine inductionHypothesis.bind fun others othersHold => yields_pure fun value member => ?_
      rcases List.mem_append.mp member with front | behind
      · exact firstHolds value (Option.mem_toList.mp front)
      · exact othersHold value behind

/-! ### What statements the parsers yield -/

theorem yields_expressionStatement (expression : Parser Expr) :
    (expressionStatement expression).Yields Stmt.Plain :=
  yields_bind fun value => yields_bind fun _ => yields_pure (Stmt.plain_expression value)

theorem yields_constDeclaration (expression : Parser Expr) :
    (constDeclaration expression).Yields Stmt.Tidy :=
  yields_bind fun _ => yields_bind fun _ => yields_bind fun _ => yields_bind fun _ =>
    yields_bind fun _ => yields_pure (Stmt.tidy_var _ _ _)

theorem yields_variableDeclaration (expression : Parser Expr) :
    (variableDeclaration expression).Yields Stmt.Tidy := by
  refine yields_bind fun name => yields_bind fun accepted => ?_
  cases accepted with
  | none => exact yields_bind fun _ => yields_pure (Stmt.tidy_var _ _ _)
  | some token =>
    exact yields_bind fun _ => yields_bind fun _ => yields_pure (Stmt.tidy_var _ _ _)

theorem yields_forInitializer (expression : Parser Expr) :
    (forInitializer expression).Yields fun initializer =>
      ∀ statement ∈ initializer, statement.Tidy := by
  refine yields_bind fun accepted => ?_
  cases accepted with
  | none =>
    refine (yields_expressionStatement expression).bind fun statement plain => yields_pure ?_
    exact fun other member => Option.some.inj member ▸ plain.1
  | some token =>
    dsimp only
    split
    · refine (yields_constDeclaration expression).bind fun statement tidy => yields_pure ?_
      exact fun other member => Option.some.inj member ▸ tidy
    · refine (yields_variableDeclaration expression).bind fun statement tidy => yields_pure ?_
      exact fun other member => Option.some.inj member ▸ tidy
    · exact yields_pure fun other member => absurd member (Option.not_mem_none other)

section

variable {bound : Nat} {statement : Parser Stmt} {declaration : Parser (Option Stmt)}

theorem yields_blockBody
    (declarationYields : declaration.Yields fun statement? => ∀ s ∈ statement?, s.Tidy) :
    (blockBody bound declaration).Yields fun body => ∀ statement ∈ body, statement.Tidy :=
  (yields_repeatUntil declarationYields bound).bind fun _ tidy =>
    yields_bind fun _ => yields_pure tidy

theorem yields_statementOver (statementYields : statement.Yields Stmt.Plain)
    (declarationYields : declaration.Yields fun statement? => ∀ s ∈ statement?, s.Tidy) :
    (statementOver bound statement declaration).Yields Stmt.Plain := by
  refine yields_bind fun accepted => ?_
  cases accepted with
  | none => exact yields_expressionStatement _
  | some token =>
    dsimp only
    split
    · exact yields_bind fun value => yields_bind fun _ => yields_pure (Stmt.plain_print value)
    · exact (yields_blockBody declarationYields).bind fun body tidy =>
        yields_pure (Stmt.plain_block tidy)
    · refine yields_bind fun _ => yields_bind fun condition => yields_bind fun _ => ?_
      refine statementYields.bind fun consequent plain => yields_bind fun accepted => ?_
      cases accepted with
      | none => exact yields_pure (Stmt.plain_ifThen plain condition)
      | some token =>
        exact statementYields.bind fun alternative plainElse =>
          yields_pure (Stmt.plain_ifElse plain plainElse condition)
    · refine yields_bind fun _ => yields_bind fun condition => yields_bind fun _ => ?_
      exact statementYields.bind fun body plain => yields_pure (Stmt.plain_while plain condition)
    · refine yields_bind fun _ => ?_
      refine (yields_forInitializer _).bind fun initializer tidy => ?_
      refine yields_bind fun condition => yields_bind fun _ => yields_bind fun increment => ?_
      refine yields_bind fun _ => statementYields.bind fun body plain => ?_
      exact yields_pure (Stmt.plain_forLoop tidy plain condition increment)
    · refine yields_bind fun ends => yields_ite ?_ ?_
      · exact yields_bind fun _ => yields_pure (Stmt.plain_return token none)
      · exact yields_bind fun value => yields_bind fun _ =>
          yields_pure (Stmt.plain_return token (some value))

theorem yields_declarationOver (statementYields : statement.Yields Stmt.Plain)
    (declarationYields : declaration.Yields fun statement? => ∀ s ∈ statement?, s.Tidy) :
    (declarationOver bound statement declaration).Yields Stmt.Tidy := by
  refine yields_bind fun accepted => ?_
  cases accepted with
  | none => exact fun _ _ _ _ parsed => (statementYields parsed).1
  | some token =>
    dsimp only
    split
    · exact yields_variableDeclaration _
    · exact yields_constDeclaration _
    · refine yields_bind fun name => yields_bind fun _ => yields_bind fun parameters => ?_
      refine yields_bind fun _ => yields_bind fun _ => ?_
      exact (yields_blockBody declarationYields).bind fun body tidy =>
        yields_pure (Stmt.tidy_function tidy name parameters)

theorem yields_recover {parser : Parser Stmt} (yields : parser.Yields Stmt.Tidy) :
    (recover parser).Yields fun statement? => ∀ s ∈ statement?, s.Tidy := by
  intro tokens value rest reports parsed
  rw [recover] at parsed
  split at parsed
  · next found =>
    cases parsed
    exact fun statement member => Option.some.inj member ▸ yields found
  · cases parsed
    exact fun statement member => absurd member (Option.not_mem_none statement)
  · cases parsed

end

theorem yields_statement_declaration (bound : Nat) :
    (statement bound).Yields Stmt.Plain ∧
      (declaration bound).Yields fun statement? => ∀ s ∈ statement?, s.Tidy := by
  induction bound with
  | zero =>
    refine ⟨fun _ _ _ _ parsed => ?_, fun _ _ _ _ parsed => ?_⟩
    · exact nomatch parsed
    · exact nomatch parsed
  | succ bound inductionHypothesis =>
    have statementYields : (statement (bound + 1)).Yields Stmt.Plain :=
      yields_statementOver inductionHypothesis.1 inductionHypothesis.2
    refine ⟨statementYields, ?_⟩
    rw [declaration_succ]
    exact yields_recover (yields_declarationOver statementYields inductionHypothesis.2)

theorem yields_declarations (bound : Nat) :
    (declarations bound).Yields fun statements => ∀ statement ∈ statements, statement.Tidy :=
  yields_repeatUntil (yields_statement_declaration bound).2 bound

end Parser

/-- All statements of a program are tidy, also beside errors. -/
theorem Program.tidy {stream : TokenStream} {statement : Stmt}
    (member : statement ∈ (ofStream stream).statements) : statement.Tidy := by
  rw [ofStream] at member
  split at member
  · next parsed => exact Parser.yields_declarations _ parsed statement member
  · exact absurd member List.not_mem_nil
  · exact absurd member List.not_mem_nil

end Lox
