/-
This file proves that programs fail in the specified ways only. What any
expression or statement of a session fails with is one of the listed sentences,
found at a token of a source where that fault can be found. Behind that is what
holds whenever something is about to run: its tree has only operators that fit
their places, and no scope that it can come to is missing.

As long as the clock shows no number beyond all finite doubles, the operations
behind the operators always have a result, too.
-/

import Lox.Proofs.Values.Guards

namespace Lox

/-- No scope is missing: what encloses a scope and where its functions were declared is in the
store. -/
structure Store.Whole (store : Store) : Prop where
  enclosing {id parent : ScopeId} {scope : Scope} : store.scope? id = some scope →
    scope.enclosing = some parent → ∃ outer, store.scope? parent = some outer
  closure {id : ScopeId} {scope : Scope} {binding : Binding} {closure : Closure} :
    store.scope? id = some scope → binding ∈ scope.bindings →
      binding.value = .function closure → ∃ outer, store.scope? closure.scope = some outer

theorem Quality.Holds.whole {range : Int → Prop} {wide : ∀ value, Word.InRange value → range value}
    {good : Token → Prop} {spelled : ∀ token, good token → token.WellSpelled} {scope : ScopeId}
    {machine : Machine} (holds : (Quality.sound wide good spelled).Holds scope machine) :
    machine.store.Whole where
  enclosing found enclosed := by
    have older := (holds.sealed.enclosing trivial found enclosed).2
    exact Store.exists_scope?_of_lt (Nat.lt_trans older (Store.lt_size_of_scope? found))
  closure found member same := by
    have sound := (holds.sealed.binds trivial found member).closure _ same
    exact Store.exists_scope?_of_lt sound.older

/-- The error has one of the listed sentences, and is found at a good token where that fault can be
found. -/
def RuntimeError.Specified (good : Token → Prop) (error : RuntimeError) : Prop :=
  Fault.Sentence error.message ∧ error.FoundIn good

theorem RuntimeError.FoundIn.specified {good : Token → Prop} {error : RuntimeError}
    (found : error.FoundIn good) : error.Specified good := by
  obtain ⟨token, _, _, foundAt⟩ := id found
  exact ⟨foundAt.sentence, found⟩

/-! ### Sources that fail -/

/-- If running a list up to the first return fails, then one of the items fails, and those before it
end normally. -/
theorem Run.fails_of_untilReturn {α : Type} {run : α → Run Completion} {items : List α}
    {machine reached : Machine} {error : RuntimeError}
    (fails : untilReturn run items machine = (.error error, reached)) :
    ∃ before item after between, items = before ++ item :: after ∧
      untilReturn run before machine = (.value .normal, between) ∧
      run item between = (.error error, reached) := by
  induction items generalizing machine with
  | nil => exact nomatch fails
  | cons first rest inductionHypothesis =>
    rcases ends : run first machine with ⟨outcome, between⟩
    cases outcome with
    | outOfFuel =>
      rw [untilReturn, bind_of_outOfFuel ends] at fails
      exact nomatch fails
    | error found =>
      rw [untilReturn, bind_of_error ends] at fails
      cases fails
      exact ⟨[], first, rest, machine, rfl, rfl, ends⟩
    | value completion =>
      rw [untilReturn, bind_of_value ends] at fails
      cases completion with
      | returned value => exact nomatch fails
      | normal =>
        obtain ⟨before, item, after, later, rfl, normal, failsAt⟩ := inductionHypothesis fails
        refine ⟨first :: before, item, after, later, rfl, ?_, failsAt⟩
        exact (bind_of_value ends).trans normal

namespace Session

/-- A source that fails has a statement that fails. -/
theorem exists_fails_of_runSource {fuel : Nat} {source : String} {machine : Machine}
    {error : RuntimeError} (fails : (runSource fuel source machine).1 = .failed error)
    (rest : List String) :
    ∃ moment, Visits fuel (source :: rest) machine moment ∧ moment.Fails error := by
  by_cases scans : (Lexer.scan source).clean = true
  · by_cases parses : (Program.ofStream (Lexer.scan source).stream).clean = true
    · rw [runSource_of_clean fuel machine scans parses, interpret] at fails
      rcases ends : Run.untilReturn (execute fuel globalScope)
        (Program.ofStream (Lexer.scan source).stream).statements (prepare source machine)
        with ⟨outcome, reached⟩
      rw [ends] at fails
      cases outcome with
      | value completion => cases fails
      | outOfFuel => cases fails
      | error found =>
        cases fails
        obtain ⟨before, statement, after, between, split, normal, failsAt⟩ :=
          Run.fails_of_untilReturn ends
        exact ⟨_, .statement scans parses split normal, congrArg Prod.fst failsAt⟩
    · simp only [runSource, runScanned, if_pos scans, if_neg parses] at fails
      cases fails
  · simp only [runSource, if_neg scans] at fails
    cases fails

/-- What a later part of a session comes to, the session comes to. -/
theorem Visits.behind {fuel : Nat} {later : List String} {machine : Machine} {moment : Moment}
    (before : List String) (visits : Visits fuel later (runSources fuel before machine) moment) :
    Visits fuel (before ++ later) machine moment := by
  induction before generalizing machine with
  | nil => exact visits
  | cons first rest inductionHypothesis => exact .later (inductionHypothesis visits)

end Session

/-! ### The ways to fail -/

/-- In a session on a new machine, every source, expression and statement that fails does so with a
specified error. Whatever is about to run has a tree with fitting parts and a scope that exists, in
a store without missing scopes, and does not yield a function from a missing scope. If the clock
shows numbers that have finite doubles, then no operation of a binary operator is without a
result. -/
theorem fails_as_specified (fuel : Nat) (sources : List String) (text : String)
    (clock : Nat → Int) (debugLevel : Nat) :
    let start := Machine.start (.start text clock) debugLevel
    let good := Session.HasToken sources
    (∀ before source after error, sources = before ++ source :: after →
      (Session.runSource fuel source (Session.runSources fuel before start)).1 = .failed error →
      error.Specified good) ∧
    (∀ moment, Session.Visits fuel sources start moment →
      (∀ error, moment.Fails error → error.Specified good) ∧
      moment.node.Built (.ofTokens good) ∧
      (∃ scope, moment.machine.store.scope? moment.scope = some scope) ∧
      moment.machine.store.Whole ∧
      ∀ closure, moment.Yields (.function closure) →
        ∃ scope, moment.reached.store.scope? closure.scope = some scope) ∧
    ((∀ tick, Binary64.Covers (clock tick)) →
      ∀ less scope left operator right machine reached first second,
        Session.Visits fuel sources start
          ⟨less + 1, scope, .expression (.binary left operator right), machine⟩ →
        Run.each (evaluate less scope) [left, right] machine =
          (.value [first, second], reached) →
        Operator.binary? operator first second = some (Operator.binary operator first second)) := by
  intro start good
  have built := Session.built_hasToken sources
  have everywhere : ∀ moment, Session.Visits fuel sources start moment →
      moment.Fits (.sound (fun _ _ => trivial : ∀ value, Word.InRange value → True) good
        Session.wellSpelled_of_hasToken) :=
    fun moment visits => visits.fits built
      (Session.sound_start _ sources text (fun _ => trivial) debugLevel)
  have specified : ∀ moment, Session.Visits fuel sources start moment →
      ∀ error, moment.Fails error → error.Specified good :=
    fun moment visits error fails => ((everywhere moment visits).allowed fails).specified
  refine ⟨?sources, ?moments, ?operations⟩
  case sources =>
    intro before source after error split fails
    obtain ⟨moment, visits, failsAt⟩ := Session.exists_fails_of_runSource fails after
    exact specified moment (split ▸ visits.behind before) error failsAt
  case moments =>
    intro moment visits
    have fits := everywhere moment visits
    refine ⟨specified moment visits, fits.built, Store.exists_scope?_of_lt fits.holds.older,
      fits.holds.whole, fun closure yields => ?_⟩
    exact Store.exists_scope?_of_lt ((fits.fine yields).closure closure rfl).older
  case operations =>
    intro covers less scope left operator right machine reached first second visits ends
    have fits := visits.fits built (Session.sound_start
      (fun _ => Binary64.covers_of_inRange) sources text covers debugLevel)
    cases fits.built with
    | binary builtLeft _ builtRight =>
      have builtBoth :=
        List.forall_mem_cons.mpr ⟨builtLeft, List.forall_mem_singleton.mpr builtRight⟩
      obtain ⟨firstFine, rest⟩ :=
        List.forall_mem_cons.mp (Course.follow_each fits.holds builtBoth ends).2
      obtain ⟨secondFine, _⟩ := List.forall_mem_cons.mp rest
      exact Operator.binary?_eq operator firstFine.regular secondFine.regular

theorem scan_division : Lexer.scan "1 % 0;" =
    ⟨⟨[⟨.number, "1", 1⟩, ⟨.percent, "%", 1⟩, ⟨.number, "0", 1⟩, ⟨.semicolon, ";", 1⟩],
      ⟨.eof, "", 1⟩⟩, []⟩ := by
  decide +kernel

/-- A remainder by zero is reported as such, and not left to the operation. -/
theorem fails_as_specified_division :
    let start := Machine.start (.start "" fun _ => 0) 0
    let error : RuntimeError := ⟨.divisionByZero, 1⟩
    let percent : Token := ⟨.percent, "%", 1⟩
    (Session.runSource 5 "1 % 0;" start).1 = .failed error ∧ error.message = "Division by zero" ∧
      error.Specified (Session.HasToken ["1 % 0;"]) ∧
      Operator.binary? percent (.int 1) (.int 0) =
        some (Operator.binary percent (.int 1) (.int 0)) := by
  intro start error percent
  have fails : (Session.runSource 5 "1 % 0;" start).1 = .failed error := by
    simp only [Session.runSource, scan_division]
    rfl
  obtain ⟨specified, _, operations⟩ := fails_as_specified 5 ["1 % 0;"] "" (fun _ => 0) 0
  have covers : ∀ tick : Nat, Binary64.Covers ((fun _ => 0 : Nat → Int) tick) := by
    intro tick
    have inRange : Word.InRange 0 := by decide
    exact Binary64.covers_of_inRange inRange
  let division : Expr := .binary (.literal (.int 1)) percent (.literal (.int 0))
  have parses : Program.ofStream (Lexer.scan "1 % 0;").stream = ⟨[.expression division], []⟩ := by
    rw [scan_division]
    rfl
  have statement : Session.Visits 5 ["1 % 0;"] start
      ⟨5, globalScope, .statement (.expression division), Session.prepare "1 % 0;" start⟩ :=
    @Session.Visits.statement 5 "1 % 0;" [] start _ [] [] _ (by rw [scan_division]; rfl)
      (by rw [parses]; rfl) (by rw [parses]; rfl) rfl
  have operand : Session.Visits 5 ["1 % 0;"] start
      ⟨4, globalScope, .expression division, Session.prepare "1 % 0;" start⟩ :=
    statement.inner (@Moment.Leads.operand 4 globalScope _ _ _ [] [] division [] trivial rfl rfl)
  exact ⟨fails, rfl, specified [] "1 % 0;" [] error rfl fails,
    operations covers 3 globalScope _ percent _ _ _ _ _ operand rfl⟩

end Lox
