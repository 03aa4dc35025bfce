/-
This file proves that a session can be split between any two statements. Two
sources one after the other do what one source does in which the second follows
the first on a new line; only the lines of the second are other ones.

The functions of the first source keep their lines, so lines of both sources meet
in one store. To tell them apart all lines are marked: those that were there
before are even, those of the statements to be run are odd. What the statements
do with marked lines holds what they do with all other lines, and the mark on
the line of an error says where the error is located.
-/

import Lox.Proofs.Course.Moments
import Lox.Proofs.Lines.Joining
import Lox.Proofs.Lines.Tracing

namespace Lox

/-! ### Marked lines -/

/-- Where the token of an error stands: in the statements that are run, or in a function that was
there before. -/
inductive Origin where
  | statements
  | functions

/-- The lines of the origin, given those of the statements and those of the functions. -/
def Origin.lines (origin : Origin) (own earlier : Nat → Nat) : Nat → Nat :=
  match origin with
  | .statements => own
  | .functions => earlier

/-- The line behind a mark: odd lines are those of statements. -/
def unmark (own earlier : Nat → Nat) (marked : Nat) : Nat :=
  if marked % 2 = 0 then earlier (marked / 2) else own (marked / 2)

theorem unmark_even (own earlier : Nat → Nat) :
    unmark own earlier ∘ (fun line => 2 * line) = earlier := by
  funext line
  have half : 2 * line / 2 = line := by omega
  rw [Function.comp_apply, unmark, if_pos (Nat.mul_mod_right 2 line), half]

theorem unmark_odd (own earlier : Nat → Nat) :
    unmark own earlier ∘ (fun line => 2 * line + 1) = own := by
  funext line
  have half : (2 * line + 1) / 2 = line := by omega
  rw [Function.comp_apply, unmark, if_neg (by omega), half]

/-- The mark on a line says whose line it is. -/
theorem exists_unmark_eq (marked : Nat) :
    ∃ origin : Origin, ∀ own earlier,
      unmark own earlier marked = origin.lines own earlier (unmark id id marked) := by
  simp only [unmark]
  by_cases even : marked % 2 = 0
  · refine ⟨.functions, fun _ _ => ?_⟩
    rw [if_pos even, if_pos even]
    rfl
  · refine ⟨.statements, fun _ _ => ?_⟩
    rw [if_neg even, if_neg even]
    rfl

/-- There are a machine, actions and an exit with marked lines that stand for what the statements do
with any lines of their own, on machines with any lines in their functions. -/
theorem Course.exists_marked (fuel : Nat) (scope : ScopeId) (statements : List Stmt)
    (machine : Machine) :
    ∃ (marked : Machine) (actions : List Action) (exit : Exit Unit), ∀ own earlier machine',
      machine.Renumbered earlier machine' →
        marked.Renumbered (unmark own earlier) machine' ∧
          inOrder (execute fuel scope) (statements.map (Stmt.renumber own)) machine' =
            (actions.map (Action.renumber (unmark own earlier)),
              exit.renumber (unmark own earlier) id) := by
  let even : Nat → Nat := fun line => 2 * line
  let odd : Nat → Nat := fun line => 2 * line + 1
  let marked : Machine := { machine with store := machine.store.renumber even }
  let run := inOrder (execute fuel scope) (statements.map (Stmt.renumber odd)) marked
  refine ⟨marked, run.1, run.2, fun own earlier machine' renumbered => ?_⟩
  have machines : marked.Renumbered (unmark own earlier) machine' := by
    refine ⟨?_, renumbered.inputs⟩
    rw [renumbered.store, Store.renumber_renumber, unmark_even]
  have trees : (statements.map (Stmt.renumber odd)).map (Stmt.renumber (unmark own earlier)) =
      statements.map (Stmt.renumber own) := by
    rw [List.map_map]
    refine List.map_congr_left fun statement _ => ?_
    rw [Function.comp_apply, Stmt.renumber_renumber, unmark_odd]
  rw [← trees]
  exact ⟨machines, renumbered_statements (unmark own earlier) fuel scope _ machines⟩

/-! ### Errors and where they are located -/

/-- The machine with other lines in its functions. -/
def Machine.renumber (lines : Nat → Nat) (machine : Machine) : Machine :=
  { machine with store := machine.store.renumber lines }

/-- Run in the global scope of the machine the statements fail, with an error of the given origin:
whatever lines the tokens of the statements and those of the functions on the machine have, they
fail in the same way, and the line of the error is the one that its origin gives it. -/
def Session.FailsIn (fuel : Nat) (statements : List Stmt) (machine : Machine)
    (error : RuntimeError) (origin : Origin) : Prop :=
  ∀ own earlier : Nat → Nat,
    (Run.untilReturn (execute fuel globalScope) (statements.map (Stmt.renumber own))
      (machine.renumber earlier)).1 = .error (error.renumber (origin.lines own earlier))

theorem Outcome.eq_error_of_exit {outcome : Outcome Completion} {error : RuntimeError}
    (ends : outcome.exit Completion.exit = .error error) : outcome = .error error := by
  cases outcome with
  | value completion => cases completion <;> exact nomatch ends
  | error _ =>
    cases ends
    rfl
  | outOfFuel => exact nomatch ends

/-! ### Reports -/

namespace Exit

/-- How the source ends whose statements end in this way. -/
def ending : Exit Unit → Ending
  | .value _ | .returned _ => .completed
  | .error reason => .failed reason
  | .outOfFuel => .unfinished

/-- The report on the end of the statements of a source. -/
def report : Exit Unit → List Action
  | .error reason => [.record (.failed reason), .print reason.text]
  | _ => []

end Exit

theorem Course.interpret_eq (fuel : Nat) (statements : List Stmt) (machine : Machine) :
    interpret fuel statements machine =
      let run := inOrder (execute fuel globalScope) statements machine
      (run.1 ++ run.2.report, run.2.ending) := by
  rw [interpret]
  rcases inOrder (execute fuel globalScope) statements machine with ⟨actions, exit⟩
  cases exit with
  | error error => rfl
  | value _ | returned _ | outOfFuel => exact congrArg (·, _) (List.append_nil actions).symm

namespace Machine

/-- Reports change neither scopes nor inputs. -/
theorem performAll_report (machine : Machine) (exit : Exit Unit) :
    (machine.performAll exit.report).store = machine.store ∧
      (machine.performAll exit.report).inputs = machine.inputs := by
  cases exit with
  | error error =>
    simp only [Exit.report, performAll_cons, performAll_nil, perform_record, perform_print, print]
    exact ⟨machine.record_store _, machine.record_inputs _⟩
  | value _ | returned _ | outOfFuel => exact ⟨rfl, rfl⟩

theorem Discreet.output_report {machine : Machine} (discreet : machine.Discreet)
    (error : RuntimeError) :
    (machine.performAll (Exit.report (.error error))).output = machine.output ++ error.text := by
  have printed : String.join ((Exit.report (.error error)).map Action.printed) = error.text := by
    simp [Exit.report, Action.printed]
  rw [(discreet.performAll _).1, printed]

end Machine

theorem Action.printed_renumber (lines : Nat → Nat) (action : Action) :
    (action.renumber lines).printed = action.printed := by
  cases action <;> rfl

/-! ### Statements with other lines -/

/-- The second source ends as the first does, with the same inputs read, the same text printed and
the same scopes up to lines. If it fails then at the line that the origin of the error gives it. -/
structure Session.SameButLines (lines : Nat → Nat) (fails : RuntimeError → Origin → Prop)
    (first second : Ending × Machine) : Prop where
  inputs : second.2.inputs = first.2.inputs
  scopes : second.2.store.renumber (fun _ => 0) = first.2.store.renumber (fun _ => 0)
  failed : ∀ error, first.1 = .failed error → ∃ origin printed, fails error origin ∧
    first.2.output = printed ++ error.text ∧
    second.1 = .failed (error.renumber (origin.lines lines id)) ∧
    second.2.output = printed ++ (error.renumber (origin.lines lines id)).text
  ended : (∀ error, first.1 ≠ .failed error) →
    second.1 = first.1 ∧ second.2.output = first.2.output

theorem Session.interpret_renumber (fuel : Nat) (statements : List Stmt) {machine : Machine}
    (discreet : machine.Discreet) (lines : Nat → Nat) :
    SameButLines lines (FailsIn fuel statements machine) (interpret fuel statements machine)
      (interpret fuel (statements.map (Stmt.renumber lines)) machine) := by
  obtain ⟨marked, actions, exit, stands⟩ :=
    Course.exists_marked fuel globalScope statements machine
  have same : machine.Renumbered id machine := ⟨machine.store.renumber_id.symm, rfl⟩
  -- both runs are the marked one with the marks taken off
  have runs : ∀ own, interpret fuel (statements.map (Stmt.renumber own)) machine =
      ((exit.renumber (unmark own id) id).ending,
        (machine.performAll (actions.map (Action.renumber (unmark own id)))).performAll
          (exit.renumber (unmark own id) id).report) := by
    intro own
    rw [interpret_eq, Course.interpret_eq, (stands own id machine same).2,
      Machine.performAll_append]
  have machines : ∀ own, (marked.performAll actions).Renumbered (unmark own id)
      (machine.performAll (actions.map (Action.renumber (unmark own id)))) :=
    fun own => (stands own id machine same).1.performAll actions
  have outputs : ∀ own,
      (machine.performAll (actions.map (Action.renumber (unmark own id)))).output =
        machine.output ++ String.join (actions.map Action.printed) := by
    intro own
    rw [(discreet.performAll _).1, List.map_map]
    simp only [Function.comp_def, Action.printed_renumber]
  have first := runs id
  rw [Stmt.map_renumber_id] at first
  rw [first, runs lines]
  refine ⟨?inputs, ?scopes, ?failed, ?ended⟩
  case inputs =>
    show (Machine.performAll _ _).inputs = (Machine.performAll _ _).inputs
    rw [(Machine.performAll_report _ _).2, (Machine.performAll_report _ _).2,
      (machines lines).inputs, (machines id).inputs]
  case scopes =>
    show (Machine.performAll _ _).store.renumber _ = (Machine.performAll _ _).store.renumber _
    rw [(Machine.performAll_report _ _).1, (Machine.performAll_report _ _).1,
      (machines lines).store, (machines id).store, Store.renumber_renumber,
      Store.renumber_renumber]
    rfl
  case failed =>
    intro error fails
    cases exit with
    | error markedError =>
      cases fails
      obtain ⟨origin, line⟩ := exists_unmark_eq markedError.line
      have unmarked : ∀ own earlier, markedError.renumber (unmark own earlier) =
          (markedError.renumber (unmark id id)).renumber (origin.lines own earlier) :=
        fun own earlier => congrArg (RuntimeError.mk markedError.fault) (line own earlier)
      refine ⟨origin, _, fun own earlier => ?_,
        (discreet.performAll (actions.map _)).2.output_report _, ?_, ?_⟩
      · refine Outcome.eq_error_of_exit ?_
        rw [← (Follows.inOrder (Follows.execute fuel globalScope) _ _).1,
          (stands own earlier (machine.renumber earlier) ⟨rfl, rfl⟩).2, ← unmarked]
        rfl
      · rw [← unmarked]
        rfl
      · rw [← unmarked, outputs id, ← outputs lines]
        exact (discreet.performAll (actions.map _)).2.output_report _
    | value _ | returned _ | outOfFuel => exact nomatch fails
  case ended =>
    intro ends
    cases exit with
    | error error => exact absurd rfl (ends _)
    | value _ | returned _ | outOfFuel => exact ⟨rfl, (outputs lines).trans (outputs id).symm⟩

/-! ### Sources -/

/-- Statements behind statements that all end normally. -/
theorem Run.untilReturn_append {α : Type} {run : α → Run Completion} {first second : List α}
    {machine reached : Machine} (ends : untilReturn run first machine = (.value .normal, reached)) :
    untilReturn run (first ++ second) machine = untilReturn run second reached := by
  induction first generalizing machine with
  | nil =>
    cases ends
    rfl
  | cons item items inductionHypothesis =>
    rw [List.cons_append]
    rcases part : run item machine with ⟨outcome, between⟩
    cases outcome with
    | value completion =>
      rw [untilReturn, bind_of_value part] at ends
      rw [untilReturn, bind_of_value part]
      cases completion with
      | normal => exact inductionHypothesis ends
      | returned value => exact nomatch ends
    | error error =>
      rw [untilReturn, bind_of_error part] at ends
      exact nomatch ends
    | outOfFuel =>
      rw [untilReturn, bind_of_outOfFuel part] at ends
      exact nomatch ends

theorem Machine.debugLevel_performAll (machine : Machine) (actions : List Action) :
    (machine.performAll actions).debugLevel = machine.debugLevel := by
  induction actions generalizing machine with
  | nil => rfl
  | cons action actions inductionHypothesis =>
    rw [performAll_cons, inductionHypothesis]
    cases action with
    | record event =>
      rw [perform_record, record]
      split
      · split <;> rfl
      · rfl
    | _ => rfl

namespace Session

/-- The statements of a source. -/
def statementsOf (source : String) : List Stmt :=
  (Program.ofStream (Lexer.scan source).stream).statements

/-- The source has no static error. -/
structure Accepted (source : String) : Prop where
  scans : (Lexer.scan source).clean = true
  parses : (Program.ofStream (Lexer.scan source).stream).clean = true

/-- At debug level 0 there are no reports on a source without static errors. -/
theorem Accepted.prepare_eq {source : String} (accepted : Accepted source) {machine : Machine}
    (silent : machine.debugLevel = 0) : prepare source machine = machine := by
  have nothing : machine.print (Diagnostic.texts []) = machine := by
    show { machine with output := machine.output ++ "" } = machine
    rw [String.append_empty]
  have scans := List.isEmpty_iff.mp accepted.scans
  have parses := List.isEmpty_iff.mp accepted.parses
  simp only [prepare, scans, parses, nothing, Machine.record_of_debugLevel_eq_zero _ _ silent]

theorem Accepted.runSource_eq {source : String} (accepted : Accepted source) {machine : Machine}
    (silent : machine.debugLevel = 0) (fuel : Nat) :
    runSource fuel source machine = interpret fuel (statementsOf source) machine := by
  rw [runSource_of_clean fuel machine accepted.scans accepted.parses, accepted.prepare_eq silent]
  rfl

end Session

/-- A session may be split between any two statements. When the statements of the first of two
sources without static errors end without a `return`, then the two sources one after the other do
what one source does that has the second on a new line behind the first. It has all tokens of the
first source and then those of the second, which stand as many lines further down as the first has.
The text printed, the inputs read and the scopes are the same, functions compared up to their lines.
If one fails so does the other: with the line that many further down if the error is located in the
statements of the second source, and on the same line if it is located in a function from before. -/
theorem session_splits (fuel : Nat) {first second : String} {machine reached : Machine}
    (silent : machine.debugLevel = 0) (firstAccepted : Session.Accepted first)
    (secondAccepted : Session.Accepted second)
    (completes : Run.untilReturn (execute fuel globalScope) (Session.statementsOf first) machine =
      (.value .normal, reached)) :
    let whole := first ++ "\n" ++ second
    let shift := fun line => line + (first.toList.count '\n' + 1)
    Session.Accepted whole ∧
      (Lexer.scan whole).stream.tokens =
        (Lexer.scan first).stream.tokens ++
          (Lexer.scan second).stream.tokens.map (Token.renumber shift) ∧
      Session.statementsOf whole =
        Session.statementsOf first ++ (Session.statementsOf second).map (Stmt.renumber shift) ∧
      Session.runSource fuel first machine = (.completed, reached) ∧
      Session.SameButLines shift (Session.FailsIn fuel (Session.statementsOf second) reached)
        (Session.runSource fuel second (Session.runSource fuel first machine).2)
        (Session.runSource fuel whole machine) := by
  intro whole shift
  have tokens := Lexer.tokens_scan_append first second
  obtain ⟨parses, statements⟩ := Program.clean_append shift tokens firstAccepted.parses
    secondAccepted.parses
  change Session.statementsOf whole = Session.statementsOf first ++ _ at statements
  have accepted : Session.Accepted whole :=
    ⟨(Lexer.clean_scan_append first second).mpr ⟨firstAccepted.scans, secondAccepted.scans⟩, parses⟩
  have runsFirst : Session.runSource fuel first machine = (.completed, reached) := by
    rw [firstAccepted.runSource_eq silent, Session.interpret, completes]
  have stillSilent : reached.debugLevel = 0 := by
    have reaches := congrArg Prod.snd (Session.runSource_eq fuel first machine)
    rw [runsFirst] at reaches
    rw [show reached = _ from reaches, Machine.debugLevel_performAll, silent]
  have runsWhole : Session.runSource fuel whole machine =
      Session.interpret fuel ((Session.statementsOf second).map (Stmt.renumber shift)) reached := by
    rw [accepted.runSource_eq silent, statements, Session.interpret,
      Run.untilReturn_append completes]
    rfl
  refine ⟨accepted, tokens, statements, runsFirst, ?_⟩
  rw [runsFirst, runsWhole, secondAccepted.runSource_eq stillSilent]
  exact Session.interpret_renumber fuel _ (.inr stillSilent) shift

theorem scan_one : Lexer.scan "1;" =
    ⟨⟨[⟨.number, "1", 1⟩, ⟨.semicolon, ";", 1⟩], ⟨.eof, "", 1⟩⟩, []⟩ := by
  decide +kernel

theorem scan_nilCall : Lexer.scan "nil();" =
    ⟨⟨[⟨.nil, "nil", 1⟩, ⟨.leftParen, "(", 1⟩, ⟨.rightParen, ")", 1⟩, ⟨.semicolon, ";", 1⟩],
      ⟨.eof, "", 1⟩⟩, []⟩ := by
  decide +kernel

/-- A call in the second of two sources fails on line 1 there, and on line 2 of both together. -/
theorem session_splits_failing :
    let machine := Machine.start (.start "" fun _ => 0) 0
    (Session.runSource 5 "nil();" (Session.runSource 5 "1;" machine).2).1 =
        .failed ⟨.notCallable, 1⟩ ∧
      (Session.runSource 5 ("1;" ++ "\n" ++ "nil();") machine).1 = .failed ⟨.notCallable, 2⟩ := by
  intro machine
  have firstAccepted : Session.Accepted "1;" := by
    constructor <;> rw [scan_one] <;> rfl
  have secondAccepted : Session.Accepted "nil();" := by
    constructor <;> rw [scan_nilCall] <;> rfl
  have completes : Run.untilReturn (execute 5 globalScope) (Session.statementsOf "1;") machine =
      (.value .normal, machine) := by
    rw [Session.statementsOf, scan_one]
    rfl
  obtain ⟨_, _, _, runsFirst, same⟩ :=
    session_splits 5 rfl firstAccepted secondAccepted completes
  have fails : (Session.runSource 5 "nil();" (Session.runSource 5 "1;" machine).2).1 =
      .failed ⟨.notCallable, 1⟩ := by
    rw [runsFirst]
    simp only [Session.runSource, scan_nilCall]
    rfl
  obtain ⟨origin, printed, located, _, failsLater, _⟩ := same.failed _ fails
  refine ⟨fails, failsLater.trans ?_⟩
  cases origin with
  | statements => rfl
  | functions =>
    -- with other lines of its own the call fails on another line
    have moved := located Nat.succ id
    rw [Session.statementsOf, scan_nilCall] at moved
    cases moved

end Lox
