/-
This file proves that static errors are reported exactly and stop everything. A
source has none if its lines are tiled by lexemes to their ends and its tokens
are a program of the grammar. A source that has some prints them and nothing
else, and leaves the machine as it was; any other source runs.
-/

import Lox.CommandLine
import Lox.Proofs.Fuel
import Lox.Proofs.Lines.Splitting
import Lox.Proofs.Parsing.Bounds

namespace Lox

/-! ### Where there are no errors -/

namespace Lexer

/-- A text has no lexical errors if all its lines are tiled to where nothing more counts. -/
theorem diagnostics_scan_eq_nil_iff (source : String) :
    (scan source).diagnostics = [] ↔
      ∀ index line, (Text.splitLines source)[index]? = some line →
        ∃ tokens stop, Tiles (index + 1) line.toList tokens stop none := by
  have clean_line (number : Nat) (line : String) : lineReports number line = [] ↔
      (scanLine number line.toList).error? = none := by
    rw [lineReports]
    cases (scanLine number line.toList).error? <;> simp
  rw [scan, diagnostics_scanLines]
  constructor
  · intro none index line found
    obtain ⟨stop, tiles⟩ := tiles_scanLine (index + 1) line.toList
    have reports : (numbered lineReports 1 (Text.splitLines source)).filter _ = _ :=
      filter_numbered line_of_mem_lineReports found
    rw [none, Nat.add_comm 1 index] at reports
    rw [(clean_line _ _).mp reports.symm] at tiles
    exact ⟨_, stop, tiles⟩
  · intro tiled
    refine List.eq_nil_iff_forall_not_mem.mpr fun diagnostic member => ?_
    obtain ⟨index, line, found, inside⟩ := exists_of_mem_numbered member
    obtain ⟨tokens, stop, tiles⟩ := tiled index line found
    obtain ⟨place, scanned⟩ := tiles_scanLine (index + 1) line.toList
    rw [Nat.add_comm 1 index, (clean_line _ _).mpr (scanned.unique tiles).2.2] at inside
    exact absurd inside List.not_mem_nil

/-- The tokens of every source can be parsed. -/
theorem parseable_scan (source : String) : (scan source).stream.Parseable := by
  have scanned : ∀ token ∈ (scan source).stream.tokens, ∃ number line,
      token ∈ lineTokens number line := by
    intro token member
    rw [scan, tokens_scanLines] at member
    obtain ⟨index, line, -, inside⟩ := exists_of_mem_numbered member
    exact ⟨_, line, inside⟩
  refine ⟨rfl, fun token member => ?_, fun token member isNumber => ?_⟩
  · obtain ⟨number, line, inside⟩ := scanned token member
    obtain ⟨stop, tiles⟩ := tiles_scanLine number line.toList
    exact (tiles.lexeme_of_mem inside).ne_eof
  · obtain ⟨number, line, inside⟩ := scanned token member
    exact ⟨line.toList, number, token, inside, isNumber, rfl⟩

end Lexer

/-- A token stream has no syntax errors if the grammar derives it. -/
theorem Program.diagnostics_eq_nil_iff (stream : TokenStream) :
    (ofStream stream).diagnostics = [] ↔
      ∃ statements, Grammar.Program stream.tokens statements := by
  rw [← List.isEmpty_iff]
  constructor
  · intro clean
    obtain ⟨rest, takes⟩ := (clean_ofStream_iff stream _).mp ⟨clean, rfl⟩
    exact ⟨_, Parser.program_of_takes takes⟩
  · rintro ⟨statements, derives⟩
    exact ((clean_ofStream_iff stream statements).mpr
      ⟨[], Parser.takes_program derives (Nat.lt_succ_self _)⟩).1

namespace Session

/-- What is wrong with a source: its lexical errors, or if there are none its syntax errors. -/
def staticErrors (source : String) : List Diagnostic :=
  let scan := Lexer.scan source
  if scan.diagnostics = [] then (Program.ofStream scan.stream).diagnostics else scan.diagnostics

theorem staticErrors_eq_nil_iff (source : String) : staticErrors source = [] ↔ Accepted source := by
  rw [staticErrors]
  split
  · next scans =>
    exact ⟨fun parses => ⟨List.isEmpty_iff.mpr scans, List.isEmpty_iff.mpr parses⟩,
      fun accepted => List.isEmpty_iff.mp accepted.parses⟩
  · next scans =>
    exact ⟨fun none => absurd none scans,
      fun accepted => absurd (List.isEmpty_iff.mp accepted.scans) scans⟩

/-! ### Sources with errors -/

/-- A source with static errors prints them, and does nothing else. -/
theorem runSource_of_staticErrors {source : String} (errors : staticErrors source ≠ [])
    {machine : Machine} (silent : machine.debugLevel = 0) (fuel : Nat) :
    runSource fuel source machine =
      (.rejected, machine.print (Diagnostic.texts (staticErrors source))) := by
  have quiet : ∀ text event, (machine.print text).record event = machine.print text :=
    fun text event => Machine.record_of_debugLevel_eq_zero _ event silent
  have nothing : machine.print (Diagnostic.texts []) = machine := by
    show { machine with output := machine.output ++ "" } = machine
    rw [String.append_empty]
  rw [staticErrors] at errors ⊢
  by_cases scans : (Lexer.scan source).diagnostics = []
  · rw [if_pos scans] at errors ⊢
    have clean : (Lexer.scan source).clean = true := List.isEmpty_iff.mpr scans
    have unclean : ¬ (Program.ofStream (Lexer.scan source).stream).clean = true :=
      fun clean => errors (List.isEmpty_iff.mp clean)
    simp only [runSource, runScanned, if_pos clean, if_neg unclean, scans, nothing,
      Machine.record_of_debugLevel_eq_zero machine _ silent, quiet]
  · rw [if_neg scans] at errors ⊢
    have unclean : ¬ (Lexer.scan source).clean = true :=
      fun clean => scans (List.isEmpty_iff.mp clean)
    simp only [runSource, if_neg unclean, quiet]

/-- Only sources without static errors come to a statement. -/
theorem Visits.accepted {fuel : Nat} {sources : List String} {machine : Machine} {moment : Moment}
    (visits : Visits fuel sources machine moment) : ∃ source ∈ sources, Accepted source := by
  induction visits with
  | statement scans parses _ _ => exact ⟨_, List.mem_cons_self, scans, parses⟩
  | later _ inductionHypothesis =>
    obtain ⟨source, member, accepted⟩ := inductionHypothesis
    exact ⟨source, List.mem_cons_of_mem _ member, accepted⟩
  | inner _ _ inductionHypothesis => exact inductionHypothesis

/-! ### Sources without errors -/

/-- Statements end, fail after what they have printed, or have no fuel left. -/
theorem interpret_cases (fuel : Nat) (statements : List Stmt) {machine : Machine}
    (silent : machine.debugLevel = 0) :
    let run := interpret fuel statements machine
    run.1 = .completed ∨
      (∃ error printed, run.1 = .failed error ∧
        run.2.output = machine.output ++ printed ++ error.message ++ "\n[line " ++
          decimalText error.line ++ "] ") ∨
      run.1 = .unfinished := by
  intro run
  have discreet : machine.Discreet := .inr silent
  have performs : run = _ := interpret_eq fuel statements machine
  rw [Course.interpret_eq] at performs
  rw [performs]
  rcases Course.inOrder (Course.execute fuel globalScope) statements machine with ⟨actions, exit⟩
  cases exit with
  | value _ | returned _ => exact .inl rfl
  | outOfFuel => exact .inr (.inr rfl)
  | error error =>
    obtain ⟨output, stillDiscreet⟩ := discreet.performAll actions
    refine .inr (.inl ⟨error, String.join (actions.map Action.printed), rfl, ?_⟩)
    dsimp only
    rw [Machine.performAll_append, stillDiscreet.output_report, output, RuntimeError.text]
    simp only [String.append_assoc]

/-- A source that has enough fuel does the same with more. -/
theorem runSource_of_le {fuel more : Nat} (enough : fuel ≤ more) {source : String}
    {machine : Machine} (finishes : (runSource fuel source machine).1 ≠ .unfinished) :
    runSource more source machine = runSource fuel source machine := by
  have interprets : ∀ statements machine, (interpret fuel statements machine).1 ≠ .unfinished →
      interpret more statements machine = interpret fuel statements machine := by
    intro statements machine finishes
    have extends_ := Run.Extends.untilReturn (execute_extends enough globalScope) statements
    rw [interpret] at finishes
    rw [interpret, interpret, extends_ fun starves => ?_]
    generalize Run.untilReturn (execute fuel globalScope) statements machine = run at *
    obtain ⟨outcome, reached⟩ := run
    cases starves
    exact finishes rfl
  simp only [runSource, runScanned] at finishes ⊢
  split
  · next scans =>
    rw [if_pos scans] at finishes
    split
    · next parses =>
      rw [if_pos parses] at finishes
      exact interprets _ _ finishes
    · rfl
  · rfl

end Session

/-! ### Scripts -/

/-- A script that is named and can be read is run. -/
theorem CommandLine.perform_script {invocation : Invocation} {script text : String}
    {read : String → Option String} (named : invocation.script = some script)
    (notEmpty : script ≠ "") (readable : read (normalizePath script) = some text) (fuel : Nat)
    (input : String) (clock : Nat → Int) :
    perform fuel (.run invocation) read input clock =
      runScript fuel invocation
        (.start (String.ofList (Text.normalizeNewlines input.toList)) clock) text := by
  simp only [perform, named, readable]

/-- Static errors are reported exactly and stop everything. A source has none if its lines are tiled
by lexemes and its tokens are a program of the grammar; the flag of the parser is set exactly if it
has printed a diagnostic. At debug level 0 a source is rejected exactly if it has static errors.
Then they are all that is printed, the machine is left as it was, and no statement comes to run. Any
other source has nothing printed about it and its statements run: to their end or, after what they
have printed, to the printed message and line of a runtime error, unless their fuel does not last;
more fuel changes nothing once it lasts. Scripts exit with 65, 0 or 70 accordingly. -/
theorem static_errors_stop (fuel : Nat) (source : String) (machine : Machine)
    (silent : machine.debugLevel = 0) :
    let scan := Lexer.scan source
    let program := Program.ofStream scan.stream
    let parse := (Cursor.parse scan.stream.toList).2
    let errors := Session.staticErrors source
    let run := Session.runSource fuel source machine
    (scan.diagnostics = [] ↔ ∀ index line, (Text.splitLines source)[index]? = some line →
      ∃ tokens stop, Lexer.Tiles (index + 1) line.toList tokens stop none) ∧
    (program.diagnostics = [] ↔ ∃ statements, Grammar.Program scan.stream.tokens statements) ∧
    (parse.printed = program.diagnostics ∧ (parse.hadError = true ↔ parse.printed ≠ [])) ∧
    (run.1 = .rejected ↔ errors ≠ []) ∧
    (errors ≠ [] → run.2 = machine.print (Diagnostic.texts errors) ∧
      ∀ moment, ¬ Session.Visits fuel [source] machine moment) ∧
    (errors = [] → run = Session.interpret fuel program.statements machine ∧
      (run.1 = .completed ∨
        (∃ error printed, run.1 = .failed error ∧
          run.2.output = machine.output ++ printed ++ error.message ++ "\n[line " ++
            decimalText error.line ++ "] ") ∨
        run.1 = .unfinished) ∧
      (run.1 ≠ .unfinished → ∀ more, fuel ≤ more →
        Session.runSource more source machine = run)) ∧
    ∀ (invocation : CommandLine.Invocation) (script text input : String)
      (read : String → Option String) (clock : Nat → Int),
      invocation.script = some script → script ≠ "" → invocation.verbosity = 0 →
      read (CommandLine.normalizePath script) = some text →
      source = String.ofList (Text.normalizeNewlines text.toList) →
      let inputs := Inputs.start (String.ofList (Text.normalizeNewlines input.toList)) clock
      let ran := Session.runSource fuel source (.start inputs 0)
      let result := CommandLine.perform fuel (.run invocation) read input clock
      (errors ≠ [] → result.exit = 65 ∧ result.out = Diagnostic.texts errors) ∧
      (ran.1 = .completed → result.exit = 0 ∧ result.out = ran.2.output) ∧
      (∀ error, ran.1 = .failed error → result.exit = 70 ∧ result.out = ran.2.output) := by
  intro scan program parse errors run
  have accepts := Session.staticErrors_eq_nil_iff source
  have rejects : errors ≠ [] → run = (.rejected, machine.print (Diagnostic.texts errors)) :=
    fun wrong => Session.runSource_of_staticErrors wrong silent fuel
  have runs : errors = [] → run = Session.interpret fuel program.statements machine :=
    fun none => (accepts.mp none).runSource_eq silent fuel
  refine ⟨Lexer.diagnostics_scan_eq_nil_iff source, Program.diagnostics_eq_nil_iff scan.stream,
    Cursor.printed_parse (Lexer.parseable_scan source), ?rejected, ?stopped, ?ran, ?scripts⟩
  case rejected =>
    refine ⟨fun rejected none => ?_, fun wrong => congrArg Prod.fst (rejects wrong)⟩
    have ends := Session.interpret_cases fuel program.statements silent
    dsimp only at ends
    rw [← runs none, rejected] at ends
    rcases ends with completed | ⟨_, _, failed, _⟩ | unfinished
    · cases completed
    · cases failed
    · cases unfinished
  case stopped =>
    refine fun wrong => ⟨congrArg Prod.snd (rejects wrong), fun moment visits => ?_⟩
    obtain ⟨other, member, accepted⟩ := visits.accepted
    rw [List.mem_singleton.mp member] at accepted
    exact wrong (accepts.mpr accepted)
  case ran =>
    refine fun none => ⟨runs none, ?_, fun finishes more enough =>
      Session.runSource_of_le enough finishes⟩
    rw [runs none]
    exact Session.interpret_cases fuel program.statements silent
  case scripts =>
    intro invocation script text input read clock named notEmpty quiet readable same inputs ran
      result
    have performs : result =
        CommandLine.finish invocation (CommandLine.scriptStatus ran.1) ran.2 := by
      show CommandLine.perform fuel _ read input clock = _
      rw [CommandLine.perform_script named notEmpty readable, CommandLine.runScript, quiet, ← same]
    rw [performs]
    refine ⟨fun wrong => ?_, fun completed => ?_, fun error failed => ?_⟩
    · have rejected : ran = _ := Session.runSource_of_staticErrors wrong rfl fuel
      rw [rejected]
      exact ⟨rfl, String.empty_append⟩
    · rw [completed]
      exact ⟨rfl, rfl⟩
    · rw [failed]
      exact ⟨rfl, rfl⟩

/-- A script without the semicolon behind its only statement. -/
theorem static_errors_stop_noSemicolon :
    let machine := Machine.start (.start "" fun _ => 0) 0
    machine.debugLevel = 0 ∧ (Session.runSource 5 "1" machine).1 = .rejected ∧
      (Session.runSource 5 "1" machine).2.output =
        "[line 1] Error at end: Expect ';' after expression.\n" ∧
      (CommandLine.perform 5 (.run ⟨some "script", 0, "debug.txt"⟩) (fun _ => some "1") ""
        fun _ => 0).exit = 65 := by
  intro machine
  have errors : Session.staticErrors "1" = [.atEnd 1 .semicolonAfterExpression] := by
    decide +kernel
  have wrong : Session.staticErrors "1" ≠ [] := by
    rw [errors]
    exact List.cons_ne_nil _ _
  have normal : "1" = String.ofList (Text.normalizeNewlines "1".toList) := by decide +kernel
  obtain ⟨-, -, -, rejected, stopped, -, scripts⟩ := static_errors_stop 5 "1" machine rfl
  obtain ⟨exits, -⟩ := scripts ⟨some "script", 0, "debug.txt"⟩ "script" "1" "" (fun _ => some "1")
    (fun _ => 0) rfl (by decide) rfl rfl normal
  refine ⟨rfl, rejected.mpr wrong, ?_, (exits wrong).1⟩
  rw [(stopped wrong).1, errors]
  decide +kernel

end Lox
