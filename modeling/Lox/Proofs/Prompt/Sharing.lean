/-
This file proves that the prompt and the programs it runs share the console
without loss. The lines they read one after the other are the first lines of the
input. The lines that are sources do what they do in a session of their own that
has no lines to read but those that programs took at the prompt.
-/

import Lox.CommandLine
import Lox.Proofs.Prompt.Turns
import Lox.Proofs.Text.Plain

namespace Lox

/-! ### Sessions -/

/-- What source texts do one after the other on one machine, and how they end. -/
def Course.runEach (fuel : Nat) : List String → Machine → List (List Action × Ending)
  | [], _ => []
  | source :: rest, machine =>
    let course := runSource fuel source machine
    course :: runEach fuel rest (machine.performAll course.1)

/-- What a session prints is what its sources print, one after the other. -/
theorem Session.output_runSources {machine : Machine} (discreet : machine.Discreet) (fuel : Nat)
    (sources : List String) :
    (runSources fuel sources machine).output = machine.output ++
      String.join ((Course.runEach fuel sources machine).map fun course =>
        String.join (course.1.map Action.printed)) := by
  induction sources generalizing machine with
  | nil => exact String.append_empty.symm
  | cons source rest inductionHypothesis =>
    obtain ⟨output, discreetBehind⟩ :=
      discreet.performAll (Course.runSource fuel source machine).1
    rw [runSources, runSource_eq, inductionHypothesis discreetBehind, output, Course.runEach,
      List.map_cons, String.join_cons, String.append_assoc]

/-- What the machine has noted, and what decides about the next notes. -/
def Machine.notes (machine : Machine) : Nat × Array TraceEvent × Bool :=
  (machine.debugLevel, machine.trace, machine.traceOpen)

theorem Machine.notes_performAll {machine machine' : Machine}
    (same : machine'.notes = machine.notes) (actions : List Action) :
    (machine'.performAll actions).notes = (machine.performAll actions).notes := by
  induction actions generalizing machine machine' with
  | nil => exact same
  | cons action actions inductionHypothesis =>
    refine inductionHypothesis ?_
    cases action with
    | record event =>
      obtain ⟨level, trace, isOpen⟩ : machine'.debugLevel = machine.debugLevel ∧
          machine'.trace = machine.trace ∧ machine'.traceOpen = machine.traceOpen := by
        simpa [notes] using same
      rw [perform_record, perform_record, record, record, level, isOpen]
      split
      · split
        · simp only [notes, trace]
        · exact same
      · exact same
    | _ => exact same

namespace Prompt

/-- The other machine has the scopes, the notes and the clock of the first, and these lines to
read. -/
structure Rehearses (lines : List Console.Line) (machine machine' : Machine) : Prop where
  store : machine'.store = machine.store
  inputs : machine'.inputs = machine.inputs.reading lines
  notes : machine'.notes = machine.notes

namespace Rehearses

variable {machine machine' : Machine} {lines : List Console.Line}

/-- Where the first machine takes the lines of the second, they do the same. -/
theorem performAll {actions : List Action}
    (rehearses : Rehearses (machine.inputs.taken actions ++ lines) machine machine')
    (exhausted : (machine.performAll actions).inputs.console.pending = [] → lines = []) :
    machine.inputs.Agree machine'.inputs actions ∧
      Rehearses lines (machine.performAll actions) (machine'.performAll actions) := by
  rw [Machine.inputs_performAll] at exhausted
  obtain ⟨agree, behind⟩ := Inputs.performAll_reading machine.inputs actions exhausted
  rw [← rehearses.inputs] at agree behind
  refine ⟨agree, ?_, ?_, Machine.notes_performAll rehearses.notes actions⟩
  · rw [Machine.store_performAll, Machine.store_performAll, rehearses.store]
  · rw [Machine.inputs_performAll, Machine.inputs_performAll, behind]

/-- Reading a line for the prompt leaves the other machine beside the first. -/
theorem behind_readLine (rehearses : Rehearses lines machine machine') :
    Rehearses lines (readLine machine).2 machine' :=
  ⟨rehearses.store, rehearses.inputs, rehearses.notes⟩

/-- In a turn without a source the other machine does nothing. -/
theorem idle {fuel : Nat} (noSource : (Turn.take fuel machine).source? = none)
    (rehearses : Rehearses ((Turn.take fuel machine).read ++ lines) machine machine') :
    (Turn.take fuel machine).course? = none ∧
      Rehearses lines ((Turn.take fuel machine).perform machine) machine' := by
  obtain ⟨actions, ending⟩ := Turn.take_of_none noSource
  refine ⟨by rw [Turn.course?, ending, Option.map_none], ?_⟩
  have read : (Turn.take fuel machine).read = [] := by
    rw [Turn.read_take, actions]
    split <;> rfl
  rw [read, List.nil_append] at rehearses
  rw [Turn.perform, actions]
  split
  · exact ⟨rehearses.store, rehearses.inputs, rehearses.notes⟩
  · exact rehearses.behind_readLine

/-- In a turn with a source the other machine runs it. -/
theorem source {fuel : Nat} {source : String}
    (isSource : (Turn.take fuel machine).source? = some source)
    (rehearses : Rehearses ((Turn.take fuel machine).read ++ lines) machine machine')
    (exhausted :
      ((Turn.take fuel machine).perform machine).inputs.console.pending = [] → lines = []) :
    (Turn.take fuel machine).course? = some (Course.runSource fuel source machine') ∧
      Rehearses lines ((Turn.take fuel machine).perform machine)
        (Session.runSource fuel source machine').2 := by
  obtain ⟨actions, ending⟩ := Turn.take_of_source isSource
  rw [Turn.read_take] at rehearses
  rw [Turn.perform] at exhausted ⊢
  have behind := rehearses.behind_readLine
  obtain ⟨agree, performs⟩ := behind.performAll exhausted
  rw [actions] at agree
  have same := Course.runSource_eq_of_agree behind.store agree
  refine ⟨by rw [Turn.course?, ending, actions, same, Option.map_some], ?_⟩
  rw [Session.runSource_eq, same, ← actions]
  exact performs

end Rehearses

/-- On the second machine the sources of the turns do what they did in the turns on the first, and
it ends beside the first with nothing left to read. -/
def Rehearsed (fuel : Nat) (turns : List Turn) (machine machine' : Machine) : Prop :=
  Course.runEach fuel (turns.filterMap Turn.source?) machine' = turns.filterMap Turn.course? ∧
    Rehearses [] (turns.foldl Turn.perform machine)
      (Session.runSources fuel (turns.filterMap Turn.source?) machine')

/-- One turn, and then the turns behind it. -/
theorem Rehearsed.cons {fuel : Nat} {machine machine' : Machine} {turns : List Turn}
    (rehearses : Rehearses ((Turn.take fuel machine).read ++ turns.flatMap Turn.read) machine
      machine')
    (exhausted : ((Turn.take fuel machine).perform machine).inputs.console.pending = [] →
      turns.flatMap Turn.read = [])
    (rest : ∀ {machine'},
      Rehearses (turns.flatMap Turn.read) ((Turn.take fuel machine).perform machine) machine' →
        Rehearsed fuel turns ((Turn.take fuel machine).perform machine) machine') :
    Rehearsed fuel (.take fuel machine :: turns) machine machine' := by
  rw [Rehearsed]
  cases found : (Turn.take fuel machine).source? with
  | none =>
    obtain ⟨course, behind⟩ := rehearses.idle found
    rw [List.filterMap_cons_none found, List.filterMap_cons_none course]
    exact rest behind
  | some source =>
    obtain ⟨course, behind⟩ := rehearses.source found exhausted
    obtain ⟨courses, reached⟩ := rest behind
    rw [Session.runSource_eq] at courses
    rw [List.filterMap_cons_some found, List.filterMap_cons_some course, ← courses]
    exact ⟨rfl, reached⟩

/-- A machine that has just the lines that programs take at the prompt runs the sources among the
lines of the prompt as the prompt does. -/
theorem Turns.rehearsed {fuel : Nat} {machine machine' : Machine} {turns : List Turn}
    (takes : Turns fuel machine turns)
    (rehearses : Rehearses (turns.flatMap Turn.read) machine machine') :
    Rehearsed fuel turns machine machine' := by
  induction takes generalizing machine' with
  | last => exact .cons rehearses (fun _ => rfl) fun behind => ⟨rfl, behind⟩
  | more _ takes inductionHypothesis =>
    exact .cons rehearses takes.read_of_exhausted inductionHypothesis

/-! ### Whole runs -/

/-- What calls of `input` answer in a turn: the lines that are taken, and empty texts if there are
more calls than lines. Then no line is left for the turns behind. -/
theorem Turns.answers_eq {fuel : Nat} {machine : Machine} {turns before after : List Turn}
    {turn : Turn} (takes : Turns fuel machine turns) (split : turns = before ++ turn :: after) :
    ∃ late, turn.answers = Inputs.answersFor turn.read late ∧
      (0 < late → after.flatMap Turn.lines ++
        (turns.foldl Turn.perform machine).inputs.console.pending = []) := by
  have take : ∀ machine, ∃ late,
      (Turn.take fuel machine).answers = Inputs.answersFor (Turn.take fuel machine).read late ∧
        (0 < late → ((Turn.take fuel machine).perform machine).inputs.console.pending = []) := by
    intro machine
    rw [Turn.perform, Machine.inputs_performAll]
    exact Inputs.answers_eq _ _
  induction takes generalizing before with
  | @last machine _ =>
    cases before with
    | nil =>
      obtain ⟨rfl, rfl⟩ := List.cons.inj split
      exact take machine
    | cons first before => simp at split
  | @more machine turns _ takes inductionHypothesis =>
    cases before with
    | nil =>
      obtain ⟨rfl, rfl⟩ := List.cons.inj split
      rw [List.foldl_cons, takes.lines_append_pending]
      exact take machine
    | cons first before => exact inductionHypothesis (List.cons.inj split).2

/-- The turns of a run of the prompt, and what they make of its lines. -/
structure Transcript (fuel : Nat) (machine : Machine) (run : Ending × Machine)
    (turns : List Turn) : Prop where
  takes : Turns fuel machine turns
  /-- The run ends as the last turn does, on the machine behind all turns. -/
  ends : ∃ last, turns.getLast? = some last ∧
    run = (last.ending.getD .completed, turns.foldl Turn.perform machine)
  /-- The lines that were read in the turns, and then those that are left, are all lines. -/
  lines : turns.flatMap Turn.lines ++ run.2.inputs.console.pending = machine.inputs.console.pending
  /-- A call of `input` gets the line it takes, or an empty text when none is left. -/
  answers : ∀ before turn after, turns = before ++ turn :: after → ∃ late,
    turn.answers = Inputs.answersFor turn.read late ∧
      (0 < late → after.flatMap Turn.lines ++ run.2.inputs.console.pending = [])
  output : run.2.output =
    machine.output ++ String.join (turns.map fun turn => sign ++ turn.printed)
  /-- In a session that has just the lines that programs took, the sources do the same. -/
  session :
    let machine' := { machine with inputs := machine.inputs.reading (turns.flatMap Turn.read) }
    Rehearsed fuel turns machine machine' ∧
      (Session.runSources fuel (turns.filterMap Turn.source?) machine').output =
        machine.output ++ String.join ((turns.filterMap Turn.course?).map fun course =>
          String.join (course.1.map Action.printed))

/-- Every run of the prompt has a transcript. -/
theorem exists_transcript (fuel : Nat) {machine : Machine} (discreet : machine.Discreet) :
    ∃ turns, Transcript fuel machine (run fuel machine) turns := by
  obtain ⟨turns, last, takes, ends, loops⟩ :=
    exists_turns fuel (Nat.lt_succ_self machine.inputs.console.pending.length)
  have reached : (run fuel machine).2 = turns.foldl Turn.perform machine := congrArg Prod.snd loops
  refine ⟨turns, takes, ⟨last, ends, loops⟩, ?_, fun before turn after split => ?_, ?_, ?_⟩
  · rw [reached]
    exact takes.lines_append_pending
  · rw [reached]
    exact takes.answers_eq split
  · rw [reached]
    exact output_turns discreet turns
  · intro machine'
    have discreet' : machine'.Discreet := discreet
    have rehearsed : Rehearsed fuel turns machine machine' := takes.rehearsed ⟨rfl, rfl, rfl⟩
    refine ⟨rehearsed, ?_⟩
    rw [Session.output_runSources discreet', rehearsed.1]

end Prompt

/-- The prompt and `input` share the lines of the standard input. All of the text is cut into
lines, behind its newlines. The prompt takes turns up to the first that reads the farewell or the
end, or whose source fails or does not end within its fuel; every line it reads that is neither the
farewell nor blank is run in its turn. The lines that the prompt and the programs read, in the order
in which they read them, are the first lines of the text. A call of `input` gets its line without
newline and quotation marks, and an empty text for a line without a newline and at the end. In a
session that reads just what the programs read, the sources have the same courses and endings, and
they leave the same scopes, notes and clock; the output of the prompt is theirs with a sign in front
of each turn and a newline when it departs. -/
theorem prompt_shares_lines (fuel : Nat) (invocation : CommandLine.Invocation)
    (read : String → Option String) (input : String) (clock : Nat → Int) :
    let text := String.ofList (Text.normalizeNewlines input.toList)
    let machine := Machine.start (.start text clock) invocation.verbosity
    let lines := machine.inputs.console.pending
    let run := Prompt.run fuel machine
    (lines.flatMap (fun line => line.written.toList) = text.toList ∧
      (∀ line ∈ lines, '\n' ∉ line.text.toList ∧ line.written ≠ "") ∧
      ∀ line ∈ lines.dropLast, line.terminated = true) ∧
    (∃ turns, Prompt.Transcript fuel machine run turns) ∧
    (∀ machine source, (Prompt.Turn.take fuel machine).source? = some source →
      let ran := Session.runSource fuel source (Prompt.readLine machine).2
      let turn := Prompt.Turn.take fuel machine
      (some ran.1, ran.2) = (turn.ending, turn.perform machine)) ∧
    (invocation.script = none ∨ invocation.script = some "" →
      CommandLine.perform fuel (.run invocation) read input clock =
        CommandLine.finish invocation (CommandLine.promptStatus run.1) run.2) := by
  intro text machine lines run
  obtain ⟨written, terminated⟩ := Console.terminated_linesOf (Text.pieces '\n' text.toList)
  refine ⟨⟨Console.written_ofText text, fun line member => ⟨?_, written line member⟩, terminated⟩,
    Prompt.exists_transcript fuel (.inl rfl), fun _ _ => Prompt.Turn.runSource_take, ?_⟩
  · exact Console.split_ofText text line member
  · rintro (none | empty)
    · simp only [CommandLine.perform, none, CommandLine.runPrompt, run, machine, text]
    · simp only [CommandLine.perform, empty, CommandLine.runPrompt, run, machine, text]

/-- The first line asks for the second, and the third is blank. -/
example : (Prompt.run 9 (.start (.start "print input();\nhi\n \n" fun _ => 0) 0)).2.output =
    "> hi\n> > \n" := by
  decide +kernel

end Lox
