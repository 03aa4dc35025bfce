/-
This file is the prompt turn by turn. In a turn the prompt takes a line, and the
programs in it take the lines behind that one, so turns leave no line out. Each
takes a line or is the last, so the loop always comes to its last turn, and what
it prints is a sign for each turn and what the turns print.
-/

import Lox.Prompt
import Lox.Proofs.Lines.Tracing
import Lox.Proofs.Prompt.Reading

namespace Lox

namespace Prompt

/-! ### Turns -/

/-- A turn of the prompt: the line that was read, if one was left; what was done about it; what
programs read meanwhile; and how the line ended, if it was run. -/
structure Turn where
  line : Option Console.Line
  actions : List Action
  read : List Console.Line
  answers : List (Except NativeFault Value)
  ending : Option Ending

/-- The line is the last one of the prompt: it is the farewell, or there was none. -/
def Departs (line : Option Console.Line) : Prop :=
  ∀ text ∈ line.map Console.Line.text, text = farewell

instance (line : Option Console.Line) : Decidable (Departs line) :=
  inferInstanceAs (Decidable (∀ text ∈ line.map Console.Line.text, text = farewell))

/-- The source that is run for a line. None is run for the farewell and for blank lines. -/
def sourceOf? (line : Option Console.Line) : Option String :=
  (line.map Console.Line.text).filter fun text => text ≠ farewell ∧ ¬ Text.isBlankText text

/-- What is done about a line, and how it ends if it is run. At the end there is a newline. -/
def respond (fuel : Nat) (line : Option Console.Line) (machine : Machine) :
    List Action × Option Ending :=
  match sourceOf? line with
  | some source => (Course.runSource fuel source machine).map id some
  | none => (if Departs line then [.print "\n"] else [], none)

namespace Turn

/-- The turn that the prompt takes on a machine. -/
def take (fuel : Nat) (machine : Machine) : Turn :=
  let (line, machine) := readLine machine
  let (actions, ending) := respond fuel line machine
  { line, actions, ending
    read := machine.inputs.taken actions
    answers := machine.inputs.answers actions }

/-- The machine behind a turn. -/
def perform (machine : Machine) (turn : Turn) : Machine :=
  (readLine machine).2.performAll turn.actions

/-- The source that is run in a turn, if there is one. -/
def source? (turn : Turn) : Option String := sourceOf? turn.line

/-- The lines read in a turn, in order. -/
def lines (turn : Turn) : List Console.Line := turn.line.toList ++ turn.read

/-- What is printed in a turn behind the sign. -/
def printed (turn : Turn) : String := String.join (turn.actions.map Action.printed)

/-- What the source of a turn does and how it ends, if one was run. -/
def course? (turn : Turn) : Option (List Action × Ending) :=
  turn.ending.map fun ending => (turn.actions, ending)

/-- The turn is the last one: the prompt departs, or its source fails or does not end. -/
def Stops (turn : Turn) : Prop :=
  Departs turn.line ∨ (∃ error, turn.ending = some (.failed error)) ∨
    turn.ending = some .unfinished

end Turn

/-- The turns of the prompt on a machine: it goes on up to the first turn that stops it. -/
inductive Turns (fuel : Nat) : Machine → List Turn → Prop
  | last {machine : Machine} : (Turn.take fuel machine).Stops →
      Turns fuel machine [.take fuel machine]
  | more {machine : Machine} {turns : List Turn} : ¬ (Turn.take fuel machine).Stops →
      Turns fuel ((Turn.take fuel machine).perform machine) turns →
      Turns fuel machine (.take fuel machine :: turns)

/-! ### The turns of the loop -/

theorem departs_some {line : Console.Line} : Departs (some line) ↔ line.text = farewell := by
  simp [Departs]

theorem sourceOf?_eq_some_iff {line : Console.Line} {source : String} :
    sourceOf? (some line) = some source ↔
      line.text = source ∧ line.text ≠ farewell ∧ ¬ Text.isBlankText line.text = true := by
  simp [sourceOf?, Option.filter_some, and_comm]

section

variable {fuel : Nat} {line : Option Console.Line}

theorem respond_of_source {source : String} (isSource : sourceOf? line = some source)
    (machine : Machine) :
    respond fuel line machine = (Course.runSource fuel source machine).map id some := by
  rw [respond, isSource]

theorem respond_of_none (noSource : sourceOf? line = none) (machine : Machine) :
    respond fuel line machine = (if Departs line then [.print "\n"] else [], none) := by
  rw [respond, noSource]

end

/-- Each round of the loop is a turn. -/
theorem loop_succ (fuel bound : Nat) (machine : Machine) :
    let turn := Turn.take fuel machine
    (turn.Stops ∧
      loop fuel (bound + 1) machine = (turn.ending.getD .completed, turn.perform machine)) ∨
    (¬ turn.Stops ∧
      loop fuel (bound + 1) machine = loop fuel bound (turn.perform machine)) := by
  intro turn
  simp only [turn, loop, Turn.take, Turn.perform, Turn.Stops]
  rcases readLine machine with ⟨line, behind⟩
  cases line with
  | none => exact .inl ⟨.inl nofun, rfl⟩
  | some line =>
    dsimp only
    by_cases departs : line.text = farewell
    · have noSource : sourceOf? (some line) = none := by simp [sourceOf?, departs]
      rw [respond_of_none noSource, if_pos departs, if_pos (departs_some.mpr departs)]
      exact .inl ⟨.inl (departs_some.mpr departs), rfl⟩
    have stays : ¬ Departs (some line) := mt departs_some.mp departs
    rw [if_neg departs]
    by_cases blank : Text.isBlankText line.text = true
    · have noSource : sourceOf? (some line) = none := by simp [sourceOf?, blank]
      rw [respond_of_none noSource, if_pos blank, if_neg stays]
      exact .inr ⟨by simp [stays], rfl⟩
    have isSource := sourceOf?_eq_some_iff.mpr ⟨rfl, departs, blank⟩
    rw [respond_of_source isSource, if_neg blank, Session.runSource_eq]
    rcases Course.runSource fuel line.text behind with ⟨actions, ending⟩
    cases ending with
    | completed | rejected => exact .inr ⟨by simp [stays], rfl⟩
    | failed error => exact .inl ⟨.inr (.inl ⟨error, rfl⟩), rfl⟩
    | unfinished => exact .inl ⟨.inr (.inr rfl), rfl⟩

section

variable {fuel : Nat} {machine : Machine}

theorem Turn.read_take : (take fuel machine).read =
    (readLine machine).2.inputs.taken (take fuel machine).actions := rfl

theorem Turn.respond_take : respond fuel (take fuel machine).line (readLine machine).2 =
    ((take fuel machine).actions, (take fuel machine).ending) := rfl

theorem Turn.take_of_source {source : String}
    (isSource : (take fuel machine).source? = some source) :
    (take fuel machine).actions = (Course.runSource fuel source (readLine machine).2).1 ∧
      (take fuel machine).ending = some (Course.runSource fuel source (readLine machine).2).2 := by
  have responds := @respond_take fuel machine
  rw [respond_of_source isSource] at responds
  obtain ⟨actions, ending⟩ := Prod.mk.inj responds
  exact ⟨actions.symm, ending.symm⟩

/-- A source is run on the machine behind its line. -/
theorem Turn.runSource_take {source : String}
    (isSource : (take fuel machine).source? = some source) :
    (some (Session.runSource fuel source (readLine machine).2).1,
        (Session.runSource fuel source (readLine machine).2).2) =
      ((take fuel machine).ending, (take fuel machine).perform machine) := by
  obtain ⟨actions, ending⟩ := take_of_source isSource
  rw [Session.runSource_eq, perform, actions, ending]

theorem Turn.take_of_none (noSource : (take fuel machine).source? = none) :
    (take fuel machine).actions =
        (if Departs (take fuel machine).line then [.print "\n"] else []) ∧
      (take fuel machine).ending = none := by
  have responds := @respond_take fuel machine
  rw [respond_of_none noSource] at responds
  obtain ⟨actions, ending⟩ := Prod.mk.inj responds
  exact ⟨actions.symm, ending.symm⟩

end

/-! ### Lines -/

/-- The lines of a turn are the first of those that were left. -/
theorem Turn.lines_append_pending (fuel : Nat) (machine : Machine) :
    let turn := Turn.take fuel machine
    turn.lines ++ (turn.perform machine).inputs.console.pending =
      machine.inputs.console.pending := by
  intro turn
  have line : turn.line.toList ++ (readLine machine).2.inputs.console.pending =
      machine.inputs.console.pending := machine.inputs.console.next_append_pending
  rw [Turn.lines, Turn.perform, Machine.inputs_performAll, List.append_assoc, ← line]
  exact congrArg _ (Inputs.taken_append_pending _ _)

/-- A turn that does not stop the prompt has taken a line. -/
theorem Turn.length_pending_lt {fuel : Nat} {machine : Machine}
    (goes : ¬ (Turn.take fuel machine).Stops) :
    ((Turn.take fuel machine).perform machine).inputs.console.pending.length <
      machine.inputs.console.pending.length := by
  have lines := Turn.lines_append_pending fuel machine
  generalize Turn.take fuel machine = turn at goes lines
  cases found : turn.line with
  | none => exact absurd (.inl (found ▸ nofun)) goes
  | some line =>
    rw [← lines, Turn.lines, found, Option.toList_some, List.length_append, List.length_append]
    exact Nat.lt_add_of_pos_left (Nat.lt_add_right _ Nat.zero_lt_one)

/-- If there are more rounds than lines, the loop takes turns until one stops it. -/
theorem exists_turns (fuel : Nat) {bound : Nat} {machine : Machine}
    (enough : machine.inputs.console.pending.length < bound) :
    ∃ turns last, Turns fuel machine turns ∧ turns.getLast? = some last ∧
      loop fuel bound machine =
        (last.ending.getD .completed, turns.foldl Turn.perform machine) := by
  induction bound generalizing machine with
  | zero => exact absurd enough (Nat.not_lt_zero _)
  | succ bound inductionHypothesis =>
    rcases loop_succ fuel bound machine with ⟨stops, loops⟩ | ⟨goes, loops⟩
    · exact ⟨_, _, .last stops, rfl, loops⟩
    · have fewer := Turn.length_pending_lt goes
      have enoughBehind := Nat.lt_of_lt_of_le fewer (Nat.le_of_lt_succ enough)
      obtain ⟨turns, last, takes, ends, rest⟩ := inductionHypothesis enoughBehind
      exact ⟨_, last, .more goes takes, by simp [List.getLast?_cons, ends], loops.trans rest⟩

theorem Turns.lines_append_pending {fuel : Nat} {machine : Machine} {turns : List Turn}
    (takes : Turns fuel machine turns) :
    turns.flatMap Turn.lines ++ (turns.foldl Turn.perform machine).inputs.console.pending =
      machine.inputs.console.pending := by
  induction takes with
  | last => rw [List.flatMap_singleton, List.foldl_cons, List.foldl_nil, Turn.lines_append_pending]
  | more _ _ inductionHypothesis =>
    rw [List.flatMap_cons, List.foldl_cons, List.append_assoc, inductionHypothesis,
      Turn.lines_append_pending]

/-- Programs read nothing in turns that find no line. -/
theorem Turns.read_of_exhausted {fuel : Nat} {machine : Machine} {turns : List Turn}
    (takes : Turns fuel machine turns) (exhausted : machine.inputs.console.pending = []) :
    turns.flatMap Turn.read = [] := by
  have lines := takes.lines_append_pending
  rw [exhausted] at lines
  refine List.flatMap_eq_nil_iff.mpr fun turn member => ?_
  have none := List.flatMap_eq_nil_iff.mp (List.append_eq_nil_iff.mp lines).1 turn member
  exact (List.append_eq_nil_iff.mp none).2

/-! ### Output -/

/-- A turn prints the sign and what its source prints. -/
theorem Turn.output_perform {machine : Machine} (discreet : machine.Discreet) (turn : Turn) :
    (turn.perform machine).output = machine.output ++ (sign ++ turn.printed) ∧
      (turn.perform machine).Discreet := by
  have behind : (readLine machine).2.Discreet := discreet
  obtain ⟨output, discreetBehind⟩ := behind.performAll turn.actions
  refine ⟨?_, discreetBehind⟩
  rw [Turn.perform, output, ← String.append_assoc]
  rfl

theorem output_turns {machine : Machine} (discreet : machine.Discreet) (turns : List Turn) :
    (turns.foldl Turn.perform machine).output =
      machine.output ++ String.join (turns.map fun turn => sign ++ turn.printed) := by
  induction turns generalizing machine with
  | nil => exact String.append_empty.symm
  | cons turn turns inductionHypothesis =>
    obtain ⟨output, discreetBehind⟩ := Turn.output_perform discreet turn
    rw [List.foldl_cons, inductionHypothesis discreetBehind, output, List.map_cons,
      String.join_cons, String.append_assoc]

end Prompt

end Lox
