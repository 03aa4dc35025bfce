/-
This file proves what programs take from their inputs. A program sees its
inputs only through the answers of the natives it calls, so it does the same
where they answer alike. Its calls of `input` take lines from the front of the
console, and a program that is given just the lines it takes does the same.
-/

import Lox.Proofs.Course.Closure
import Lox.Proofs.Text.Pieces

namespace Lox

/-! ### The lines of a text -/

namespace Console

/-- The line as it stands in the text. -/
def Line.written (line : Line) : String := line.text ++ if line.terminated then "\n" else ""

theorem flatMap_linesOf {pieces : List (List Char)} (some : pieces ≠ []) :
    (linesOf pieces).flatMap (fun line => line.written.toList) = ['\n'].intercalate pieces := by
  induction pieces with
  | nil => exact absurd rfl some
  | cons piece rest inductionHypothesis =>
    cases rest with
    | nil =>
      rw [linesOf, List.intercalate_singleton]
      split
      · next isEmpty => rw [List.isEmpty_iff.mp isEmpty, List.flatMap_nil]
      · simp [Line.written]
    | cons second others =>
      rw [linesOf, List.flatMap_cons, inductionHypothesis (List.cons_ne_nil _ _),
        List.intercalate_cons_cons, List.append_assoc]
      · simp [Line.written]
      · exact List.cons_ne_nil _ _

/-- The lines of a console on a text, written one after the other, are the text. -/
theorem written_ofText (text : String) :
    (ofText text).pending.flatMap (fun line => line.written.toList) = text.toList := by
  rw [ofText, flatMap_linesOf (Text.pieces_ne_nil _ _), Text.pieces_eq_splitOn,
    List.intercalate_splitOn]

/-- No line is empty with its newline, and only the last one can lack it. -/
theorem terminated_linesOf (pieces : List (List Char)) :
    (∀ line ∈ linesOf pieces, line.written ≠ "") ∧
      ∀ line ∈ (linesOf pieces).dropLast, line.terminated = true := by
  induction pieces with
  | nil => exact ⟨nofun, nofun⟩
  | cons piece rest inductionHypothesis =>
    obtain ⟨written, terminated⟩ := inductionHypothesis
    cases rest with
    | nil =>
      rw [linesOf]
      split
      · exact ⟨nofun, nofun⟩
      · next notEmpty =>
        refine ⟨fun line member => ?_, nofun⟩
        rw [List.mem_singleton.mp member]
        simpa [Line.written] using notEmpty
    | cons second others =>
      rw [linesOf]
      · refine ⟨List.forall_mem_cons.mpr ⟨by simp [Line.written], written⟩, ?_⟩
        cases later : linesOf (second :: others) with
        | nil => nofun
        | cons next behind =>
          rw [later] at terminated
          exact List.forall_mem_cons.mpr ⟨rfl, terminated⟩
      · exact List.cons_ne_nil _ _

/-- The next line and the lines behind it are those that were left. -/
theorem next_append_pending (console : Console) :
    console.next.1.toList ++ console.next.2.pending = console.pending := by
  obtain ⟨pending⟩ := console
  cases pending <;> rfl

end Console

/-! ### Actions on inputs -/

namespace Inputs

/-- The inputs after actions. -/
def performAll (inputs : Inputs) (actions : List Action) : Inputs := actions.foldl perform inputs

@[simp] theorem performAll_nil (inputs : Inputs) : inputs.performAll [] = inputs := rfl

@[simp] theorem performAll_cons (inputs : Inputs) (action : Action) (actions : List Action) :
    inputs.performAll (action :: actions) = (inputs.perform action).performAll actions := rfl

/-- What the native answers that the action calls, if it calls one. -/
def answer? (inputs : Inputs) : Action → Option (Except NativeFault Value)
  | .callNative native arguments => some (native.call arguments inputs).1
  | _ => none

/-- On both inputs the natives that the actions call give the same answers. -/
def Agree : Inputs → Inputs → List Action → Prop
  | _, _, [] => True
  | inputs, inputs', action :: actions =>
    inputs'.answer? action = inputs.answer? action ∧
      Agree (inputs.perform action) (inputs'.perform action) actions

theorem agree_append {inputs inputs' : Inputs} {first later : List Action} :
    inputs.Agree inputs' (first ++ later) ↔
      inputs.Agree inputs' first ∧
        (inputs.performAll first).Agree (inputs'.performAll first) later := by
  induction first generalizing inputs inputs' with
  | nil => exact ⟨fun agree => ⟨trivial, agree⟩, And.right⟩
  | cons action first inductionHypothesis =>
    rw [List.cons_append, Agree, Agree, inductionHypothesis, and_assoc]
    rfl

/-- The line that an action takes from the console. -/
def line? (inputs : Inputs) : Action → Option Console.Line
  | .callNative .input _ => inputs.console.next.1
  | _ => none

/-- The lines that actions take from the console, in the order in which they are read. -/
def taken : Inputs → List Action → List Console.Line
  | _, [] => []
  | inputs, action :: actions =>
    (inputs.line? action).toList ++ taken (inputs.perform action) actions

/-- What the call of `input` answers, if the action is one. -/
def answerLine? (inputs : Inputs) : Action → Option (Except NativeFault Value)
  | .callNative .input arguments => some (Native.input.call arguments inputs).1
  | _ => none

/-- What the calls of `input` among actions answer, in order. -/
def answers : Inputs → List Action → List (Except NativeFault Value)
  | _, [] => []
  | inputs, action :: actions =>
    (inputs.answerLine? action).toList ++ answers (inputs.perform action) actions

/-- The answers for lines, and empty texts for calls that come too late for one. -/
def answersFor (lines : List Console.Line) (late : Nat) : List (Except NativeFault Value) :=
  lines.map (fun line => .ok (.string (Console.answer (some line)))) ++
    List.replicate late (.ok (.string ""))

/-- The inputs with other lines on the console. -/
def reading (inputs : Inputs) (lines : List Console.Line) : Inputs :=
  { inputs with console := ⟨lines⟩ }

/-- An action takes its line from the front. -/
theorem line?_append_pending (inputs : Inputs) (action : Action) :
    (inputs.line? action).toList ++ (inputs.perform action).console.pending =
      inputs.console.pending := by
  cases action with
  | callNative native arguments =>
    cases native with
    | input => exact inputs.console.next_append_pending
    | _ => rfl
  | _ => rfl

/-- The lines that actions take and those behind are the lines that were there. -/
theorem taken_append_pending (inputs : Inputs) (actions : List Action) :
    inputs.taken actions ++ (inputs.performAll actions).console.pending =
      inputs.console.pending := by
  induction actions generalizing inputs with
  | nil => rfl
  | cons action actions inductionHypothesis =>
    rw [taken, performAll_cons, List.append_assoc, inductionHypothesis, line?_append_pending]

/-- Where no line is left none is taken, and none is left behind. -/
theorem taken_of_exhausted {inputs : Inputs} (exhausted : inputs.console.pending = [])
    (actions : List Action) :
    inputs.taken actions = [] ∧ (inputs.performAll actions).console.pending = [] :=
  List.append_eq_nil_iff.mp ((inputs.taken_append_pending actions).trans exhausted)

/-- An action takes a line and answers it, or there is none and the answer is empty; or it does not
call `input`. -/
theorem answerLine?_cases (inputs : Inputs) (action : Action) :
    (∃ line, inputs.line? action = some line ∧
        inputs.answerLine? action = some (.ok (.string (Console.answer (some line))))) ∨
      (inputs.console.pending = [] ∧ inputs.line? action = none ∧
        inputs.answerLine? action = some (.ok (.string ""))) ∨
      (inputs.line? action = none ∧ inputs.answerLine? action = none) := by
  obtain ⟨⟨pending⟩, clock, ticks⟩ := inputs
  cases action with
  | callNative native arguments =>
    cases native with
    | input =>
      cases pending with
      | nil => exact .inr (.inl ⟨rfl, rfl, rfl⟩)
      | cons line rest => exact .inl ⟨line, rfl, rfl⟩
    | _ => exact .inr (.inr ⟨rfl, rfl⟩)
  | _ => exact .inr (.inr ⟨rfl, rfl⟩)

/-- Each call of `input` answers the line it takes. When no line is left the answers are empty. -/
theorem answers_eq (inputs : Inputs) (actions : List Action) :
    ∃ late, inputs.answers actions = answersFor (inputs.taken actions) late ∧
      (0 < late → (inputs.performAll actions).console.pending = []) := by
  induction actions generalizing inputs with
  | nil => exact ⟨0, rfl, fun some => absurd some (Nat.lt_irrefl 0)⟩
  | cons action actions inductionHypothesis =>
    obtain ⟨late, answered, exhausted⟩ := inductionHypothesis (inputs.perform action)
    rw [answers, taken, answered]
    rcases inputs.answerLine?_cases action with
      ⟨line, takes, answer⟩ | ⟨empty, takes, answer⟩ | ⟨takes, answer⟩
    · rw [takes, answer]
      exact ⟨late, rfl, exhausted⟩
    · -- behind the last line nothing but empty answers comes
      have first := inputs.line?_append_pending action
      rw [takes, empty] at first
      obtain ⟨noneTaken, noneLeft⟩ := taken_of_exhausted first actions
      rw [takes, answer, noneTaken]
      exact ⟨late + 1, rfl, fun _ => noneLeft⟩
    · rw [takes, answer]
      exact ⟨late, rfl, exhausted⟩

/-- An action that finds the line it takes does the same with other lines behind it. -/
theorem perform_reading (inputs : Inputs) (action : Action) {later : List Console.Line}
    (exhausted : inputs.console.pending = [] → later = []) :
    let inputs' := inputs.reading ((inputs.line? action).toList ++ later)
    inputs'.answer? action = inputs.answer? action ∧
      inputs'.perform action = (inputs.perform action).reading later := by
  obtain ⟨⟨pending⟩, clock, ticks⟩ := inputs
  cases action with
  | callNative native arguments =>
    cases native with
    | input =>
      cases pending with
      | nil =>
        obtain rfl := exhausted rfl
        exact ⟨rfl, rfl⟩
      | cons line rest => exact ⟨rfl, rfl⟩
    | _ => exact ⟨rfl, rfl⟩
  | _ => exact ⟨rfl, rfl⟩

/-- Actions do the same on the lines they take, whatever lines stand behind these. If they come to
the end of the console, nothing may stand there. -/
theorem performAll_reading (inputs : Inputs) (actions : List Action) {later : List Console.Line}
    (exhausted : (inputs.performAll actions).console.pending = [] → later = []) :
    let inputs' := inputs.reading (inputs.taken actions ++ later)
    inputs.Agree inputs' actions ∧
      inputs'.performAll actions = (inputs.performAll actions).reading later := by
  induction actions generalizing inputs with
  | nil => exact ⟨trivial, rfl⟩
  | cons action actions inductionHypothesis =>
    intro inputs'
    obtain ⟨agree, behind⟩ := inductionHypothesis (inputs.perform action) exhausted
    -- once the console is exhausted it stays so
    have atEnd : inputs.console.pending = [] →
        (inputs.perform action).taken actions ++ later = [] := by
      intro empty
      have first := (inputs.line?_append_pending action).trans empty
      obtain ⟨noneTaken, noneLeft⟩ :=
        taken_of_exhausted (List.append_eq_nil_iff.mp first).2 actions
      rw [noneTaken, exhausted noneLeft, List.append_nil]
    obtain ⟨answers, performs⟩ := inputs.perform_reading action atEnd
    have same : inputs' = inputs.reading
        ((inputs.line? action).toList ++ ((inputs.perform action).taken actions ++ later)) :=
      congrArg inputs.reading (List.append_assoc _ _ _)
    rw [same, performAll_cons, performAll_cons, Agree, performs]
    exact ⟨⟨answers, agree⟩, behind⟩

end Inputs

@[simp] theorem Machine.inputs_performAll (machine : Machine) (actions : List Action) :
    (machine.performAll actions).inputs = machine.inputs.performAll actions := by
  induction actions generalizing machine with
  | nil => rfl
  | cons action actions inductionHypothesis =>
    rw [performAll_cons, inductionHypothesis]
    rfl

/-! ### Programs on other inputs -/

/-- Where machines agree on actions, they agree behind the first of them on the rest. -/
theorem Machine.agree_performAll {machine machine' : Machine}
    (stores : machine'.store = machine.store) {first later : List Action}
    (agree : machine.inputs.Agree machine'.inputs (first ++ later)) :
    (machine'.performAll first).store = (machine.performAll first).store ∧
      (machine.performAll first).inputs.Agree (machine'.performAll first).inputs later := by
  refine ⟨by rw [store_performAll, store_performAll, stores], ?_⟩
  rw [inputs_performAll, inputs_performAll]
  exact (Inputs.agree_append.mp agree).2

namespace Course

/-- The course is the same on machines with the same scopes whose inputs answer alike. -/
def Local {α : Type} (course : Course α) : Prop :=
  ∀ ⦃machine machine' : Machine⦄, machine'.store = machine.store →
    machine.inputs.Agree machine'.inputs (course machine).1 → course machine' = course machine

theorem Local.bind {α β : Type} {first : Course α} {next : α → Course β} (firstLocal : Local first)
    (nextLocal : ∀ value, Local (next value)) : Local (first >>= next) := by
  intro machine machine' stores agree
  rcases part : first machine with ⟨actions, exit⟩
  cases exit with
  | value value =>
    rw [bind_of_value part] at agree
    have same := firstLocal stores (part ▸ (Inputs.agree_append.mp agree).1)
    obtain ⟨storesBehind, agreeBehind⟩ := Machine.agree_performAll stores agree
    rw [bind_of_value part, bind_of_value (same.trans part),
      nextLocal value storesBehind agreeBehind]
  | returned value =>
    rw [bind_of_returned part] at agree ⊢
    exact bind_of_returned ((firstLocal stores (part ▸ agree)).trans part)
  | error error =>
    rw [bind_of_error part] at agree ⊢
    exact bind_of_error ((firstLocal stores (part ▸ agree)).trans part)
  | outOfFuel =>
    rw [bind_of_outOfFuel part] at agree ⊢
    exact bind_of_outOfFuel ((firstLocal stores (part ▸ agree)).trans part)

theorem closed_local : Closed @Local where
  pure _ _ _ _ _ := rfl
  bind := Local.bind
  fail _ _ _ _ _ _ := rfl
  starve := fun _ _ => rfl
  leave _ _ _ _ _ := rfl
  act _ _ _ _ _ := rfl
  get view machine machine' stores _ := by rw [Course.get, Course.get, stores]
  callNative native arguments line machine machine' stores agree := by
    rw [callNative_apply] at agree
    rw [callNative_apply, callNative_apply, Option.some.inj agree.1]
  catchReturn {body} bodyLocal machine machine' stores agree := by
    rw [fst_catchReturn] at agree
    rw [Course.catchReturn, Course.catchReturn, bodyLocal stores agree]

section

variable {machine machine' : Machine} (stores : machine'.store = machine.store) {fuel : Nat}

include stores

theorem interpret_eq_of_agree {statements : List Stmt}
    (agree : machine.inputs.Agree machine'.inputs (interpret fuel statements machine).1) :
    interpret fuel statements machine' = interpret fuel statements machine := by
  have statementsLocal := closed_local.statements fuel globalScope statements
  have agreeStatements : machine.inputs.Agree machine'.inputs
      (inOrder (execute fuel globalScope) statements machine).1 := by
    rw [interpret] at agree
    generalize inOrder (execute fuel globalScope) statements machine = part at agree
    obtain ⟨actions, exit⟩ := part
    cases exit with
    | value _ | returned _ | outOfFuel => exact agree
    | error error => exact (Inputs.agree_append.mp agree).1
  rw [interpret, interpret, statementsLocal stores agreeStatements]

theorem runScanned_eq_of_agree {stream : TokenStream}
    (agree : machine.inputs.Agree machine'.inputs (runScanned fuel stream machine).1) :
    runScanned fuel stream machine' = runScanned fuel stream machine := by
  simp only [runScanned] at agree ⊢
  split
  · next clean =>
    rw [if_pos clean] at agree
    obtain ⟨storesBehind, agreeBehind⟩ := Machine.agree_performAll stores agree
    rw [interpret_eq_of_agree storesBehind agreeBehind]
  · rfl

/-- A source does the same on machines with the same scopes whose inputs answer alike. -/
theorem runSource_eq_of_agree {source : String}
    (agree : machine.inputs.Agree machine'.inputs (runSource fuel source machine).1) :
    runSource fuel source machine' = runSource fuel source machine := by
  simp only [runSource] at agree ⊢
  split
  · next clean =>
    rw [if_pos clean] at agree
    obtain ⟨storesBehind, agreeBehind⟩ := Machine.agree_performAll stores agree
    rw [runScanned_eq_of_agree storesBehind agreeBehind]
  · rfl

end

end Course

end Lox
