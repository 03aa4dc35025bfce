/-
This file proves that tracing does not change programs. What the sources of a
session do depends on scopes and inputs alone, so it is the same at every debug
level. While the trace is open nothing but prints reaches the output. Of the
events that are noted on the way a machine keeps those of its level, so the
trace at any level can be read off the full one.
-/

import Lox.Proofs.Lines.Courses

namespace Lox

/-! ### What actions show -/

namespace Action

/-- The text that the action prints. -/
def printed : Action → String
  | .print text => text
  | _ => ""

/-- The event that the action notes. -/
def event? : Action → Option TraceEvent
  | .record event => some event
  | _ => none

end Action

/-- Level 3 asks for all events. -/
theorem TraceEvent.level_le (event : TraceEvent) : event.level ≤ 3 := by
  cases event <;> simp [level]

namespace Machine

/-- The machine prints no events: its trace takes them, or it notes none. -/
def Discreet (machine : Machine) : Prop := machine.traceOpen = true ∨ machine.debugLevel = 0

theorem Discreet.record {machine : Machine} (discreet : machine.Discreet) (event : TraceEvent) :
    (machine.record event).output = machine.output ∧ (machine.record event).Discreet := by
  rcases discreet with isOpen | silent
  · rw [Machine.record, if_pos isOpen]
    split
    · exact ⟨rfl, .inl isOpen⟩
    · exact ⟨rfl, .inl isOpen⟩
  · rw [record_of_debugLevel_eq_zero machine event silent]
    exact ⟨rfl, .inr silent⟩

theorem Discreet.perform {machine : Machine} (discreet : machine.Discreet) (action : Action) :
    (machine.perform action).output = machine.output ++ action.printed ∧
      (machine.perform action).Discreet := by
  cases action with
  | print text => exact ⟨rfl, discreet⟩
  | record event =>
    have recorded := discreet.record event
    rw [perform_record]
    exact ⟨recorded.1.trans String.append_empty.symm, recorded.2⟩
  | _ => exact ⟨String.append_empty.symm, discreet⟩

/-- The output behind actions of a machine that prints no events. -/
theorem Discreet.performAll {machine : Machine} (discreet : machine.Discreet)
    (actions : List Action) :
    (machine.performAll actions).output =
        machine.output ++ String.join (actions.map Action.printed) ∧
      (machine.performAll actions).Discreet := by
  induction actions generalizing machine with
  | nil => exact ⟨String.append_empty.symm, discreet⟩
  | cons action actions inductionHypothesis =>
    obtain ⟨output, discreetBehind⟩ := discreet.perform action
    obtain ⟨outputAll, discreetAll⟩ := inductionHypothesis discreetBehind
    refine ⟨?_, discreetAll⟩
    rw [performAll_cons, outputAll, output, List.map_cons, String.join_cons, String.append_assoc]

/-- An open trace gets the event of an action, if the debug level asks for it. -/
theorem trace_perform {machine : Machine} (isOpen : machine.traceOpen = true) (action : Action) :
    (machine.perform action).trace.toList =
        machine.trace.toList ++
          action.event?.toList.filter (fun event => event.level ≤ machine.debugLevel) ∧
      (machine.perform action).traceOpen = true ∧
      (machine.perform action).debugLevel = machine.debugLevel := by
  cases action with
  | record event =>
    rw [perform_record, record, if_pos isOpen]
    by_cases asked : event.level ≤ machine.debugLevel
    · rw [if_pos asked]
      exact ⟨by simp [Action.event?, asked], isOpen, rfl⟩
    · rw [if_neg asked]
      exact ⟨by simp [Action.event?, asked], isOpen, rfl⟩
  | _ => exact ⟨(List.append_nil _).symm, isOpen, rfl⟩

/-- An open trace gets those events of actions that the debug level asks for, in order. -/
theorem trace_performAll {machine : Machine} (isOpen : machine.traceOpen = true)
    (actions : List Action) :
    (machine.performAll actions).trace.toList =
      machine.trace.toList ++
        (actions.filterMap Action.event?).filter fun event => event.level ≤ machine.debugLevel := by
  induction actions generalizing machine with
  | nil => exact (List.append_nil _).symm
  | cons action actions inductionHypothesis =>
    obtain ⟨trace, stillOpen, level⟩ := trace_perform isOpen action
    rw [performAll_cons, inductionHypothesis stillOpen, trace, level, List.append_assoc]
    cases noted : action.event? with
    | none => rw [List.filterMap_cons_none noted]; rfl
    | some event =>
      rw [List.filterMap_cons_some noted, Option.toList_some, ← List.filter_append]
      rfl

end Machine

/-! ### Machines with the same scopes and inputs -/

section

variable {machine machine' : Machine}

theorem Machine.Renumbered.performAll_id (same : machine.Renumbered id machine')
    (actions : List Action) :
    (machine.performAll actions).Renumbered id (machine'.performAll actions) := by
  have renumbered := same.performAll actions
  rwa [Action.map_renumber_id] at renumbered

namespace Course

/-- Statements do the same on machines with the same scopes and inputs. -/
theorem statements_eq (same : machine.Renumbered id machine') (fuel : Nat) (scope : ScopeId)
    (statements : List Stmt) :
    inOrder (execute fuel scope) statements machine' =
      inOrder (execute fuel scope) statements machine := by
  have ends := renumbered_statements id fuel scope statements same
  rw [Stmt.map_renumber_id, Action.map_renumber_id] at ends
  rw [ends]
  rcases inOrder (execute fuel scope) statements machine with ⟨actions, exit⟩
  cases exit with
  | value _ | outOfFuel | error _ => rfl
  | returned value =>
    exact congrArg (fun value => (actions, Exit.returned value)) value.renumber_id

/-- Sources do the same on machines with the same scopes and inputs. -/
theorem runSource_eq_of_same (same : machine.Renumbered id machine') (fuel : Nat)
    (source : String) : runSource fuel source machine' = runSource fuel source machine := by
  have reported := fun first second => (same.performAll_id first).performAll_id second
  simp only [runSource, runScanned, interpret, statements_eq (reported _ _)]

end Course

end

/-! ### Sessions -/

/-- How the runs of source texts one after the other on one machine end. -/
def Session.endings (fuel : Nat) : List String → Machine → List Ending
  | [], _ => []
  | source :: rest, machine =>
    (runSource fuel source machine).1 :: endings fuel rest (runSource fuel source machine).2

/-- On machines with the same scopes and inputs sources do the same and end in the same ways. -/
theorem Session.endings_eq_of_same {machine machine' : Machine}
    (same : machine.Renumbered id machine') (fuel : Nat) (sources : List String) :
    endings fuel sources machine' = endings fuel sources machine ∧
      Course.runSources fuel sources machine' = Course.runSources fuel sources machine := by
  induction sources generalizing machine machine' with
  | nil => exact ⟨rfl, rfl⟩
  | cons source rest inductionHypothesis =>
    have runs := Course.runSource_eq_of_same same fuel source
    obtain ⟨endingsRest, coursesRest⟩ :=
      inductionHypothesis (same.performAll_id (Course.runSource fuel source machine).1)
    simp only [endings, Course.runSources, runSource_eq, runs, endingsRest, coursesRest, and_self]

/-- The debug level decides nothing but which events the trace keeps. At any level the sources of
a session end in the same ways as at level 0, with the same output, the same inputs consumed and the
same scopes; and the trace is that of level 3 without the events of higher levels. -/
theorem tracing_changes_nothing (fuel : Nat) (sources : List String) (inputs : Inputs)
    (debugLevel : Nat) :
    let endings := fun level => Session.endings fuel sources (.start inputs level)
    let reached := fun level => Session.runSources fuel sources (.start inputs level)
    endings debugLevel = endings 0 ∧
      (reached debugLevel).output = (reached 0).output ∧
      (reached debugLevel).inputs = (reached 0).inputs ∧
      (reached debugLevel).store = (reached 0).store ∧
      (reached debugLevel).trace.toList =
        (reached 3).trace.toList.filter fun event => event.level ≤ debugLevel := by
  intro endings reached
  let actions := Course.runSources fuel sources (.start inputs 0)
  have same : ∀ level, (Machine.start inputs 0).Renumbered id (Machine.start inputs level) :=
    fun _ => ⟨(Store.renumber_id _).symm, rfl⟩
  have performs : ∀ level, reached level = (Machine.start inputs level).performAll actions := by
    intro level
    show Session.runSources fuel sources (.start inputs level) = _
    rw [Session.runSources_eq, (Session.endings_eq_of_same (same level) fuel sources).2]
  have outputs : ∀ level, (reached level).output = String.join (actions.map Action.printed) := by
    intro level
    have discreet : (Machine.start inputs level).Discreet := .inl rfl
    rw [performs, (discreet.performAll actions).1]
    exact String.empty_append
  have traces : ∀ level, (reached level).trace.toList =
      (actions.filterMap Action.event?).filter fun event => event.level ≤ level := by
    intro level
    rw [performs, Machine.trace_performAll rfl]
    rfl
  have scopes := (same debugLevel).performAll_id actions
  refine ⟨(Session.endings_eq_of_same (same debugLevel) fuel sources).1, ?_, ?_, ?_, ?_⟩
  · rw [outputs, outputs]
  · rw [performs, performs]
    exact scopes.inputs
  · rw [performs, performs]
    exact scopes.store.trans (Store.renumber_id _)
  · rw [traces, traces, List.filter_filter]
    exact List.filter_congr fun event _ => by simp [event.level_le]

end Lox
