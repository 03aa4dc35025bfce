/-
This file proves that programs compute with well-formed values only, as long as
the clock shows words: integers are words, and strings have neither quotation
marks nor newlines. So it is in every state of a session and for every value
that is bound, passed, returned or printed on the way. Since printing takes
nothing but quotation marks away, a string is printed exactly as it is.
-/

import Lox.Proofs.Values.Regular

namespace Lox

/-- Integers are words, and strings have neither quotation marks nor newlines. -/
def Value.WellFormed : Value → Prop
  | .int value => Word.InRange value
  | .string text => '"' ∉ text.toList ∧ '\n' ∉ text.toList
  | .nil | .boolean _ | .float _ | .function _ | .native _ => True

theorem Value.wellFormed_of_regular {value : Value} (regular : value.Regular Word.InRange) :
    value.WellFormed := by
  cases value with
  | int value => exact regular
  | string text => exact ⟨fun quote => (regular _ quote).1 rfl, regular.oneLine⟩
  | nil | boolean _ | float _ | function _ | native _ => trivial

/-- The printed form of a well-formed string is the string itself. -/
theorem Value.WellFormed.text_string {text : String} (wellFormed : (string text).WellFormed) :
    (string text).text = text :=
  withoutQuotes_of_notMem wellFormed.1

/-- The values that an action stores or passes. -/
def Action.values : Action → List Value
  | .bindParameter _ _ value | .declareVariable _ _ value _ | .update _ _ value => [value]
  | .declareFunction closure => [.function closure]
  | .callNative _ arguments => arguments
  | .openScope _ | .print _ | .record _ => []

/-- Actions that carry fine values carry each of them in some store. -/
theorem Store.Carries.fine {quality : Quality} {store : Store} {actions : List Action}
    (carries : store.Carries quality actions) {action : Action} (member : action ∈ actions)
    {value : Value} (carried : value ∈ action.values) : ∃ store, quality.fine store value := by
  induction actions generalizing store with
  | nil => exact absurd member List.not_mem_nil
  | cons first rest inductionHypothesis =>
    obtain ⟨carriesFirst, _, carriesRest⟩ := carries
    rcases List.mem_cons.mp member with rfl | behind
    · cases action with
      | bindParameter _ _ _ | declareVariable _ _ _ _ | update _ _ _ | declareFunction _ =>
        rw [List.mem_singleton.mp carried]
        exact ⟨_, carriesFirst⟩
      | callNative _ arguments => exact ⟨_, carriesFirst value carried⟩
      | openScope _ | print _ | record _ => exact absurd carried List.not_mem_nil
    · exact inductionHypothesis carriesRest behind

/-- A print statement prints the value of its expression and a newline. -/
theorem execute_print {fuel : Nat} {scope : ScopeId} {expression : Expr} {machine reached : Machine}
    {value : Value} (ends : evaluate fuel scope expression machine = (.value value, reached)) :
    execute (fuel + 1) scope (.print expression) machine =
      (.value .normal, reached.print (value.text ++ "\n")) :=
  Run.bind_of_value ends

/-- In a session on a new machine whose clock shows words, the values that are bound in any state,
that are stored or passed by any action, and that any expression or `return` yields are well formed,
and a print statement prints a well-formed value, a string exactly as it is. -/
theorem values_wellFormed (fuel : Nat) (sources : List String) (text : String) {clock : Nat → Int}
    (shown : ∀ tick, Word.InRange (clock tick)) (debugLevel : Nat) :
    let start := Machine.start (.start text clock) debugLevel
    let actions := Course.runSources fuel sources start
    Session.runSources fuel sources start = start.performAll actions ∧
      (∀ before after, actions = before ++ after → ∀ id scope binding,
        (start.performAll before).store.scope? id = some scope → binding ∈ scope.bindings →
        binding.value.WellFormed) ∧
      (∀ action ∈ actions, ∀ value ∈ action.values, value.WellFormed) ∧
      (∀ moment, Session.Visits fuel sources start moment →
        ∀ result, moment.Yields result → result.WellFormed) ∧
      ∀ less scope expression machine reached value,
        Session.Visits fuel sources start
          ⟨less + 1, scope, .statement (.print expression), machine⟩ →
        evaluate less scope expression machine = (.value value, reached) →
        value.WellFormed ∧ (∀ text, value = .string text → value.text = text) ∧
          execute (less + 1) scope (.print expression) machine =
            (.value .normal, reached.print (value.text ++ "\n")) := by
  intro start actions
  have wide : ∀ value, Word.InRange value → Word.InRange value := fun _ inRange => inRange
  have holds := Session.sound_start wide sources text shown debugLevel
  have built := Session.built_hasToken sources
  have carries : start.store.Carries
      (.sound wide (Session.HasToken sources) Session.wellSpelled_of_hasToken) actions :=
    Session.carries_sound wide fuel sources text shown debugLevel
  have yields : ∀ moment, Session.Visits fuel sources start moment →
      ∀ result, moment.Yields result → result.WellFormed := by
    intro moment visits result result_eq
    exact Value.wellFormed_of_regular ((visits.fits built holds).fine result_eq).regular
  refine ⟨Session.runSources_eq fuel sources start, ?bound, ?carried, yields, ?printed⟩
  case bound =>
    intro before after split id scope binding found member
    rw [split] at carries
    have holdsBefore := holds.performAll (Store.carries_append.mp carries).1
    exact Value.wellFormed_of_regular (holdsBefore.sealed.binds trivial found member).regular
  case carried =>
    intro action member value carried
    obtain ⟨_, sound⟩ := carries.fine member carried
    exact Value.wellFormed_of_regular sound.regular
  case printed =>
    intro less scope expression machine reached value visits ends
    have operand : Moment.Leads ⟨less + 1, scope, .statement (.print expression), machine⟩
        ⟨less, scope, .expression expression, machine⟩ :=
      @Moment.Leads.operand less scope _ machine machine [] [] expression [] trivial rfl rfl
    have wellFormed := yields _ (visits.inner operand) value (congrArg Prod.fst ends)
    refine ⟨wellFormed, fun text same => ?_, execute_print ends⟩
    subst same
    exact wellFormed.text_string

theorem scan_overflow : Lexer.scan "var x = 9223372036854775807 + 1;" =
    ⟨⟨[⟨.var, "var", 1⟩, ⟨.identifier, "x", 1⟩, ⟨.equal, "=", 1⟩,
      ⟨.number, "9223372036854775807", 1⟩, ⟨.plus, "+", 1⟩, ⟨.number, "1", 1⟩,
      ⟨.semicolon, ";", 1⟩], ⟨.eof, "", 1⟩⟩, []⟩ := by
  decide +kernel

/-- The successor of the largest word is bound as the smallest word. -/
theorem values_wellFormed_overflow :
    let start := Machine.start (.start "" fun _ => 0) 0
    let reached := Session.runSources 5 ["var x = 9223372036854775807 + 1;"] start
    ∃ scope binding, reached.store.scope? globalScope = some scope ∧ binding ∈ scope.bindings ∧
      binding.value.isInt = true ∧ binding.value.text = "-9223372036854775808" ∧
      binding.value.WellFormed := by
  intro start reached
  have shown : ∀ tick : Nat, Word.InRange ((fun _ => 0 : Nat → Int) tick) := by
    intro tick
    show Word.InRange 0
    decide
  obtain ⟨ends, bound, _⟩ :=
    values_wellFormed 5 ["var x = 9223372036854775807 + 1;"] "" shown 0
  have wraps : (reached.store.scope? globalScope).any (fun scope =>
      scope.bindings.any fun binding =>
        binding.value.isInt && binding.value.text = "-9223372036854775808") = true := by
    simp only [reached, Session.runSources, Session.runSource, scan_overflow]
    decide +kernel
  obtain ⟨scope, found, holds⟩ := (Option.any_eq_true _ _).mp wraps
  obtain ⟨binding, member, isWord⟩ := List.any_eq_true.mp holds
  obtain ⟨isInt, text⟩ := Bool.and_eq_true_iff.mp isWord
  refine ⟨scope, binding, found, member, isInt, of_decide_eq_true text, ?_⟩
  have all := bound _ [] (List.append_nil _).symm
  rw [← ends] at all
  exact all globalScope scope binding found member

end Lox
