/-
This file proves that `parseString` undoes `toString`. A text is read as an
integer exactly if it is a signed numeral of a word but for its quotation marks,
and the text of a word is one of that word. A text is read as a string by taking
its quotation marks away, and what a program computes is written without any.
-/

import Lox.Proofs.Numbers.Signed
import Lox.Proofs.Values.WellFormed

namespace Lox

/-! ### What sessions compute -/

/-- The session computes the value: it is bound in one of its states, stored or passed by one of its
actions, or comes of what is evaluated or executed at one of its moments. -/
inductive Session.Computes (fuel : Nat) (sources : List String) (start : Machine) : Value → Prop
  | bound {before after : List Action} {id : ScopeId} {scope : Scope} {binding : Binding} :
    Course.runSources fuel sources start = before ++ after →
    (start.performAll before).store.scope? id = some scope → binding ∈ scope.bindings →
    Computes fuel sources start binding.value
  | carried {action : Action} {value : Value} :
    action ∈ Course.runSources fuel sources start → value ∈ action.values →
    Computes fuel sources start value
  | yielded {moment : Moment} {value : Value} :
    Session.Visits fuel sources start moment → moment.Yields value →
    Computes fuel sources start value

/-- What a session on a new machine computes is written in plain text, whatever its clock shows. -/
theorem Session.Computes.plain_text {fuel : Nat} {sources : List String} {text : String}
    {clock : Nat → Int} {debugLevel : Nat} {value : Value}
    (computes : Computes fuel sources (Machine.start (.start text clock) debugLevel) value) :
    Text.Plain value.text.toList := by
  have wide : ∀ value, Word.InRange value → True := fun _ _ => trivial
  have holds := @Session.sound_start _ wide sources text clock (fun _ => trivial) debugLevel
  have carries :=
    @Session.carries_sound _ wide fuel sources text clock (fun _ => trivial) debugLevel
  dsimp only at carries
  cases computes with
  | bound split found member =>
    rw [split] at carries
    have holdsBefore := holds.performAll (Store.carries_append.mp carries).1
    exact (holdsBefore.sealed.binds trivial found member).plain_text
  | carried member carried =>
    obtain ⟨_, sound⟩ := carries.fine member carried
    exact sound.plain_text
  | yielded visits yields =>
    exact ((visits.fits (Session.built_hasToken sources) holds).fine yields).plain_text

/-! ### Reading texts -/

namespace Native

theorem call_toText (value : Value) (inputs : Inputs) :
    call .toText [value] inputs = (.ok (.string value.text), inputs) := rfl

/-- The name of a type is read without its quotation marks, too. -/
theorem call_parseText {type : String} (unquoted : '"' ∉ type.toList) (text : String)
    (inputs : Inputs) :
    call .parseText [.string type, .string text] inputs =
      (parseAs type (Value.withoutQuotes text), inputs) := by
  show (parseAs (Value.withoutQuotes type) (Value.withoutQuotes text), inputs) = _
  rw [Value.withoutQuotes_of_notMem unquoted]

theorem parseAs_int (text : String) :
    parseAs "int" text = converted text .int ((parseInt? text).map .int) := rfl

theorem parseAs_float (text : String) :
    parseAs "float" text = converted text .float ((parseFloat? text).map .float) := rfl

theorem parseAs_string (text : String) : parseAs "string" text = .ok (.string text) := rfl

/-- A signed numeral of a word is read as what it denotes. -/
theorem parseAs_int_of_signed {text : String} {value : Int}
    (signed : Decimal.Signed text.toList value) (inRange : Word.InRange value) :
    parseAs "int" text = .ok (.int value) := by
  rw [parseAs_int, parseInt?_eq_some_iff.mpr ⟨signed, inRange⟩]
  rfl

/-- Any other text is not read as an integer. -/
theorem parseAs_int_of_not_signed {text : String}
    (others : ∀ value, Decimal.Signed text.toList value → ¬ Word.InRange value) :
    parseAs "int" text = .error (.cannotConvert text .int) := by
  have none : parseInt? text = none := by
    refine Option.eq_none_iff_forall_ne_some.mpr fun value parses => ?_
    obtain ⟨signed, inRange⟩ := parseInt?_eq_some_iff.mp parses
    exact others value signed inRange
  rw [parseAs_int, none]
  rfl

theorem message_cannotConvert_int (text : String) :
    (NativeFault.cannotConvert text .int).message = "Cannot convert '" ++ text ++ "' to int." := by
  have behind : "' to int." = "' to " ++ "int" ++ "." := by decide +kernel
  show "Cannot convert '" ++ text ++ "' to " ++ "int" ++ "." = _
  rw [behind]
  simp only [String.append_assoc]

/-- Reading undoes writing. A word that is written and read as an integer comes back. Any text is
read as the word that it denotes as a signed numeral, its quotation marks left out, and is refused
if there is none. What a session computes, written and read as a string, stays as it was written. -/
theorem parseText_undoes_toText (inputs : Inputs) :
    (∀ value, Word.InRange value → ∃ written,
      call .toText [.int value] inputs = (.ok written, inputs) ∧
        call .parseText [.string "int", written] inputs = (.ok (.int value), inputs)) ∧
      (∀ text,
        let unquoted := Value.withoutQuotes text
        let read := call .parseText [.string "int", .string text] inputs
        (∀ value, Decimal.Signed unquoted.toList value → Word.InRange value →
          read = (.ok (.int value), inputs)) ∧
        ((∀ value, Decimal.Signed unquoted.toList value → ¬ Word.InRange value) →
          ∃ fault, read = (.error fault, inputs) ∧
            fault.message = "Cannot convert '" ++ unquoted ++ "' to int.")) ∧
      ∀ fuel sources text clock debugLevel value,
        Session.Computes fuel sources (Machine.start (.start text clock) debugLevel) value →
        ∃ written, call .toText [value] inputs = (.ok written, inputs) ∧
          call .parseText [.string "string", written] inputs = (.ok written, inputs) := by
  have int : '"' ∉ "int".toList := by decide
  have string : '"' ∉ "string".toList := by decide
  refine ⟨?words, ?texts, ?computed⟩
  case words =>
    intro value inRange
    have plain : Text.Plain (Value.int value).text.toList := Text.plain_decimalText value
    refine ⟨_, call_toText _ _, ?_⟩
    rw [call_parseText int, Value.withoutQuotes_of_notMem fun quote => (plain _ quote).1 rfl,
      parseAs_int_of_signed (Decimal.signed_text value) inRange]
  case texts =>
    intro text unquoted read
    have reads : read = (parseAs "int" unquoted, inputs) := call_parseText int text inputs
    refine ⟨fun value signed inRange => ?_,
      fun others => ⟨_, ?_, message_cannotConvert_int unquoted⟩⟩
    · rw [reads, parseAs_int_of_signed signed inRange]
    · rw [reads, parseAs_int_of_not_signed others]
  case computed =>
    intro fuel sources text clock debugLevel value computes
    have plain := computes.plain_text
    refine ⟨_, call_toText _ _, ?_⟩
    rw [call_parseText string, Value.withoutQuotes_of_notMem fun quote => (plain _ quote).1 rfl,
      parseAs_string]

/-- The smallest word comes back, its magnitude alone is refused, zeros and quotation marks do not
count, and a native is written without quotation marks. -/
theorem parseText_undoes_toText_least :
    let inputs := Inputs.start "" fun _ => 0
    (∃ written, call .toText [.int Word.least] inputs = (.ok written, inputs) ∧
      call .parseText [.string "int", written] inputs = (.ok (.int Word.least), inputs)) ∧
      call .parseText [.string "int", .string "+\"0\"07"] inputs = (.ok (.int 7), inputs) ∧
      (∃ fault, call .parseText [.string "int", .string "9223372036854775808"] inputs =
        (.error fault, inputs)) ∧
      Session.Computes 0 [] (Machine.start inputs 0) (.native .clock) ∧
      ∃ written, call .toText [.native .clock] inputs = (.ok written, inputs) ∧
        call .parseText [.string "string", written] inputs = (.ok written, inputs) := by
  intro inputs
  obtain ⟨words, texts, computed⟩ := parseText_undoes_toText inputs
  have seven : Decimal.Signed (Value.withoutQuotes "+\"0\"07").toList 7 :=
    Decimal.signed_iff.mpr (by decide +kernel)
  have tooLarge : Decimal.Signed (Value.withoutQuotes "9223372036854775808").toList
      9223372036854775808 := Decimal.signed_iff.mpr (by decide +kernel)
  have computes : Session.Computes 0 [] (Machine.start inputs 0) (.native .clock) :=
    @Session.Computes.bound 0 [] (Machine.start inputs 0) [] [] globalScope _
      ⟨"clock", .native .clock, false⟩ rfl rfl List.mem_cons_self
  refine ⟨words _ (by decide), (texts _).1 7 seven (by decide), ?_, computes,
    computed 0 [] "" _ 0 _ computes⟩
  obtain ⟨fault, refused, _⟩ := (texts "9223372036854775808").2 fun value signed inRange =>
    absurd (signed.unique tooLarge ▸ inRange) (by decide)
  exact ⟨fault, refused⟩

end Native

end Lox
