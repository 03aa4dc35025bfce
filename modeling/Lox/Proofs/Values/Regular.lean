/-
This file proves that the values of programs are regular: their integers are in
range, and their strings have neither quotation marks nor newlines. Integers
come from literals, from arithmetic that wraps, from text that is read, and
from the clock; strings come from the source, from the console, from printed
values and from other strings.

The range of integers is left open as long as it has all words in it, because
what the clock shows is not up to the program.
-/

import Lox.Proofs.Course.Moments
import Lox.Proofs.Scopes.Anchors
import Lox.Proofs.Token.Lexemes
import Lox.Proofs.Values.Faults

namespace Lox

open Token (Kind)

/-! ### Regular values -/

/-- Integers are in the range, and strings are plain. -/
def Value.Regular (range : Int → Prop) : Value → Prop
  | .int value => range value
  | .string text => Text.Plain text.toList
  | .nil | .boolean _ | .float _ | .function _ | .native _ => True

theorem Meets.imp {ε α : Type} {fine better : α → Prop} {allowed permitted : ε → Prop}
    {result : Except ε α} (meets : Meets fine allowed result)
    (better_of_fine : ∀ value, result = .ok value → fine value → better value)
    (permitted_of_allowed : ∀ fault, allowed fault → permitted fault) :
    Meets better permitted result := by
  cases result with
  | ok value => exact better_of_fine value rfl meets
  | error fault => exact permitted_of_allowed fault meets

variable {range : Int → Prop} (wide : ∀ value, Word.InRange value → range value)

/-! ### Literals -/

include wide in
theorem Literal.regular_ofNumber (lexeme : String) :
    (Literal.ofNumber lexeme).value.Regular range := by
  unfold ofNumber
  dsimp only
  split
  · next small =>
    refine wide _ ⟨?_, small.2⟩
    exact Int.le_trans (by decide) (Int.natCast_nonneg _)
  · trivial

include wide in
theorem Literal.regular_of_atom {token : Token} {literal : Literal} (spelled : token.WellSpelled)
    (atom : Grammar.Atom token (.literal literal)) : literal.value.Regular range := by
  cases atom with
  | false _ | true _ | nil _ => trivial
  | string kind =>
    show Text.Plain (String.ofList _).toList
    rw [String.toList_ofList]
    exact spelled.plain_string kind
  | number _ => exact regular_ofNumber wide token.lexeme

/-! ### Operators -/

namespace Operator

variable {operator : Token}

include wide in
theorem meets_unary {operand : Value} (sign : operator.kind ∈ signKinds) :
    Meets (Value.Regular range) (·.FoundAt operator) (unary operator operand) := by
  unfold unary
  split
  · trivial
  · next notBang =>
    split
    · exact wide _ (Word.inRange_wrap _)
    · trivial
    · refine .operandNotNumber ?_
      rcases List.mem_cons.mp sign with bang | minus
      · exact absurd bang notBang
      · exact List.mem_singleton.mp minus

include wide in
theorem meets_onInts {left right : Int} (numeric : operator.kind ∈ numericKinds) :
    Meets (Value.Regular range) (·.FoundAt operator) (onInts operator left right) := by
  have wrapped (value : Int) : (Value.int (Word.wrap value)).Regular range :=
    wide _ (Word.inRange_wrap value)
  unfold onInts
  split
  · exact wrapped _
  · exact wrapped _
  · exact wrapped _
  · split
    · exact wrapped _
    · trivial
  · next percent =>
    split
    · exact .divisionByZero percent
    · exact wrapped _
  · trivial
  · trivial
  · trivial
  · trivial
  · simp_all [numericKinds]

theorem meets_onFloats {left right : Binary64} (numeric : operator.kind ∈ numericKinds) :
    Meets (Value.Regular range) (·.FoundAt operator) (onFloats operator left right) := by
  unfold onFloats
  split
  all_goals first
    | trivial
    | simp_all [numericKinds]

include wide in
theorem meets_onNumbers (pair : NumberPair) (numeric : operator.kind ∈ numericKinds) :
    Meets (Value.Regular range) (·.FoundAt operator) (onNumbers operator pair) := by
  cases pair with
  | ints left right => exact meets_onInts wide numeric
  | floats left right => exact meets_onFloats numeric

include wide in
theorem meets_binary {left right : Value} (isBinary : operator.kind ∈ binaryKinds)
    (regularLeft : left.Regular range) (regularRight : right.Regular range) :
    Meets (Value.Regular range) (·.FoundAt operator) (binary operator left right) := by
  unfold binary
  split
  · trivial
  · trivial
  · next plus =>
    have numeric : operator.kind ∈ numericKinds := by
      rw [plus]
      decide
    split
    · show Text.Plain (_ ++ _ : String).toList
      rw [String.toList_append]
      exact regularLeft.append regularRight
    · split
      · exact meets_onNumbers wide _ numeric
      · exact .operandsNotNumbersOrStrings plus
  · next notEqual notUnequal _ =>
    have split : ∀ kind ∈ binaryKinds,
        kind = .equalEqual ∨ kind = .bangEqual ∨ kind ∈ numericKinds := by decide
    have numeric := ((split _ isBinary).resolve_left notEqual).resolve_left notUnequal
    split
    · exact meets_onNumbers wide _ numeric
    · exact .operandsNotNumbers numeric

end Operator

/-! ### Natives -/

/-- A function is printed with its name. -/
theorem Value.Regular.plain_text {value : Value} (regular : value.Regular range)
    (named : ∀ closure, value = .function closure → Text.Plain closure.name.toList) :
    Text.Plain value.text.toList := by
  cases value with
  | nil => exact (by decide : Text.Plain "nil".toList)
  | native _ => exact (by decide : Text.Plain "<native fn>".toList)
  | boolean value => cases value <;> decide
  | int value => exact Text.plain_decimalText value
  | float value => exact Text.plain_floatText value
  | string text => exact Text.plain_withoutQuotes regular.oneLine
  | function closure =>
    show Text.Plain ("<fn " ++ closure.name ++ ">").toList
    rw [String.toList_append, String.toList_append]
    exact (Text.Plain.append (by decide) (named closure rfl)).append (by decide)

namespace Native

theorem inRange_of_parseInt? {text : String} {value : Int}
    (parses : parseInt? text = some value) : Word.InRange value := by
  simp only [parseInt?, Option.ite_none_right_eq_some, Option.some.injEq] at parses
  obtain ⟨_, inRange, rfl⟩ := parses
  exact inRange

theorem meets_converted {text : String} {type : ParsedType} {value? : Option Value}
    (regular : ∀ value ∈ value?, value.Regular range) :
    Meets (Value.Regular range) (· ≠ .argumentCount) (converted text type value?) := by
  cases value? with
  | none => exact nofun
  | some value => exact regular value rfl

include wide in
theorem meets_parseAs {type text : String} (plain : Text.Plain text.toList) :
    Meets (Value.Regular range) (· ≠ .argumentCount) (parseAs type text) := by
  unfold parseAs
  split
  · refine meets_converted fun value found => ?_
    obtain ⟨number, parses, rfl⟩ := Option.map_eq_some_iff.mp found
    exact wide number (inRange_of_parseInt? parses)
  · refine meets_converted fun value found => ?_
    obtain ⟨_, _, rfl⟩ := Option.map_eq_some_iff.mp found
    trivial
  · refine meets_converted fun value found => ?_
    obtain ⟨_, _, rfl⟩ := Option.map_eq_some_iff.mp found
    trivial
  · exact plain
  · exact nofun

theorem meets_hasType (type : String) (subject : Value) :
    Meets (Value.Regular range) (· ≠ .argumentCount) (hasType type subject) := by
  unfold hasType
  split
  · trivial
  · exact nofun

include wide in
/-- With the right number of arguments a native has a regular value or a fault of its own. -/
theorem meets_pureResult {native : Native} {arguments : List Value}
    (reads : native ≠ .clock ∧ native ≠ .input) (counted : arguments.length = native.arity)
    (regular : ∀ argument ∈ arguments, argument.Regular range)
    (plain : ∀ argument ∈ arguments, Text.Plain argument.text.toList) :
    Meets (Value.Regular range) (· ≠ .argumentCount) (native.pureResult arguments) := by
  unfold pureResult
  split
  · exact plain _ List.mem_cons_self
  · next type text =>
    refine meets_parseAs wide (Text.plain_withoutQuotes ?_)
    exact Text.Plain.oneLine (regular (.string text) (List.mem_cons_of_mem _ List.mem_cons_self))
  · exact nofun
  · exact meets_hasType _ _
  · exact nofun
  · next notText _ notParse _ notAsk =>
    -- the patterns above take every other native with its number of arguments
    exfalso
    cases native with
    | clock => exact reads.1 rfl
    | input => exact reads.2 rfl
    | toText =>
      obtain ⟨value, rfl⟩ := List.length_eq_one_iff.mp counted
      exact notText value [] rfl rfl
    | parseText =>
      match arguments, counted, notParse with
      | [first, second], _, notParse => exact notParse first second rfl rfl
    | isInstance =>
      match arguments, counted, notAsk with
      | [first, second], _, notAsk => exact notAsk first second rfl rfl

end Native

/-! ### Inputs -/

/-- What the clock shows is in range, and the console is cut into lines. -/
structure Inputs.Regular (range : Int → Prop) (inputs : Inputs) : Prop where
  clock (tick : Nat) : range (inputs.clock tick)
  console : inputs.console.Split

theorem Inputs.Regular.call {inputs : Inputs} (regular : inputs.Regular range) (native : Native)
    (arguments : List Value) : (native.call arguments inputs).2.Regular range := by
  cases native with
  | input => exact ⟨regular.clock, regular.console.readLine.2⟩
  | clock => exact ⟨regular.clock, regular.console⟩
  | toText | parseText | isInstance => exact regular

include wide in
theorem Native.meets_call {native : Native} {arguments : List Value} {inputs : Inputs}
    (inputsRegular : inputs.Regular range) (counted : arguments.length = native.arity)
    (regular : ∀ argument ∈ arguments, argument.Regular range)
    (plain : ∀ argument ∈ arguments, Text.Plain argument.text.toList) :
    Meets (Value.Regular range) (· ≠ .argumentCount) (native.call arguments inputs).1 := by
  cases native with
  | clock => exact inputsRegular.clock inputs.ticks
  | input => exact inputsRegular.console.readLine.1
  | toText | parseText | isInstance =>
    exact meets_pureResult wide ⟨nofun, nofun⟩ counted regular plain

/-! ### Sound values -/

/-- A function that was declared in a scope that exists, under the name and with the body of a
program made of good tokens. -/
structure Closure.Sound (good : Token → Prop) (store : Store) (closure : Closure) : Prop where
  older : closure.scope < store.size
  named : Text.Plain closure.name.toList
  built : ∀ statement ∈ closure.body, statement.Built (.ofTokens good)

/-- A value that is regular, and sound if it is a function. -/
structure Value.Sound (range : Int → Prop) (good : Token → Prop) (store : Store) (value : Value) :
    Prop where
  regular : value.Regular range
  closure (closure : Closure) (same : value = .function closure) : closure.Sound good store

theorem Value.Sound.plain_text {good : Token → Prop} {store : Store} {value : Value}
    (sound : value.Sound range good store) : Text.Plain value.text.toList :=
  sound.regular.plain_text fun closure same => (sound.closure closure same).named

theorem Value.NoFunction.sound {good : Token → Prop} {value : Value}
    (noFunction : value.NoFunction) (regular : value.Regular range) (store : Store) :
    value.Sound range good store :=
  ⟨regular, fun closure same => absurd same (noFunction closure)⟩

/-- A fault of the right line, at a good token where it can be found. -/
def RuntimeError.FoundIn (good : Token → Prop) (error : RuntimeError) : Prop :=
  ∃ token, good token ∧ token.line = error.line ∧ error.fault.FoundAt token

/-- To be sound is handed on by all that programs made of good tokens do. -/
def Quality.sound (good : Token → Prop) (spelled : ∀ token, good token → token.WellSpelled) :
    Quality where
  parts := .ofTokens good
  ready := Inputs.Regular range
  region _ := True
  base := 0
  fine store value := value.Sound range good store
  allowed := RuntimeError.FoundIn good
  region_of_base_le _ := trivial
  nil store := (Literal.noFunction_value .nil).sound trivial store
  literal plain := by
    refine (Literal.noFunction_value _).sound ?_ _
    rcases plain with rfl | ⟨token, isGood, atom⟩
    · trivial
    · exact Literal.regular_of_atom wide (spelled token isGood) atom
  unary sign _ :=
    (Operator.meets_unary wide sign.2).imp
      (fun _ computes regular => (Operator.noFunction_unary computes).sound regular _)
      fun _ found => ⟨_, sign.1, rfl, found⟩
  binary isBinary leftSound rightSound :=
    (Operator.meets_binary wide isBinary.2 leftSound.regular rightSound.regular).imp
      (fun _ computes regular => (Operator.noFunction_binary computes).sound regular _)
      fun _ found => ⟨_, isBinary.1, rfl, found⟩
  native closing inputsRegular sound counted :=
    (Native.meets_call wide inputsRegular counted (fun _ member => (sound _ member).regular)
      fun _ member => (sound _ member).plain_text).imp
      (fun _ computes regular => (Native.noFunction_call computes).sound regular _)
      fun _ own => ⟨_, closing.1, rfl, .native closing.2 own⟩
  ready_call regular native arguments := regular.call native arguments
  perform sound action :=
    ⟨sound.regular, fun closure same =>
      { sound.closure closure same with
        older := Nat.lt_of_lt_of_le (sound.closure closure same).older
          (Store.size_perform _ action) }⟩
  declare named _ older built := by
    refine ⟨trivial, fun closure same => ?_⟩
    cases same
    exact ⟨Nat.lt_of_lt_of_le older (Store.size_perform _ _),
      (spelled _ named.1).plain_identifier named.2, built⟩
  function sound := by
    have closure := sound.closure _ rfl
    exact ⟨trivial, closure.older, closure.built⟩
  undefined named := ⟨_, named.1, rfl, .undefinedVariable named.2⟩
  constant named := ⟨_, named.1, rfl, .constantReassigned named.2⟩
  declared named := ⟨_, named.1, rfl, .alreadyDeclared named.2⟩
  notCallable closing := ⟨_, closing.1, rfl, .notCallable closing.2⟩
  argumentCount closing miscounted := ⟨_, closing.1, rfl, .argumentCount closing.2 miscounted⟩

/-! ### Sessions -/

namespace Session

/-- The token is one of the tokens of a source of the session. -/
def HasToken (sources : List String) (token : Token) : Prop :=
  ∃ source ∈ sources, token ∈ (Lexer.scan source).stream.tokens

theorem wellSpelled_of_hasToken {sources : List String} (token : Token)
    (has : HasToken sources token) : token.WellSpelled := by
  obtain ⟨source, _, member⟩ := has
  exact Lexer.wellSpelled_of_mem_scan token member

/-- The programs of a session are made of tokens of its sources. -/
theorem built_hasToken (sources : List String) :
    Session.Built (.ofTokens (HasToken sources)) sources :=
  fun source member clean =>
    Program.built (fun _ inside => ⟨source, member, inside⟩) clean

/-- Of a session on a new machine all values are sound. -/
theorem sound_start (sources : List String) (text : String) {clock : Nat → Int}
    (shown : ∀ tick, range (clock tick)) (debugLevel : Nat) :
    (Quality.sound wide (HasToken sources) wellSpelled_of_hasToken).Holds globalScope
      (Machine.start (.start text clock) debugLevel) :=
  Quality.holds_start debugLevel trivial rfl (fun _ => ⟨trivial, fun _ => nofun⟩)
    ⟨shown, Console.split_ofText text⟩

theorem carries_sound (fuel : Nat) (sources : List String) (text : String) {clock : Nat → Int}
    (shown : ∀ tick, range (clock tick)) (debugLevel : Nat) :
    let start := Machine.start (.start text clock) debugLevel
    start.store.Carries (Quality.sound wide (HasToken sources) wellSpelled_of_hasToken)
      (Course.runSources fuel sources start) :=
  Course.carries_runSources fuel (built_hasToken sources) (sound_start wide sources text shown _)

end Session

end Lox
