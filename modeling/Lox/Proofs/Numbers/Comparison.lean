/-
This file proves that the comparisons put all numbers in one order, although two
integers are compared exactly and any other pair as doubles. Every comparison
tests two places: those of the integers themselves, or those of the doubles.
Integers keep their order as doubles, so a chain of numbers ascends whichever
way its pairs are read. Different integers may be one double, so equality is
not transitive.
-/

import Lox.Proofs.Numbers.Rounding

namespace Lox

open Token (Kind)

/-! ### Places of numbers -/

/-- The places at which two numbers of one type are compared. -/
def NumberPair.places? : NumberPair → Option (Int × Int)
  | .ints left right => some (left, right)
  | .floats left right =>
    left.place?.bind fun first => right.place?.map fun second => (first, second)

namespace Value

/-- The number is NaN. -/
def isNaN : Value → Bool
  | .float .nan => true
  | _ => false

/-- The place of a number among the doubles. -/
def place? (value : Value) : Option Int := value.toFloat?.bind Binary64.place?

/-- The places at which two numbers are compared. -/
def places? (left right : Value) : Option (Int × Int) :=
  (NumberPair.of? left right).bind NumberPair.places?

variable {value left right third : Value}

/-- A number is an integer or a double. -/
theorem cases_of_isNumber (number : value.isNumber = true) :
    (∃ integer, value = .int integer) ∨ ∃ double, value = .float double := by
  cases value with
  | int integer => exact .inl ⟨integer, rfl⟩
  | float double => exact .inr ⟨double, rfl⟩
  | nil | boolean _ | string _ | function _ | native _ => cases number

/-- NaN alone has no place. -/
theorem isSome_place? (number : value.isNumber = true) : value.place?.isSome = !value.isNaN := by
  rcases cases_of_isNumber number with ⟨integer, rfl⟩ | ⟨double, rfl⟩
  · show (Binary64.ofInt integer).place?.isSome = true
    rw [Binary64.place?_ofInt, Option.isSome_some]
  · cases double <;> rfl

section

variable (leftNumber : left.isNumber = true) (rightNumber : right.isNumber = true)

include leftNumber rightNumber

/-- Two numbers are compared as the integers that they are, or at the places of their doubles. -/
theorem places?_cases :
    (∃ first second, left = .int first ∧ right = .int second) ∨
    left.places? right =
      left.place?.bind fun first => right.place?.map fun second => (first, second) := by
  rcases cases_of_isNumber leftNumber with ⟨first, rfl⟩ | ⟨first, rfl⟩ <;>
    rcases cases_of_isNumber rightNumber with ⟨second, rfl⟩ | ⟨second, rfl⟩
  · exact .inl ⟨first, second, rfl, rfl⟩
  all_goals exact .inr rfl

/-- Two numbers are compared unless one of them is NaN. -/
theorem isSome_places? : (left.places? right).isSome = (!left.isNaN && !right.isNaN) := by
  rcases places?_cases leftNumber rightNumber with ⟨first, second, rfl, rfl⟩ | places
  · rfl
  · rw [places, ← isSome_place? leftNumber, ← isSome_place? rightNumber]
    cases left.place? <;> cases right.place? <;> rfl

/-- The places are the same whichever number stands first. -/
theorem places?_swap : right.places? left = (left.places? right).map Prod.swap := by
  rcases places?_cases leftNumber rightNumber with ⟨first, second, rfl, rfl⟩ | places
  · rfl
  · rcases places?_cases rightNumber leftNumber with ⟨second, first, rfl, rfl⟩ | swapped
    · rfl
    · rw [places, swapped]
      cases left.place? <;> cases right.place? <;> rfl

end

/-! ### Numbers that ascend -/

/-- The first number comes before the second where the two are compared. -/
def Precedes (left right : Value) : Prop :=
  ∃ places, left.places? right = some places ∧ places.1 < places.2

section

variable (leftNumber : left.isNumber = true) (rightNumber : right.isNumber = true)

include leftNumber rightNumber

/-- Of two ascending numbers the first has no larger double, and a smaller one unless both are
integers. -/
theorem Precedes.place_le (precedes : left.Precedes right) :
    ∃ first second, left.place? = some first ∧ right.place? = some second ∧ first ≤ second ∧
      (first < second ∨
        ∃ smaller larger, left = .int smaller ∧ right = .int larger ∧ smaller < larger) := by
  obtain ⟨⟨first, second⟩, found, ascend⟩ := precedes
  rcases places?_cases leftNumber rightNumber with ⟨smaller, larger, rfl, rfl⟩ | places
  · cases found
    exact ⟨_, _, Binary64.place?_ofInt first, Binary64.place?_ofInt second,
      Binary64.placeOfInt_mono (Int.le_of_lt ascend), .inr ⟨first, second, rfl, rfl, ascend⟩⟩
  · rw [places] at found
    obtain ⟨first, foundFirst, rest⟩ := Option.bind_eq_some_iff.mp found
    obtain ⟨second, foundSecond, same⟩ := Option.map_eq_some_iff.mp rest
    cases same
    exact ⟨first, second, foundFirst, foundSecond, Int.le_of_lt ascend, .inl ascend⟩

/-- Numbers whose doubles ascend do so themselves. -/
theorem precedes_of_place_lt {first second : Int} (foundFirst : left.place? = some first)
    (foundSecond : right.place? = some second) (ascend : first < second) :
    left.Precedes right := by
  rcases places?_cases leftNumber rightNumber with ⟨smaller, larger, rfl, rfl⟩ | places
  · refine ⟨_, rfl, Int.lt_of_not_ge fun descends => ?_⟩
    cases (Binary64.place?_ofInt smaller).symm.trans foundFirst
    cases (Binary64.place?_ofInt larger).symm.trans foundSecond
    exact Int.not_le.mpr ascend (Binary64.placeOfInt_mono descends)
  · refine ⟨(first, second), ?_, ascend⟩
    rw [places, foundFirst, foundSecond]
    rfl

theorem Precedes.asymm (precedes : left.Precedes right) : ¬ right.Precedes left := by
  rintro ⟨places, found, descend⟩
  obtain ⟨⟨first, second⟩, foundOnward, ascend⟩ := precedes
  rw [places?_swap leftNumber rightNumber, foundOnward] at found
  cases found
  exact Int.lt_asymm ascend descend

theorem Precedes.trans (thirdNumber : third.isNumber = true) (before : left.Precedes right)
    (behind : right.Precedes third) : left.Precedes third := by
  obtain ⟨first, second, foundFirst, foundSecond, onward, strict⟩ :=
    before.place_le leftNumber rightNumber
  obtain ⟨same, last, foundSame, foundLast, further, strictFurther⟩ :=
    behind.place_le rightNumber thirdNumber
  obtain rfl : second = same := Option.some.inj (foundSecond.symm.trans foundSame)
  have of_lt := precedes_of_place_lt leftNumber thirdNumber foundFirst foundLast
  rcases strict with ascend | ⟨smallest, middle, rfl, rfl, ascend⟩
  · exact of_lt (Int.lt_of_lt_of_le ascend further)
  · rcases strictFurther with ascendFurther | ⟨_, largest, isMiddle, rfl, ascendFurther⟩
    · exact of_lt (Int.lt_of_le_of_lt onward ascendFurther)
    · -- three integers, which are compared exactly
      cases isMiddle
      exact ⟨_, rfl, Int.lt_trans ascend ascendFurther⟩

end

end Value

/-! ### Answers of comparisons -/

namespace Operator

/-- The answer of the operators of a kind to two values. -/
def Answers (kind : Kind) (left right : Value) (answer : Bool) : Prop :=
  ∀ operator : Token, operator.kind = kind → binary operator left right = .ok (.boolean answer)

/-- The comparisons, less the one that is a negated one. -/
def comparisons : List Kind := [.less, .lessEqual, .greater, .greaterEqual, .equalEqual]

/-- What a comparison tests of two places. -/
def test : Kind → Int × Int → Bool
  | .less, (first, second) => first < second
  | .lessEqual, (first, second) => first ≤ second
  | .greater, (first, second) => second < first
  | .greaterEqual, (first, second) => second ≤ first
  | _, (first, second) => first = second

variable {kind : Kind} {left right : Value} {answer : Bool}

/-- The operators of a kind have one answer. -/
theorem Answers.unique {other : Bool} (answers : Answers kind left right answer)
    (same : Answers kind left right other) : answer = other := by
  cases (answers ⟨kind, "", 1⟩ rfl).symm.trans (same ⟨kind, "", 1⟩ rfl)
  rfl

theorem answers_equalEqual (left right : Value) :
    Answers .equalEqual left right (left.equal right) := fun operator kind => by
  simp only [binary, kind]

theorem answers_bangEqual (left right : Value) :
    Answers .bangEqual left right (!left.equal right) := fun operator kind => by
  simp only [binary, kind]

/-- The negated comparison has the other answer. -/
theorem answers_bangEqual_iff :
    Answers .bangEqual left right (!answer) ↔ Answers .equalEqual left right answer := by
  constructor
  · intro unequal
    rw [← Bool.not_inj ((answers_bangEqual left right).unique unequal)]
    exact answers_equalEqual left right
  · intro equal
    rw [← (answers_equalEqual left right).unique equal]
    exact answers_bangEqual left right

/-- The comparisons other than equality test the places of two numbers of one type. -/
theorem onNumbers_eq {operator : Token} (comparison : operator.kind ∈ comparisons)
    (notEqual : operator.kind ≠ .equalEqual) (pair : NumberPair) :
    onNumbers operator pair = .ok (.boolean (pair.places?.any (test operator.kind))) := by
  simp only [comparisons, List.mem_cons, List.not_mem_nil, or_false] at comparison
  rcases comparison with kind | kind | kind | kind | kind
  case inr.inr.inr.inr => exact absurd kind notEqual
  all_goals
    cases pair with
    | ints first second =>
      simp only [onNumbers, onInts, kind]
      rfl
    | floats first second =>
      simp only [onNumbers, onFloats, kind, Binary64.less, Binary64.lessOrEqual, NumberPair.places?]
      cases first.place? <;> cases second.place? <;> rfl

/-- Doubles are equal where their places are. -/
theorem same_eq (first second : Binary64) :
    first.same second = (NumberPair.floats first second).places?.any (test .equalEqual) := by
  simp only [Binary64.same, NumberPair.places?]
  cases first.place? <;> cases second.place? <;> rfl

section

variable (leftNumber : left.isNumber = true) (rightNumber : right.isNumber = true)

include leftNumber rightNumber

/-- Equality tests the places of two numbers too. -/
theorem equal_eq : left.equal right = (left.places? right).any (test .equalEqual) := by
  rcases Value.cases_of_isNumber leftNumber with ⟨first, rfl⟩ | ⟨first, rfl⟩ <;>
    rcases Value.cases_of_isNumber rightNumber with ⟨second, rfl⟩ | ⟨second, rfl⟩
  · rfl
  all_goals exact same_eq _ _

/-- A comparison of two numbers tests the places where they are compared, and does not hold if
there are none. -/
theorem answers_test (comparison : kind ∈ comparisons) :
    Answers kind left right ((left.places? right).any (test kind)) := by
  rintro operator rfl
  by_cases isEqual : operator.kind = .equalEqual
  · rw [isEqual, ← equal_eq leftNumber rightNumber]
    exact answers_equalEqual left right operator isEqual
  · have notUnequal : operator.kind ≠ .bangEqual := fun unequal => by
      rw [unequal] at comparison
      exact absurd comparison (by decide)
    obtain ⟨pair, numbers⟩ : ∃ pair, NumberPair.of? left right = some pair := by
      rcases Value.cases_of_isNumber leftNumber with ⟨first, rfl⟩ | ⟨first, rfl⟩ <;>
        rcases Value.cases_of_isNumber rightNumber with ⟨second, rfl⟩ | ⟨second, rfl⟩ <;>
        exact ⟨_, rfl⟩
    rw [binary_of_numbers isEqual notUnequal numbers, onNumbers_eq comparison isEqual,
      Value.places?, numbers, Option.bind_some]

theorem answers_iff (comparison : kind ∈ comparisons) :
    Answers kind left right answer ↔ (left.places? right).any (test kind) = answer := by
  have answers := answers_test leftNumber rightNumber comparison
  exact ⟨answers.unique, fun same => same ▸ answers⟩

/-- The first number is less exactly if it comes before the second. -/
theorem answers_less_iff : Answers .less left right true ↔ left.Precedes right := by
  rw [answers_iff leftNumber rightNumber (by decide), Option.any_eq_true]
  exact exists_congr fun places => and_congr_right fun _ => decide_eq_true_iff

/-- A comparison that tests the same of the places in the other order is the other way round. -/
theorem answers_converse_iff {converse : Kind} (comparison : kind ∈ comparisons)
    (other : converse ∈ comparisons)
    (swapped : (fun places : Int × Int => test converse places.swap) = test kind) :
    Answers kind left right answer ↔ Answers converse right left answer := by
  rw [answers_iff leftNumber rightNumber comparison, answers_iff rightNumber leftNumber other,
    Value.places?_swap leftNumber rightNumber, Option.any_map, swapped]

/-- Of two numbers with a place the first is less, equal or greater and only one of these. It is
less or equal exactly if it is one of the first two. -/
theorem answers_ordered (leftOrdered : left.isNaN = false) (rightOrdered : right.isNaN = false) :
    (Answers .less left right true ∧ Answers .equalEqual left right false ∧
        Answers .less right left false ∨
      Answers .less left right false ∧ Answers .equalEqual left right true ∧
        Answers .less right left false ∨
      Answers .less left right false ∧ Answers .equalEqual left right false ∧
        Answers .less right left true) ∧
    (Answers .lessEqual left right true ↔
      Answers .less left right true ∨ Answers .equalEqual left right true) := by
  have compared := Value.isSome_places? leftNumber rightNumber
  rw [leftOrdered, rightOrdered] at compared
  obtain ⟨⟨here, there⟩, found⟩ := Option.isSome_iff_exists.mp compared
  have onward {kind : Kind} (comparison : kind ∈ comparisons) (answer : Bool) :
      Answers kind left right answer ↔ test kind (here, there) = answer := by
    rw [answers_iff leftNumber rightNumber comparison, found, Option.any_some]
  have back (answer : Bool) :
      Answers .less right left answer ↔ test .greater (here, there) = answer := by
    rw [← onward (show .greater ∈ comparisons by decide)]
    exact (answers_converse_iff leftNumber rightNumber (by decide) (by decide) rfl).symm
  simp only [onward (show .less ∈ comparisons by decide),
    onward (show .equalEqual ∈ comparisons by decide),
    onward (show .lessEqual ∈ comparisons by decide), back, test, decide_eq_true_eq,
    decide_eq_false_iff_not]
  omega

/-- No comparison holds of NaN. -/
theorem answers_of_isNaN (unordered : left.isNaN = true ∨ right.isNaN = true)
    (comparison : kind ∈ comparisons) : Answers kind left right false := by
  have compared := Value.isSome_places? leftNumber rightNumber
  have none : left.places? right = none := by
    rcases unordered with isNaN | isNaN <;> simpa [isNaN] using compared
  rw [answers_iff leftNumber rightNumber comparison, none, Option.any_none]

end

/-- No number is less than itself. -/
theorem answers_less_self (number : left.isNumber = true) : Answers .less left left false := by
  have less_iff := answers_less_iff number number
  rw [answers_iff number number (by decide)] at less_iff ⊢
  rw [Bool.eq_false_iff, ne_eq, less_iff]
  exact fun precedes => precedes.asymm number number precedes

/-- The comparisons put all numbers in one order, integers, doubles and any mixture of them. Every
comparison of two numbers has an answer. No number is less than itself, and a chain of numbers in
which each is less than the next ascends from the first to the last. Greater is less the other way
round, and not less is not greater the other way round. Of two numbers that are not NaN the first
is less, equal or greater and only one of these, and less or equal if it is not greater. With NaN
on either side every comparison fails but the negated one. -/
theorem comparisons_order {first second third : Value} (isFirst : first.isNumber = true)
    (isSecond : second.isNumber = true) (isThird : third.isNumber = true) :
    (∀ kind ∈ comparisons, ∃ answer, Answers kind first second answer) ∧
    (∀ answer, Answers .bangEqual first second (!answer) ↔
      Answers .equalEqual first second answer) ∧
    Answers .less first first false ∧
    (Answers .less first second true → Answers .less second third true →
      Answers .less first third true) ∧
    (∀ answer, Answers .greater first second answer ↔ Answers .less second first answer) ∧
    (∀ answer, Answers .greaterEqual first second answer ↔
      Answers .lessEqual second first answer) ∧
    (first.isNaN = false → second.isNaN = false →
      (Answers .less first second true ∧ Answers .equalEqual first second false ∧
          Answers .less second first false ∨
        Answers .less first second false ∧ Answers .equalEqual first second true ∧
          Answers .less second first false ∨
        Answers .less first second false ∧ Answers .equalEqual first second false ∧
          Answers .less second first true) ∧
      (Answers .lessEqual first second true ↔
        Answers .less first second true ∨ Answers .equalEqual first second true)) ∧
    (first.isNaN = true ∨ second.isNaN = true →
      (∀ kind ∈ comparisons, Answers kind first second false) ∧
        Answers .bangEqual first second true) := by
  refine ⟨fun kind comparison => ⟨_, answers_test isFirst isSecond comparison⟩,
    fun answer => answers_bangEqual_iff, answers_less_self isFirst, ?transitive,
    fun answer => answers_converse_iff isFirst isSecond (by decide) (by decide) rfl,
    fun answer => answers_converse_iff isFirst isSecond (by decide) (by decide) rfl,
    answers_ordered isFirst isSecond, fun unordered => ?unordered⟩
  case transitive =>
    rw [answers_less_iff isFirst isSecond, answers_less_iff isSecond isThird,
      answers_less_iff isFirst isThird]
    exact Value.Precedes.trans isFirst isSecond isThird
  case unordered =>
    have fails {kind : Kind} (comparison : kind ∈ comparisons) :
        Answers kind first second false :=
      answers_of_isNaN isFirst isSecond unordered comparison
    exact ⟨fun kind => fails, answers_bangEqual_iff.mpr (fails (by decide))⟩

/-- An integer, a double and an integer, each less than the next. The last one is none of the
doubles and is rounded up. -/
theorem comparisons_order_mixed :
    let first : Value := .int 9007199254740992
    let second : Value := .float (.ofInt 9007199254740994)
    let third : Value := .int 9007199254740995
    first.isNumber = true ∧ second.isNumber = true ∧ third.isNumber = true ∧
      Answers .less first second true ∧ Answers .less second third true ∧
      Answers .less first third true ∧ Answers .greater third first true := by
  intro first second third
  have onward : Answers .less first second true :=
    (answers_iff rfl rfl (by decide)).mpr (by decide +kernel)
  have further : Answers .less second third true :=
    (answers_iff rfl rfl (by decide)).mpr (by decide +kernel)
  obtain ⟨_, _, _, chain, _⟩ := @comparisons_order first second third rfl rfl rfl
  obtain ⟨_, _, _, _, greater, _⟩ := @comparisons_order third first second rfl rfl rfl
  have last := chain onward further
  exact ⟨rfl, rfl, rfl, onward, further, last, (greater true).mpr last⟩

end Operator

end Lox
