/-
This file computes binary operators with operations that may have no result: an
integer beyond all finite doubles has no double, and nothing can be divided by
zero. Each such operation stands behind a test.

The tests are enough for all integers that have a finite double, and so for all
words: the operators always have a result, and it is the one that programs
compute with.
-/

import Mathlib.Algebra.Group.Nat.Defs
import Lox.Proofs.Values.Regular

namespace Lox

/-! ### Partial operations -/

namespace Binary64

/-- The double is a zero. -/
def isZero : Binary64 → Bool
  | .nan => false
  | .number _ rank _ => rank = 0

/-- The double is an infinity. -/
def isInfinite : Binary64 → Bool
  | .nan => false
  | .number _ rank _ => rank = infinityRank

/-- The integer is not beyond all finite doubles. -/
def Covers (value : Int) : Prop := (ofInt value).isInfinite = false

/-- The double nearest to an integer, unless that is infinite. -/
def ofInt? (value : Int) : Option Binary64 :=
  if (ofInt value).isInfinite then none else some (ofInt value)

/-- The quotient by a double that is not zero. -/
def div? (left right : Binary64) : Option Binary64 :=
  if right.isZero then none else some (left.div right)

/-- The remainder of a finite double by one that is not zero. -/
def rem? (left right : Binary64) : Option Binary64 :=
  if right.isZero || left.isInfinite then none else some (left.rem right)

/-- A quotient that tests for a zero divisor. -/
def guardedDiv (left right : Binary64) : Option Binary64 :=
  if right.isZero then
    match left, right with
    | .number leftNegative leftRank _, .number rightNegative _ _ =>
      some (if leftRank = 0 then .nan else infinity (leftNegative != rightNegative))
    | _, _ => some .nan
  else
    left.div? right

/-- A remainder that tests for a zero divisor and an infinite dividend. -/
def guardedRem (left right : Binary64) : Option Binary64 :=
  if right.isZero || left.isInfinite then some .nan else left.rem? right

theorem guardedDiv_eq (left right : Binary64) : left.guardedDiv right = some (left.div right) := by
  unfold guardedDiv
  split
  · next zero =>
    cases left with
    | nan => rfl
    | number leftNegative leftRank leftBounded =>
      cases right with
      | nan => rfl
      | number rightNegative rightRank rightBounded =>
        have isZero : rightRank = 0 := of_decide_eq_true zero
        rw [div, if_pos isZero]
  · next notZero => exact if_neg notZero

theorem guardedRem_eq (left right : Binary64) : left.guardedRem right = some (left.rem right) := by
  unfold guardedRem
  split
  · next undefined =>
    cases left with
    | nan => rfl
    | number leftNegative leftRank leftBounded =>
      cases right with
      | nan => rfl
      | number rightNegative rightRank rightBounded =>
        have noRemainder : rightRank = 0 ∨ leftRank = infinityRank := by
          rcases Bool.or_eq_true_iff.mp undefined with zero | infinite
          · exact .inl (of_decide_eq_true zero)
          · exact .inr (of_decide_eq_true infinite)
        rw [rem, if_pos noRemainder]
  · next defined => exact if_neg defined

end Binary64

namespace Word

/-- The quotient by an integer that is not zero, rounded down. -/
def floorDiv? (left right : Int) : Option Int :=
  if right = 0 then none else some (left.fdiv right)

/-- The remainder that goes with the rounded quotient. -/
def floorMod? (left right : Int) : Option Int :=
  if right = 0 then none else some (left.fmod right)

end Word

/-! ### Words as doubles -/

/-- Rounding goes up by one at most. -/
theorem roundHalfEven_le_of_lt {numerator denominator bound : Nat}
    (below : numerator / denominator < bound) : roundHalfEven numerator denominator ≤ bound :=
  Nat.le_trans (roundHalfEven_floor numerator denominator).2 below

namespace Binary64

/-- A number of units that is not too long in binary rounds to a finite rank. -/
theorem nearestRank_lt {units length : Nat} (small : units < 2 ^ length) (short : length ≤ 2000) :
    nearestRank units 1 < infinityRank := by
  have binade_eq : binade = 2 ^ 52 := by decide
  unfold nearestRank
  rw [Nat.div_one]
  dsimp only
  refine Nat.lt_of_le_of_lt (Nat.min_le_left _ _) ?_
  split
  · next subnormal =>
    have rounded : roundHalfEven units (1 * Nat.pow 2 0) ≤ 2 * binade :=
      roundHalfEven_le_of_lt (by rwa [Nat.one_mul, Nat.pow_eq, Nat.pow_zero, Nat.div_one])
    unfold infinityRank
    omega
  · next large =>
    have positive : units ≠ 0 := by
      rintro rfl
      exact large (by decide)
    have exponent : units.log2 < length := (Nat.log2_lt positive).mpr small
    have above : 53 ≤ units.log2 := by
      refine (Nat.le_log2 positive).mpr ?_
      rw [binade_eq] at large
      omega
    -- the shift leaves 53 bits
    have mantissa : units / (1 * Nat.pow 2 (units.log2 - 52)) < 2 ^ 53 := by
      rw [Nat.one_mul, Nat.pow_eq]
      refine Nat.div_lt_of_lt_mul ?_
      have same : units.log2 - 52 + 53 = units.log2 + 1 := by omega
      rw [← Nat.pow_add, same]
      exact Nat.lt_log2_self
    have rounded := roundHalfEven_le_of_lt mantissa
    unfold infinityRank
    rw [binade_eq]
    omega

theorem mul_pow_lt {magnitude exponent units : Nat} (small : magnitude < 2 ^ 64)
    (power : units = Nat.pow 2 exponent) : magnitude * units < 2 ^ (64 + exponent) := by
  rw [power, Nat.pow_eq, Nat.pow_add]
  exact Nat.mul_lt_mul_of_pos_right small (Nat.pow_pos (by decide))

theorem isInfinite_ofUnits (negative : Bool) (numerator denominator : Nat) :
    (ofUnits negative numerator denominator).isInfinite =
      decide (nearestRank numerator denominator = infinityRank) := rfl

/-- Every word has a finite double. -/
theorem covers_of_inRange {value : Int} (inRange : Word.InRange value) : Covers value := by
  have magnitude : value.natAbs < 2 ^ 64 := by
    simp only [Word.InRange, Word.least, Word.greatest] at inRange
    omega
  have power : unitsInOne = Nat.pow 2 1074 := by
    unfold unitsInOne
    with_reducible rfl
  have finite : nearestRank (value.natAbs * unitsInOne) 1 < infinityRank :=
    nearestRank_lt (mul_pow_lt magnitude power) (by decide)
  unfold Covers ofInt ofRatio
  rw [isInfinite_ofUnits]
  exact decide_eq_false (Nat.ne_of_lt finite)

theorem ofInt?_eq {value : Int} (covers : Covers value) : ofInt? value = some (ofInt value) :=
  if_neg (Bool.eq_false_iff.mp covers)

/-- The quotient of two integers as doubles. -/
def ofQuotient? (left right : Int) : Option Binary64 := do
  let first ← ofInt? left
  let second ← ofInt? right
  first.guardedDiv second

theorem ofQuotient?_eq {left right : Int} (coversLeft : Covers left) (coversRight : Covers right) :
    ofQuotient? left right = some ((ofInt left).div (ofInt right)) := by
  simp only [ofQuotient?, ofInt?_eq coversLeft, ofInt?_eq coversRight, Option.bind_eq_bind,
    Option.bind_some, guardedDiv_eq]

end Binary64

/-! ### Operators -/

namespace Value

/-- The double that a number is taken for, unless that is infinite. -/
def double? : Value → Option Binary64
  | .int value => Binary64.ofInt? value
  | .float value => some value
  | _ => none

/-- Equality, where a pair of numbers with a double in it is compared as doubles. -/
def equal? (left right : Value) : Option Bool :=
  if left.isInt && right.isInt then
    some (left.equal right)
  else if left.isNumber && right.isNumber then do
    let first ← left.double?
    let second ← right.double?
    return first.same second
  else
    some (left.equal right)

theorem double?_eq {value : Value} (regular : value.Regular Binary64.Covers) :
    value.double? = value.toFloat? := by
  cases value with
  | int value => exact Binary64.ofInt?_eq regular
  | nil | boolean _ | float _ | string _ | function _ | native _ => rfl

theorem equal?_eq {left right : Value} (regularLeft : left.Regular Binary64.Covers)
    (regularRight : right.Regular Binary64.Covers) :
    left.equal? right = some (left.equal right) := by
  unfold equal?
  rw [double?_eq regularLeft, double?_eq regularRight]
  cases left <;> cases right <;> rfl

end Value

namespace Operator

/-- Binary operators on integers with partial operations. -/
def onInts? (operator : Token) (left right : Int) : Option (Except Fault Value) :=
  match operator.kind with
  | .slash =>
    if right ≠ 0 ∧ Word.floorMod? left right = some 0 then
      (Word.floorDiv? left right).map fun quotient => .ok (.int (Word.wrap quotient))
    else
      (Binary64.ofQuotient? left right).map fun quotient => .ok (.float quotient)
  | .percent =>
    if right = 0 then
      some (.error .divisionByZero)
    else
      (Word.floorMod? left.natAbs right.natAbs).map fun rest =>
        .ok (.int (Word.wrap (if left < 0 then -rest else rest)))
  | _ => some (onInts operator left right)

/-- Binary operators on doubles with partial operations. -/
def onFloats? (operator : Token) (left right : Binary64) : Option (Except Fault Value) :=
  match operator.kind with
  | .slash => (left.guardedDiv right).map fun quotient => .ok (.float quotient)
  | .percent => (left.guardedRem right).map fun rest => .ok (.float rest)
  | _ => some (onFloats operator left right)

/-- Binary operators with partial operations. -/
def binary? (operator : Token) (left right : Value) : Option (Except Fault Value) :=
  match operator.kind with
  | .equalEqual => (left.equal? right).map fun same => .ok (.boolean same)
  | .bangEqual => (left.equal? right).map fun same => .ok (.boolean !same)
  | _ =>
    match left, right with
    | .int first, .int second => onInts? operator first second
    | left, right =>
      if left.isNumber && right.isNumber then do
        let first ← left.double?
        let second ← right.double?
        onFloats? operator first second
      else
        some (binary operator left right)

/-- The remainder with the sign of the dividend, from the remainder of the magnitudes. -/
theorem tmod_eq (left right : Int) :
    left.tmod right =
      if left < 0 then -(left.natAbs : Int).fmod right.natAbs
      else (left.natAbs : Int).fmod right.natAbs := by
  rw [← Int.ofNat_fmod]
  cases left with
  | ofNat left => cases right <;> rfl
  | negSucc left =>
    rw [if_pos (Int.negSucc_lt_zero left)]
    cases right <;> rfl

theorem onInts?_eq {operator : Token} {left right : Int} (coversLeft : Binary64.Covers left)
    (coversRight : Binary64.Covers right) :
    onInts? operator left right = some (onInts operator left right) := by
  unfold onInts?
  split
  · next slash =>
    have floats := Binary64.ofQuotient?_eq coversLeft coversRight
    simp only [onInts, slash]
    generalize (Binary64.ofInt left).div (.ofInt right) = quotient at floats ⊢
    rw [floats]
    by_cases zero : right = 0
    · rw [if_neg fun exact => exact.1 zero, if_neg fun exact => exact.1 zero]
      rfl
    · have rest_eq : Word.floorMod? left right = some 0 ↔ left % right = 0 := by
        rw [Word.floorMod?, if_neg zero, Option.some.injEq, ← Int.dvd_iff_fmod_eq_zero,
          Int.dvd_iff_emod_eq_zero]
      by_cases divides : left % right = 0
      · have quotient_eq : left.fdiv right = left / right :=
          Int.fdiv_eq_ediv_of_dvd (Int.dvd_of_emod_eq_zero divides)
        rw [if_pos ⟨zero, rest_eq.mpr divides⟩, if_pos ⟨zero, divides⟩, Word.floorDiv?,
          if_neg zero, quotient_eq]
        rfl
      · rw [if_neg fun exact => divides (rest_eq.mp exact.2), if_neg fun exact => divides exact.2]
        rfl
  · next percent =>
    unfold onInts
    rw [percent]
    split
    · rfl
    · next notZero =>
      have magnitude : (right.natAbs : Int) ≠ 0 := by omega
      rw [tmod_eq, Word.floorMod?, if_neg magnitude]
      rfl
  · rfl

theorem onFloats?_eq (operator : Token) (left right : Binary64) :
    onFloats? operator left right = some (onFloats operator left right) := by
  unfold onFloats?
  split
  · next slash =>
    unfold onFloats
    rw [slash, Binary64.guardedDiv_eq]
    rfl
  · next percent =>
    unfold onFloats
    rw [percent, Binary64.guardedRem_eq]
    rfl
  · rfl

theorem binary_of_numbers {operator : Token} {left right : Value} {pair : NumberPair}
    (notEqual : operator.kind ≠ .equalEqual) (notUnequal : operator.kind ≠ .bangEqual)
    (numbers : NumberPair.of? left right = some pair) :
    binary operator left right = onNumbers operator pair := by
  unfold binary
  split
  · next equal => exact absurd equal notEqual
  · next unequal => exact absurd unequal notUnequal
  · split
    · cases numbers
    · rw [numbers]
  · rw [numbers]

/-- On numbers that have a finite double no guarded operation is without a result. -/
theorem binary?_eq (operator : Token) {left right : Value}
    (regularLeft : left.Regular Binary64.Covers) (regularRight : right.Regular Binary64.Covers) :
    binary? operator left right = some (binary operator left right) := by
  unfold binary?
  split
  · next equal =>
    rw [Value.equal?_eq regularLeft regularRight]
    simp only [binary, equal, Option.map_some]
  · next unequal =>
    rw [Value.equal?_eq regularLeft regularRight]
    simp only [binary, unequal, Option.map_some]
  · next notEqual notUnequal =>
    split
    · next left right =>
      rw [onInts?_eq regularLeft regularRight]
      have ints : NumberPair.of? (.int left) (.int right) = some (.ints left right) := rfl
      rw [binary_of_numbers notEqual notUnequal ints]
      rfl
    · next notInts =>
      split
      · next numbers =>
        obtain ⟨isLeft, isRight⟩ := Bool.and_eq_true_iff.mp numbers
        obtain ⟨first, leftDouble⟩ := Option.isSome_iff_exists.mp isLeft
        obtain ⟨second, rightDouble⟩ := Option.isSome_iff_exists.mp isRight
        have floats : NumberPair.of? left right = some (.floats first second) := by
          unfold NumberPair.of?
          split
          · exact absurd rfl (notInts _ _ rfl)
          · rw [leftDouble, rightDouble]
        rw [Value.double?_eq regularLeft, Value.double?_eq regularRight, leftDouble, rightDouble,
          binary_of_numbers notEqual notUnequal floats]
        exact onFloats?_eq operator first second
      · rfl

end Operator

end Lox
