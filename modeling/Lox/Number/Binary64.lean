/-
This file is IEEE 754 double precision in exact integer arithmetic.

A double other than NaN is a sign and a rank: the position of its magnitude
among the non-negative doubles, which is the low 63 bits of its encoding. The
finite ranks stand for whole multiples of `2 ^ -1074`, the least positive
double, so sums, products, quotients and remainders are computed exactly as
fractions of that unit and rounded once. Ranks grow with magnitudes, so order
is the order of signed ranks, where the two zeros coincide.
-/

import Lox.Number.Rounding

namespace Lox

/-- The number of doubles with one sign and one exponent, `2 ^ 52`. -/
def Binary64.binade : Nat := 4503599627370496

/-- The rank of infinity, one more than that of the largest finite magnitude. -/
def Binary64.infinityRank : Nat := 2047 * Binary64.binade

/-- A double-precision number. Every NaN is one value. -/
inductive Binary64 where
  | nan
  | number (negative : Bool) (rank : Nat) (bounded : rank ≤ Binary64.infinityRank)
  deriving DecidableEq

namespace Binary64

/-! ### Ranks and units -/

/-- How many least positive doubles make one. -/
def unitsInOne : Nat := Nat.pow 2 1074

/-- The magnitude at a finite rank, in least positive doubles. -/
def unitsAt (rank : Nat) : Nat :=
  let exponent := rank / binade
  let fraction := rank % binade
  if exponent = 0 then fraction else (binade + fraction) * Nat.pow 2 (exponent - 1)

/-- The rank nearest to `numerator / denominator` units, a half going to the even rank, and
infinity from half a step beyond the largest finite magnitude. -/
def nearestRank (numerator denominator : Nat) : Nat :=
  let whole := numerator / denominator
  let shift := if whole < 2 * binade then 0 else whole.log2 - 52
  min (shift * binade + roundHalfEven numerator (denominator * Nat.pow 2 shift)) infinityRank

theorem nearestRank_le (numerator denominator : Nat) :
    nearestRank numerator denominator ≤ infinityRank :=
  Nat.min_le_right _ _

/-- The double nearest to `numerator / denominator` units with the given sign. -/
def ofUnits (negative : Bool) (numerator denominator : Nat) : Binary64 :=
  .number negative (nearestRank numerator denominator) (nearestRank_le numerator denominator)

/-- The double nearest to `numerator / denominator` with the given sign. -/
def ofRatio (negative : Bool) (numerator denominator : Nat) : Binary64 :=
  ofUnits negative (numerator * unitsInOne) denominator

/-- The double nearest to an integer. -/
def ofInt (value : Int) : Binary64 :=
  ofRatio (value < 0) value.natAbs 1

/-! ### Special values -/

/-- Zero with the given sign. -/
def zero (negative : Bool) : Binary64 := .number negative 0 (Nat.zero_le _)

/-- Infinity with the given sign. -/
def infinity (negative : Bool) : Binary64 := .number negative infinityRank (Nat.le_refl _)

/-! ### Encoding -/

/-- The sign bit of an encoding, `2 ^ 63`. -/
def signBit : Nat := 2048 * binade

/-- The 64 bits of a double as a number; NaN has its usual quiet encoding. -/
def bits : Binary64 → Nat
  | .nan => infinityRank + binade / 2
  | .number negative rank _ => (if negative then signBit else 0) + rank

/-- The double that 64 bits encode. -/
def ofBits (word : Nat) : Binary64 :=
  if bounded : word % signBit ≤ infinityRank then
    .number (word / signBit % 2 = 1) (word % signBit) bounded
  else
    .nan

/-! ### Order -/

/-- The place of a double on the number line; NaN has none and the two zeros share one. -/
def place? : Binary64 → Option Int
  | .nan => none
  | .number negative rank _ => some (if negative then -rank else rank)

/-- Both have a place and the first lies before the second. -/
def less (left right : Binary64) : Bool :=
  match left.place?, right.place? with
  | some first, some second => first < second
  | _, _ => false

/-- Both have a place and the first does not lie after the second. -/
def lessOrEqual (left right : Binary64) : Bool :=
  match left.place?, right.place? with
  | some first, some second => first ≤ second
  | _, _ => false

/-- Both have the same place. -/
def same (left right : Binary64) : Bool :=
  match left.place?, right.place? with
  | some first, some second => first = second
  | _, _ => false

/-! ### Arithmetic -/

/-- The same magnitude with the other sign. -/
def negate : Binary64 → Binary64
  | .nan => .nan
  | .number negative rank bounded => .number (!negative) rank bounded

/-- The magnitude in units with the sign of the double. -/
def signedUnits (negative : Bool) (rank : Nat) : Int :=
  if negative then -(unitsAt rank) else unitsAt rank

/-- The sum. Opposite infinities have none; an exact zero is negative only if both terms are. -/
def add : Binary64 → Binary64 → Binary64
  | .number leftNegative leftRank leftBounded, .number rightNegative rightRank rightBounded =>
    if leftRank = infinityRank then
      if rightRank = infinityRank ∧ leftNegative ≠ rightNegative then .nan
      else .number leftNegative leftRank leftBounded
    else if rightRank = infinityRank then
      .number rightNegative rightRank rightBounded
    else
      let total := signedUnits leftNegative leftRank + signedUnits rightNegative rightRank
      if total = 0 then zero (leftNegative && rightNegative)
      else ofUnits (total < 0) total.natAbs 1
  | _, _ => .nan

/-- The difference. -/
def sub (left right : Binary64) : Binary64 := add left right.negate

/-- The product. Zero times infinity has none. -/
def mul : Binary64 → Binary64 → Binary64
  | .number leftNegative leftRank _, .number rightNegative rightRank _ =>
    let negative := leftNegative != rightNegative
    if leftRank = infinityRank ∨ rightRank = infinityRank then
      if leftRank = 0 ∨ rightRank = 0 then .nan else infinity negative
    else
      ofUnits negative (unitsAt leftRank * unitsAt rightRank) unitsInOne
  | _, _ => .nan

/-- The quotient. Zero by zero and infinity by infinity have none; any other number divided by
zero is infinite. -/
def div : Binary64 → Binary64 → Binary64
  | .number leftNegative leftRank _, .number rightNegative rightRank _ =>
    let negative := leftNegative != rightNegative
    if rightRank = 0 then
      if leftRank = 0 then .nan else infinity negative
    else if leftRank = infinityRank then
      if rightRank = infinityRank then .nan else infinity negative
    else if rightRank = infinityRank then
      zero negative
    else
      ofUnits negative (unitsAt leftRank * unitsInOne) (unitsAt rightRank)
  | _, _ => .nan

/-- The remainder of the quotient cut towards zero, with the sign of the dividend. There is none
of infinity or by zero. -/
def rem : Binary64 → Binary64 → Binary64
  | .number leftNegative leftRank leftBounded, .number _ rightRank _ =>
    if rightRank = 0 ∨ leftRank = infinityRank then .nan
    else if rightRank = infinityRank then .number leftNegative leftRank leftBounded
    else ofUnits leftNegative (unitsAt leftRank % unitsAt rightRank) 1
  | _, _ => .nan

end Binary64

end Lox
