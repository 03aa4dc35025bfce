/-
This file proves that integers keep their order as doubles. The rounding of a
fraction goes up by one at most, so over one denominator it keeps the order. A
larger magnitude may be rounded to a larger unit, but then its significand has
all its bits, and that of the smaller one has no more.
-/

import Mathlib.Algebra.Group.Nat.Defs
import Lox.Proofs.Values.Guards

namespace Lox

/-! ### Rounded quotients -/

/-- Over one denominator rounding keeps the order. -/
theorem roundHalfEven_mono {numerator other : Nat} (le : numerator ≤ other) (denominator : Nat) :
    roundHalfEven numerator denominator ≤ roundHalfEven other denominator := by
  rcases Nat.lt_or_eq_of_le (Nat.div_le_div_right (c := denominator) le) with below | same
  · exact Nat.le_trans (roundHalfEven_le_of_lt below) (roundHalfEven_floor other denominator).1
  · -- above the same floor the remainders are in order
    have split := Nat.div_add_mod numerator denominator
    have otherSplit := Nat.div_add_mod other denominator
    rw [same] at split
    simp only [roundHalfEven, same]
    split <;> split <;> omega

namespace Binary64

/-! ### Units of magnitudes -/

/-- The unit that a magnitude of so many whole units is rounded to, as a power of two. -/
def unitExponent (whole : Nat) : Nat := if whole < 2 * binade then 0 else whole.log2 - 52

theorem nearestRank_eq (numerator denominator : Nat) :
    nearestRank numerator denominator =
      min (unitExponent (numerator / denominator) * binade +
        roundHalfEven numerator (denominator * 2 ^ unitExponent (numerator / denominator)))
        infinityRank := rfl

theorem binade_eq : binade = 2 ^ 52 := by decide

/-- A magnitude has 53 bits at most, or its unit leaves it that many. -/
theorem unitExponent_cases (whole : Nat) :
    (whole < 2 * binade ∧ unitExponent whole = 0) ∨
      (whole ≠ 0 ∧ whole.log2 = unitExponent whole + 52) := by
  unfold unitExponent
  split
  · next small => exact .inl ⟨small, rfl⟩
  · next large =>
    have positive : whole ≠ 0 := by
      rintro rfl
      exact large (by decide)
    have bits : 53 ≤ whole.log2 := by
      refine (Nat.le_log2 positive).mpr ?_
      rw [binade_eq] at large
      omega
    exact .inr ⟨positive, by omega⟩

theorem unitExponent_mono {whole other : Nat} (le : whole ≤ other) :
    unitExponent whole ≤ unitExponent other := by
  rcases unitExponent_cases whole with ⟨_, least⟩ | ⟨positive, bits⟩
  · rw [least]
    exact Nat.zero_le _
  · rcases unitExponent_cases other with ⟨small, _⟩ | ⟨_, otherBits⟩
    · unfold unitExponent
      rw [if_pos (Nat.lt_of_le_of_lt le small)]
      exact Nat.zero_le _
    · have longer : whole.log2 ≤ other.log2 :=
        (Nat.le_log2 (by omega)).mpr (Nat.le_trans (Nat.log2_self_le positive) le)
      omega

/-- In its unit a magnitude has 53 bits at most. -/
theorem div_unit_lt (whole : Nat) : whole / 2 ^ unitExponent whole < 2 * binade := by
  rcases unitExponent_cases whole with ⟨small, least⟩ | ⟨_, bits⟩
  · rwa [least, Nat.pow_zero, Nat.div_one]
  · refine Nat.div_lt_of_lt_mul ?_
    calc
      whole < 2 ^ (whole.log2 + 1) := Nat.lt_log2_self
      _ = 2 ^ unitExponent whole * 2 ^ 53 := by rw [bits, Nat.add_assoc, Nat.pow_add]
      _ = 2 ^ unitExponent whole * (2 * binade) := by rw [binade_eq]; rfl

/-- In a unit that is not the least a magnitude has all its 53 bits. -/
theorem binade_le_div_unit {whole : Nat} (notLeast : 0 < unitExponent whole) :
    binade ≤ whole / 2 ^ unitExponent whole := by
  rcases unitExponent_cases whole with ⟨_, least⟩ | ⟨positive, bits⟩
  · exact absurd least (Nat.ne_of_gt notLeast)
  · refine (Nat.le_div_iff_mul_le (Nat.two_pow_pos _)).mpr ?_
    calc
      binade * 2 ^ unitExponent whole = 2 ^ whole.log2 := by
        rw [binade_eq, ← Nat.pow_add, bits, Nat.add_comm]
      _ ≤ whole := Nat.log2_self_le positive

/-! ### Ranks -/

/-- Over one denominator a larger numerator has no smaller rank. -/
theorem nearestRank_mono {numerator other : Nat} (le : numerator ≤ other) (denominator : Nat) :
    nearestRank numerator denominator ≤ nearestRank other denominator := by
  have wholes : numerator / denominator ≤ other / denominator := Nat.div_le_div_right le
  rw [nearestRank_eq, nearestRank_eq]
  refine Nat.le_min.mpr ⟨Nat.le_trans (Nat.min_le_left _ _) ?_, Nat.min_le_right _ _⟩
  rcases Nat.lt_or_eq_of_le (unitExponent_mono wholes) with smaller | same
  · -- the ranks of the smaller unit end where those of the larger one begin
    have few : roundHalfEven numerator (denominator * 2 ^ unitExponent (numerator / denominator)) ≤
        2 * binade := by
      refine roundHalfEven_le_of_lt ?_
      rw [← Nat.div_div_eq_div_mul]
      exact div_unit_lt _
    have many : binade ≤
        roundHalfEven other (denominator * 2 ^ unitExponent (other / denominator)) := by
      refine Nat.le_trans ?_ (roundHalfEven_floor _ _).1
      rw [← Nat.div_div_eq_div_mul]
      exact binade_le_div_unit (Nat.zero_lt_of_lt smaller)
    have next := Nat.mul_le_mul_right binade smaller
    rw [Nat.succ_mul] at next
    omega
  · rw [same]
    exact Nat.add_le_add_left (roundHalfEven_mono le _) _

/-! ### Integers -/

/-- The place of an integer among the doubles. -/
def placeOfInt (value : Int) : Int :=
  let rank := nearestRank (value.natAbs * unitsInOne) 1
  if value < 0 then -rank else rank

/-- The double of an integer is never NaN. -/
theorem place?_ofInt (value : Int) : (ofInt value).place? = some (placeOfInt value) := by
  unfold ofInt ofRatio ofUnits place? placeOfInt
  simp only [decide_eq_true_eq]

/-- A larger integer has no smaller double. -/
theorem placeOfInt_mono {value other : Int} (le : value ≤ other) :
    placeOfInt value ≤ placeOfInt other := by
  have ranks {first second : Nat} (le : first ≤ second) :
      nearestRank (first * unitsInOne) 1 ≤ nearestRank (second * unitsInOne) 1 :=
    nearestRank_mono (Nat.mul_le_mul_right _ le) 1
  unfold placeOfInt
  dsimp only
  split
  · next negative =>
    split
    · exact Int.neg_le_neg (Int.ofNat_le.mpr (ranks (by omega)))
    · omega
  · next nonnegative =>
    rw [if_neg (by omega)]
    exact Int.ofNat_le.mpr (ranks (by omega))

end Binary64

end Lox
