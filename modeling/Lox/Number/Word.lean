/-
This file is the arithmetic of signed 64-bit integers: results are computed
exactly and brought back into range modulo `2 ^ 64`.
-/

namespace Lox.Word

/-- The number of distinct words, `2 ^ 64`. -/
def modulus : Nat := 18446744073709551616

/-- The smallest word, `-2 ^ 63`. -/
def least : Int := -9223372036854775808

/-- The largest word, `2 ^ 63 - 1`. -/
def greatest : Int := 9223372036854775807

/-- The integer lies in the range of words. -/
def InRange (value : Int) : Prop := least ≤ value ∧ value ≤ greatest

instance (value : Int) : Decidable (InRange value) :=
  inferInstanceAs (Decidable (_ ∧ _))

/-- The word congruent to the integer modulo `2 ^ 64`. -/
def wrap (value : Int) : Int := value.bmod modulus

theorem inRange_wrap (value : Int) : InRange (wrap value) := by
  have lower := Int.le_bmod (x := value) (m := modulus) (by decide)
  have upper := Int.bmod_lt (x := value) (m := modulus) (by decide)
  simp only [modulus] at lower upper
  simp only [InRange, wrap, least, greatest, modulus]
  omega

/-- A word is its own wrapping. -/
theorem wrap_of_inRange {value : Int} (range : InRange value) : wrap value = value := by
  simp only [InRange, least, greatest] at range
  apply Int.bmod_eq_of_le <;> simp only [modulus] <;> omega

end Lox.Word
