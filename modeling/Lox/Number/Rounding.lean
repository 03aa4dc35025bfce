/-
This file rounds a quotient of natural numbers to the nearest integer, a half
going to the even neighbour. The nearest double of a fraction and the digits
of a fixed-point text are both one such rounding.
-/

namespace Lox

/-- The integer nearest to `numerator / denominator`; of two equally near ones, the even one. -/
def roundHalfEven (numerator denominator : Nat) : Nat :=
  let quotient := numerator / denominator
  let twice := 2 * (numerator % denominator)
  if denominator < twice ∨ (twice = denominator ∧ quotient % 2 = 1) then quotient + 1
  else quotient

/-- A rounded quotient is the floor or the integer after it. -/
theorem roundHalfEven_floor (numerator denominator : Nat) :
    numerator / denominator ≤ roundHalfEven numerator denominator ∧
      roundHalfEven numerator denominator ≤ numerator / denominator + 1 := by
  simp only [roundHalfEven]
  split <;> omega

/-- A quotient that is an integer is its own rounding. -/
theorem roundHalfEven_mul (value denominator : Nat) (positive : 0 < denominator) :
    roundHalfEven (value * denominator) denominator = value := by
  simp only [roundHalfEven, Nat.mul_div_cancel _ positive, Nat.mul_mod_left]
  split
  · omega
  · rfl

end Lox
