/-
This file proves that the quotient and the remainder of integers fit together,
although a quotient is tested for exactness by one kind of division and a
remainder is cut towards zero by another. The remainder lies between zero and
the dividend, so both it and the dividend without it are words; the quotient of
the latter is exact, and the only one that wraps is that of the smallest word by
minus one, whose product wraps back.
-/

import Lox.Proofs.Numbers.Residues

namespace Lox

namespace Word

variable {left right : Int}

/-! ### Remainders of words -/

/-- A remainder lies between zero and its dividend. -/
theorem tmod_between (left right : Int) :
    0 ≤ left.tmod right ∧ left.tmod right ≤ left ∨
      left ≤ left.tmod right ∧ left.tmod right ≤ 0 := by
  have magnitude : (left.tmod right).natAbs ≤ left.natAbs := by
    rw [Int.natAbs_tmod]
    exact Nat.mod_le _ _
  rcases Int.le_total 0 left with nonnegative | nonpositive
  · have := Int.tmod_nonneg right nonnegative
    omega
  · have := Int.tmod_nonneg right (Int.neg_nonneg_of_nonpos nonpositive)
    rw [Int.neg_tmod] at this
    omega

theorem inRange_tmod (range : InRange left) (right : Int) : InRange (left.tmod right) := by
  have between := tmod_between left right
  simp only [InRange, least, greatest] at range ⊢
  omega

/-- A word without its remainder is a word. -/
theorem inRange_sub_tmod (range : InRange left) (right : Int) :
    InRange (left - left.tmod right) := by
  have between := tmod_between left right
  simp only [InRange, least, greatest] at range ⊢
  omega

theorem natAbs_tmod_lt (left : Int) (nonzero : right ≠ 0) :
    (left.tmod right).natAbs < right.natAbs := by
  rw [Int.natAbs_tmod]
  exact Nat.mod_lt _ (Int.natAbs_pos.mpr nonzero)

theorem tmod_eq_zero_or_sign_eq (left right : Int) :
    left.tmod right = 0 ∨ (left.tmod right).sign = left.sign := by
  rw [Int.sign_tmod]
  by_cases divides : right ∣ left
  · exact .inl (Int.tmod_eq_zero_of_dvd divides)
  · exact .inr (if_neg divides)

/-- A wrapped factor gives the same wrapped product. -/
theorem wrap_wrap_mul (first second : Int) : wrap (wrap first * second) = wrap (first * second) :=
  Int.bmod_mul_bmod

end Word

namespace Operator

variable {plus minus star slash percent : Token} {left right : Int}

/-! ### Operators on integers -/

/-- The remainder of a word by an integer other than zero. -/
theorem binary_percent (kind : percent.kind = .percent) (range : Word.InRange left)
    (nonzero : right ≠ 0) :
    binary percent (.int left) (.int right) = .ok (.int (left.tmod right)) := by
  rw [binary_ints (by rw [kind]; decide) (by rw [kind]; decide), onInts, kind]
  dsimp only
  rw [if_neg nonzero, Word.wrap_of_inRange (Word.inRange_tmod range right)]

/-- The quotient of an integer by a divisor of it. -/
theorem binary_slash_of_dvd (kind : slash.kind = .slash) (nonzero : right ≠ 0)
    (divides : right ∣ left) :
    binary slash (.int left) (.int right) = .ok (.int (Word.wrap (left / right))) := by
  rw [binary_ints (by rw [kind]; decide) (by rw [kind]; decide), onInts, kind]
  exact if_pos ⟨nonzero, Int.emod_eq_zero_of_dvd divides⟩

/-- Any other quotient is a double. -/
theorem binary_slash_of_not_dvd (kind : slash.kind = .slash)
    (unfit : ¬ (right ≠ 0 ∧ right ∣ left)) :
    binary slash (.int left) (.int right) =
      .ok (.float ((Binary64.ofInt left).div (.ofInt right))) := by
  rw [binary_ints (by rw [kind]; decide) (by rw [kind]; decide), onInts, kind]
  exact if_neg fun exact => unfit ⟨exact.1, Int.dvd_of_emod_eq_zero exact.2⟩

/-- A quotient of integers is an integer exactly if there is no remainder. -/
theorem binary_slash_isInt_iff (kind : slash.kind = .slash) (nonzero : right ≠ 0) :
    (∃ quotient, binary slash (.int left) (.int right) = .ok (.int quotient)) ↔
      left.tmod right = 0 := by
  rw [← Int.dvd_iff_tmod_eq_zero]
  constructor
  · rintro ⟨quotient, divided⟩
    by_contra indivisible
    rw [binary_slash_of_not_dvd kind fun exact => indivisible exact.2] at divided
    cases divided
  · intro divides
    exact ⟨_, binary_slash_of_dvd kind nonzero divides⟩

/-- Of the quotients and remainders of integers only a remainder by zero fails. -/
theorem binary_eq_error_iff {operator : Token}
    (kind : operator.kind = .slash ∨ operator.kind = .percent) (left right : Int) (fault : Fault) :
    binary operator (.int left) (.int right) = .error fault ↔
      operator.kind = .percent ∧ right = 0 ∧ fault = .divisionByZero := by
  rcases kind with slash | percent
  · rw [binary_ints (by rw [slash]; decide) (by rw [slash]; decide), onInts, slash]
    dsimp only
    split <;> simp
  · rw [binary_ints (by rw [percent]; decide) (by rw [percent]; decide), onInts, percent]
    dsimp only
    split
    · next zero => simp [zero, eq_comm]
    · next nonzero => simp [nonzero]

/-- Quotients and remainders of integers fit together. The remainder of a word by an integer other
than zero is smaller than the divisor, and is zero or has the sign of the dividend. The dividend
less the remainder does not wrap, and its quotient is an integer that times the divisor and plus
the remainder is the dividend again. The quotient of the dividend itself is an integer exactly if
the remainder is zero, and nothing fails but a remainder by zero. -/
theorem division_fits_remainder (plusKind : plus.kind = .plus) (minusKind : minus.kind = .minus)
    (starKind : star.kind = .star) (slashKind : slash.kind = .slash)
    (percentKind : percent.kind = .percent) (range : Word.InRange left) :
    (right ≠ 0 → ∃ remainder quotient product,
      binary percent (.int left) (.int right) = .ok (.int remainder) ∧
      remainder.natAbs < right.natAbs ∧ (remainder = 0 ∨ remainder.sign = left.sign) ∧
      binary minus (.int left) (.int remainder) = .ok (.int (left - remainder)) ∧
      binary slash (.int (left - remainder)) (.int right) = .ok (.int quotient) ∧
      binary star (.int quotient) (.int right) = .ok (.int product) ∧
      binary plus (.int product) (.int remainder) = .ok (.int left) ∧
      ((∃ whole, binary slash (.int left) (.int right) = .ok (.int whole)) ↔ remainder = 0)) ∧
    ∀ operator : Token, operator.kind = .slash ∨ operator.kind = .percent → ∀ fault,
      binary operator (.int left) (.int right) = .error fault ↔
        operator.kind = .percent ∧ right = 0 ∧ fault = .divisionByZero := by
  refine ⟨fun nonzero => ?_, fun operator kind => binary_eq_error_iff kind left right⟩
  have divides : right ∣ left - left.tmod right := Int.dvd_self_sub_tmod
  have lessRange := Word.inRange_sub_tmod range right
  have less : binary minus (.int left) (.int (left.tmod right)) =
      .ok (.int (left - left.tmod right)) := by
    rw [@binary_of_exactOperation? minus _ (by rw [minusKind]; rfl), Word.wrap_of_inRange lessRange]
  have product : binary star (.int (Word.wrap ((left - left.tmod right) / right))) (.int right) =
      .ok (.int (left - left.tmod right)) := by
    rw [@binary_of_exactOperation? star _ (by rw [starKind]; rfl), Word.wrap_wrap_mul,
      Int.ediv_mul_cancel divides, Word.wrap_of_inRange lessRange]
  have sum : binary plus (.int (left - left.tmod right)) (.int (left.tmod right)) =
      .ok (.int left) := by
    rw [@binary_of_exactOperation? plus _ (by rw [plusKind]; rfl), Int.sub_add_cancel,
      Word.wrap_of_inRange range]
  exact ⟨left.tmod right, _, _, binary_percent percentKind range nonzero,
    Word.natAbs_tmod_lt left nonzero, Word.tmod_eq_zero_or_sign_eq left right, less,
    binary_slash_of_dvd slashKind nonzero divides, product, sum,
    binary_slash_isInt_iff slashKind nonzero⟩

/-- The smallest word by minus one: there is no remainder, and the quotient and its product wrap. -/
theorem division_fits_remainder_least :
    let plus : Token := ⟨.plus, "+", 1⟩
    let minus : Token := ⟨.minus, "-", 1⟩
    let star : Token := ⟨.star, "*", 1⟩
    let slash : Token := ⟨.slash, "/", 1⟩
    let percent : Token := ⟨.percent, "%", 1⟩
    Word.InRange Word.least ∧ (-1 : Int) ≠ 0 ∧ ∃ quotient product,
      binary percent (.int Word.least) (.int (-1)) = .ok (.int 0) ∧
      binary minus (.int Word.least) (.int 0) = .ok (.int Word.least) ∧
      binary slash (.int Word.least) (.int (-1)) = .ok (.int quotient) ∧ quotient = Word.least ∧
      binary star (.int quotient) (.int (-1)) = .ok (.int product) ∧
      binary plus (.int product) (.int 0) = .ok (.int Word.least) := by
  intro plus minus star slash percent
  have range : Word.InRange Word.least := by decide
  have nonzero : (-1 : Int) ≠ 0 := by decide
  have remains : binary percent (.int Word.least) (.int (-1)) = .ok (.int 0) := rfl
  obtain ⟨remainder, quotient, product, isRemainder, _, _, isLess, isQuotient, isProduct, isSum,
      _⟩ :=
    (@division_fits_remainder plus minus star slash percent Word.least (-1) rfl rfl rfl rfl rfl
      range).1 nonzero
  rw [remains] at isRemainder
  cases isRemainder
  have least : quotient = Word.least := by cases isQuotient; rfl
  exact ⟨range, nonzero, quotient, product, remains, isLess, isQuotient, least, isProduct, isSum⟩

end Operator

end Lox
