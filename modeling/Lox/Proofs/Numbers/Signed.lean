/-
This file says what decimal numerals denote, by their digits from left to
right, and proves that reading a text as an integer accepts exactly the signed
numerals of words and gives what they denote. Zeros may stand in front of the
other digits, and only the digits from 0 to 9 are any.
-/

import Lox.Native
import Mathlib.Data.List.Induction

namespace Lox

/-! ### Numerals -/

namespace Decimal

/-- The row of digits denotes the number: every further digit makes ten times as much of the digits
in front of it. -/
inductive Denotes : List Char → Nat → Prop
  | digit {value : Nat} : value < 10 → Denotes [value.digitChar] value
  | further {digits : List Char} {number value : Nat} : Denotes digits number → value < 10 →
    Denotes (digits ++ [value.digitChar]) (10 * number + value)

/-- The digits, with or without a sign in front, denote the integer. -/
inductive Signed : List Char → Int → Prop
  | bare {digits : List Char} {number : Nat} : Denotes digits number → Signed digits number
  | plus {digits : List Char} {number : Nat} : Denotes digits number →
    Signed ('+' :: digits) number
  | minus {digits : List Char} {number : Nat} : Denotes digits number →
    Signed ('-' :: digits) (-number)

/-! ### Digits -/

/-- A digit is the one of its value. -/
theorem exists_eq_digitChar {char : Char} (digit : char.isDigit = true) :
    ∃ value < 10, char = value.digitChar := by
  have zero : '0'.toNat = 48 := rfl
  have nine : '9'.toNat = 57 := rfl
  obtain ⟨above, below⟩ := Char.isDigit_iff_toNat.mp digit
  have small : char.toNat - 48 < 10 := by omega
  refine ⟨_, small, Char.toNat_inj.mp ?_⟩
  rw [Nat.toNat_digitChar_of_lt_ten small]
  omega

theorem isDigits_iff {text : List Char} :
    isDigits text = true ↔ text ≠ [] ∧ ∀ char ∈ text, char.isDigit = true := by
  simp [isDigits]

theorem digitsValue_concat (digits : List Char) {value : Nat} (small : value < 10) :
    digitsValue (digits ++ [value.digitChar]) = 10 * digitsValue digits + value := by
  rw [digitsValue, Nat.ofDigitChars_append, Nat.ofDigitChars_cons, Nat.ofDigitChars_nil,
    Nat.toNat_digitChar_of_lt_ten small]
  have zero : '0'.toNat = 48 := rfl
  simp only [digitsValue]
  omega

/-- The numerals are the rows of digits, and each denotes what is computed of it. -/
theorem denotes_iff {text : List Char} {number : Nat} :
    Denotes text number ↔ isDigits text = true ∧ digitsValue text = number := by
  constructor
  · intro denotes
    induction denotes with
    | @digit value small =>
      refine ⟨isDigits_iff.mpr ⟨List.cons_ne_nil _ _, List.forall_mem_singleton.mpr ?_⟩, ?_⟩
      · rw [Nat.isDigit_digitChar, decide_eq_true small]
      · exact (digitsValue_concat [] small).trans (Nat.zero_add value)
    | @further digits number value _ small inductionHypothesis =>
      obtain ⟨areDigits, denoted⟩ := inductionHypothesis
      obtain ⟨some, all⟩ := isDigits_iff.mp areDigits
      refine ⟨isDigits_iff.mpr ⟨by simp, List.forall_mem_append.mpr ⟨all, ?_⟩⟩, ?_⟩
      · rw [List.forall_mem_singleton, Nat.isDigit_digitChar, decide_eq_true small]
      · rw [digitsValue_concat digits small, denoted]
  · rintro ⟨areDigits, rfl⟩
    induction text using List.reverseRecOn with
    | nil => exact absurd rfl (isDigits_iff.mp areDigits).1
    | append_singleton digits char inductionHypothesis =>
      have all := List.forall_mem_append.mp (isDigits_iff.mp areDigits).2
      obtain ⟨value, small, rfl⟩ := exists_eq_digitChar (all.2 char List.mem_cons_self)
      rw [digitsValue_concat digits small]
      by_cases first : digits = []
      · subst first
        have alone : 10 * digitsValue [] + value = value := Nat.zero_add value
        rw [alone]
        exact .digit small
      · exact .further (inductionHypothesis (isDigits_iff.mpr ⟨first, all.1⟩)) small

/-! ### Signs -/

/-- A text with a digit in front has no sign there. -/
theorem splitSign_cons_of_isDigit {first : Char} (digit : first.isDigit = true)
    (others : List Char) : splitSign (first :: others) = (false, first :: others) := by
  unfold splitSign
  split
  · next same =>
    cases same
    exact absurd digit (by decide)
  · next same =>
    cases same
    exact absurd digit (by decide)
  · rfl

theorem splitSign_of_isDigits {text : List Char} (areDigits : isDigits text = true) :
    splitSign text = (false, text) := by
  obtain ⟨some, all⟩ := isDigits_iff.mp areDigits
  obtain ⟨first, others, rfl⟩ := List.exists_cons_of_ne_nil some
  exact splitSign_cons_of_isDigit (all first List.mem_cons_self) others

/-- A text is a signed numeral if digits stand behind its sign. -/
theorem signed_iff {text : List Char} {value : Int} :
    Signed text value ↔ isDigits (splitSign text).2 = true ∧
      (if (splitSign text).1 then -(digitsValue (splitSign text).2 : Int)
        else digitsValue (splitSign text).2) = value := by
  constructor
  · intro signed
    cases signed with
    | bare denotes =>
      obtain ⟨areDigits, rfl⟩ := denotes_iff.mp denotes
      rw [splitSign_of_isDigits areDigits]
      exact ⟨areDigits, rfl⟩
    | plus denotes | minus denotes =>
      obtain ⟨areDigits, rfl⟩ := denotes_iff.mp denotes
      exact ⟨areDigits, rfl⟩
  · rintro ⟨areDigits, rfl⟩
    have denotes := denotes_iff.mpr ⟨areDigits, rfl⟩
    unfold splitSign at denotes ⊢
    split at denotes
    · exact .minus denotes
    · exact .plus denotes
    · exact .bare denotes

/-- A text denotes one integer at most. -/
theorem Signed.unique {text : List Char} {value other : Int} (first : Signed text value)
    (second : Signed text other) : value = other :=
  (signed_iff.mp first).2.symm.trans (signed_iff.mp second).2

end Decimal

/-! ### Integers in texts -/

/-- The texts that are read as integers are the signed numerals of words. -/
theorem Native.parseInt?_eq_some_iff {text : String} {value : Int} :
    parseInt? text = some value ↔ Decimal.Signed text.toList value ∧ Word.InRange value := by
  rw [Decimal.signed_iff, parseInt?]
  simp only [Option.ite_none_right_eq_some, Option.some.injEq]
  constructor
  · rintro ⟨areDigits, inRange, rfl⟩
    exact ⟨⟨areDigits, rfl⟩, inRange⟩
  · rintro ⟨⟨areDigits, rfl⟩, inRange⟩
    exact ⟨areDigits, inRange, rfl⟩

/-- The printed form of an integer is a signed numeral of it. -/
theorem Decimal.signed_text (value : Int) : Signed (Value.int value).text.toList value := by
  have denotes : Denotes (Nat.toDigits 10 value.natAbs) value.natAbs :=
    denotes_iff.mpr ⟨isDigits_iff.mpr ⟨Nat.toDigits_ne_nil,
      fun char => Nat.isDigit_of_mem_toDigits (by decide) (by decide)⟩,
      Nat.ofDigitChars_ten_toDigits⟩
  rw [Value.text, decimalText, String.toList_ofList]
  split
  · next negative =>
    have signed := Signed.minus denotes
    rwa [show -(value.natAbs : Int) = value by omega] at signed
  · next nonnegative =>
    have signed := Signed.bare denotes
    rwa [show (value.natAbs : Int) = value by omega] at signed

end Lox
