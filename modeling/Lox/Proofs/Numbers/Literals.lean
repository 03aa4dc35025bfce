/-
This file proves that numbers are read alike in the source and in texts. The
lexemes of numbers are signed numerals if they have no point, and they always
are numerals of doubles: no blank stands around them, their digits are those
from 0 to 9, and no word is among them. So a literal is the integer that its
lexeme is read as, and where it is read as none, the double.
-/

import Lox.Proofs.Token.Numerals
import Lox.Proofs.Values.Conversion

namespace Lox

open Decimal

/-! ### Characters of numbers -/

theorem Text.isBlank_eq_false_of_isDigit {char : Char} (digit : char.isDigit = true) :
    isBlank char = false := by
  have zero : '0'.toNat = 48 := rfl
  have nine : '9'.toNat = 57 := rfl
  obtain ⟨above, below⟩ := Char.isDigit_iff_toNat.mp digit
  refine List.any_eq_false.mpr fun range member => ?_
  have outside : ∀ range ∈ blankRanges, range.2 < 48 ∨ 57 < range.1 := by decide
  have := outside range member
  simp only [Bool.and_eq_true, decide_eq_true_eq]
  omega

/-- The digits from 0 to 9 are the first of all scripts. -/
theorem Text.asciiDigit_of_isDigit {char : Char} (digit : char.isDigit = true) :
    asciiDigit char = char := by
  have small : ∀ value < 10, asciiDigit value.digitChar = value.digitChar := by decide
  obtain ⟨value, bounded, rfl⟩ := exists_eq_digitChar digit
  exact small value bounded

theorem Text.toLower_of_isDigit {char : Char} (digit : char.isDigit = true) :
    char.toLower = char := by
  have small : ∀ value < 10, value.digitChar.toLower = value.digitChar := by decide
  obtain ⟨value, bounded, rfl⟩ := exists_eq_digitChar digit
  exact small value bounded

theorem Decimal.Denotes.point_notMem {text : List Char} {number : Nat}
    (denotes : Denotes text number) : '.' ∉ text :=
  fun member => absurd ((isDigits_iff.mp (denotes_iff.mp denotes).1).2 _ member) (by decide)

/-! ### Lexemes of numbers -/

namespace Token.Lexeme

variable {lexeme : List Char} (belongs : Lexeme .number lexeme)

include belongs

theorem isDigit_or_point : ∀ char ∈ lexeme, char.isDigit = true ∨ char = '.' := by
  obtain ⟨digits, _, all, rfl | ⟨places, allPlaces, rfl⟩⟩ := belongs.digits_or_fraction
  · exact fun char member => .inl (all char member)
  · refine List.forall_mem_append.mpr ⟨fun char member => .inl (all char member), ?_⟩
    exact List.forall_mem_cons.mpr ⟨.inr rfl, fun char member => .inl (allPlaces char member)⟩

theorem exists_digit_cons : ∃ first others, lexeme = first :: others ∧ first.isDigit = true := by
  obtain ⟨digits, some, all, cut⟩ := belongs.digits_or_fraction
  obtain ⟨first, others, rfl⟩ := List.exists_cons_of_ne_nil some
  have digit := all first List.mem_cons_self
  rcases cut with rfl | ⟨places, _, rfl⟩
  · exact ⟨first, others, rfl, digit⟩
  · exact ⟨first, _, rfl, digit⟩

theorem exists_ofChars? : ∃ decimal, ofChars? lexeme = some decimal := by
  obtain ⟨digits, some, all, rfl | ⟨places, allPlaces, rfl⟩⟩ := belongs.digits_or_fraction
  · exact ⟨_, ofChars?_of_digits some all⟩
  · exact ⟨_, ofChars?_of_fraction some all allPlaces⟩

theorem splitSign_eq : splitSign lexeme = (false, lexeme) := by
  obtain ⟨first, others, rfl, digit⟩ := belongs.exists_digit_cons
  exact splitSign_cons_of_isDigit digit others

/-- As a signed numeral a number has no sign. -/
theorem exists_denotes_of_signed {value : Int} (signed : Signed lexeme value) :
    ∃ number : Nat, Denotes lexeme number ∧ value = number := by
  obtain ⟨areDigits, denoted⟩ := signed_iff.mp signed
  rw [belongs.splitSign_eq] at areDigits denoted
  exact ⟨_, denotes_iff.mpr ⟨areDigits, rfl⟩, denoted.symm⟩

/-- Without a point a number is a row of digits. -/
theorem isDigits_of_notMem (noPoint : '.' ∉ lexeme) : isDigits lexeme = true := by
  obtain ⟨first, others, rfl, _⟩ := belongs.exists_digit_cons
  refine isDigits_iff.mpr ⟨List.cons_ne_nil _ _, fun char member => ?_⟩
  exact (belongs.isDigit_or_point char member).resolve_right
    fun same => noPoint (same ▸ member)

theorem isPadded_eq_false : Text.isPadded lexeme = false := by
  have noBlank : ∀ char ∈ lexeme, Text.isBlank char = false := by
    intro char member
    rcases belongs.isDigit_or_point char member with digit | rfl
    · exact Text.isBlank_eq_false_of_isDigit digit
    · decide
  have blankless : ∀ char? : Option Char, (∀ char ∈ char?, char ∈ lexeme) →
      char?.any Text.isBlank = false := by
    intro char? inside
    cases char? with
    | none => rfl
    | some char => exact noBlank char (inside char rfl)
  rw [Text.isPadded, blankless _ fun _ => List.mem_of_head?,
    blankless _ fun _ => List.mem_of_getLast?]
  rfl

theorem map_asciiDigit : lexeme.map Text.asciiDigit = lexeme := by
  refine (List.map_congr_left fun char member => ?_).trans (List.map_id lexeme)
  rcases belongs.isDigit_or_point char member with digit | rfl
  · exact Text.asciiDigit_of_isDigit digit
  · decide

/-- No number is a word for a double without digits. -/
theorem lookup_wordFloats : Native.wordFloats.lookup (lexeme.map Char.toLower) = none := by
  obtain ⟨first, others, rfl, digit⟩ := belongs.exists_digit_cons
  have letters : ∀ entry ∈ Native.wordFloats, entry.1.all Char.isAlpha = true := by decide
  refine List.lookup_eq_none_iff.mpr fun entry member => bne_iff_ne.mpr fun same => ?_
  have letter := List.all_eq_true.mp (letters entry member) first.toLower
    (same ▸ List.mem_cons_self)
  rw [Text.toLower_of_isDigit digit] at letter
  exact Lexer.not_isDigit_of_isAlpha letter digit

/-- A number is read as the double that a literal takes it for. -/
theorem parseFloat?_eq :
    Native.parseFloat? (String.ofList lexeme) = (ofChars? lexeme).map (toBinary64 false) := by
  rw [Native.parseFloat?, String.toList_ofList, belongs.isPadded_eq_false,
    belongs.map_asciiDigit, belongs.splitSign_eq]
  show Native.parseMagnitude? false lexeme = _
  rw [Native.parseMagnitude?, belongs.lookup_wordFloats]

end Token.Lexeme

/-! ### Texts of numbers -/

namespace Native

/-- A row of digits that denotes a word is read as that word. -/
theorem parseAs_int_of_denotes {text : String} {number : Nat}
    (denotes : Denotes text.toList number) (small : (number : Int) ≤ Word.greatest) :
    parseAs "int" text = .ok (.int number) := by
  have inRange : Word.InRange number := by
    refine ⟨?_, small⟩
    simp only [Word.least]
    omega
  exact parseAs_int_of_signed (.bare denotes) inRange

variable {lexeme : String} (belongs : Token.Lexeme .number lexeme.toList)

include belongs

/-- Every other number is refused as an integer. -/
theorem parseAs_int_of_not_denotes
    (others : ∀ number : Nat, Denotes lexeme.toList number → ¬ (number : Int) ≤ Word.greatest) :
    parseAs "int" lexeme = .error (.cannotConvert lexeme .int) := by
  refine parseAs_int_of_not_signed fun value signed inRange => ?_
  obtain ⟨number, denotes, rfl⟩ := belongs.exists_denotes_of_signed signed
  exact others number denotes inRange.2

theorem parseAs_float_of_lexeme {decimal : Decimal}
    (reads : ofChars? lexeme.toList = some decimal) :
    parseAs "float" lexeme = .ok (.float (decimal.toBinary64 false)) := by
  have parses := belongs.parseFloat?_eq
  rw [String.ofList_toList, reads] at parses
  rw [parseAs_float, parses]
  rfl

theorem call_parseText_of_lexeme {type : String} (unquoted : '"' ∉ type.toList) (inputs : Inputs) :
    call .parseText [.string type, .string lexeme] inputs = (parseAs type lexeme, inputs) := by
  have plain : '"' ∉ lexeme.toList := fun quote =>
    absurd (belongs.isDigit_or_point _ quote) (by decide)
  rw [call_parseText unquoted, Value.withoutQuotes_of_notMem plain]

end Native

/-! ### Literals -/

namespace Literal

/-- A row of digits that denotes a word is that word. -/
theorem ofNumber_of_denotes {lexeme : String} {number : Nat}
    (denotes : Denotes lexeme.toList number) (small : (number : Int) ≤ Word.greatest) :
    ofNumber lexeme = .int number := by
  obtain ⟨_, rfl⟩ := denotes_iff.mp denotes
  exact if_pos ⟨denotes.point_notMem, small⟩

/-- Every other number is a double. -/
theorem ofNumber_of_not_denotes {lexeme : String} {decimal : Decimal}
    (belongs : Token.Lexeme .number lexeme.toList)
    (reads : ofChars? lexeme.toList = some decimal)
    (others : ∀ number : Nat, Denotes lexeme.toList number → ¬ (number : Int) ≤ Word.greatest) :
    ofNumber lexeme = .float (decimal.toBinary64 false) := by
  have noWord : ¬ ('.' ∉ lexeme.toList ∧
      (digitsValue lexeme.toList : Int) ≤ Word.greatest) := fun ⟨noPoint, small⟩ =>
    others _ (denotes_iff.mpr ⟨belongs.isDigits_of_notMem noPoint, rfl⟩) small
  refine (if_neg noWord).trans ?_
  rw [reads]
  rfl

end Literal

/-- The lexeme of a number is read as an integer if it has no point and denotes a word, and then the
literal is that integer. It is always read as a double, and if it is refused as an integer, the
literal is that double. -/
theorem Token.Scanned.literal_reads_alike {lexeme : String} (scanned : Token.Scanned lexeme)
    (inputs : Inputs) :
    let read := fun type => Native.call .parseText [.string type, .string lexeme] inputs
    ((∃ value, read "int" = (.ok value, inputs)) ↔
        '.' ∉ lexeme.toList ∧
          ∃ number : Nat, Denotes lexeme.toList number ∧ (number : Int) ≤ Word.greatest) ∧
      (∀ value, read "int" = (.ok value, inputs) →
        ∃ number, value = .int number ∧ Literal.ofNumber lexeme = .int number) ∧
      ∃ number, read "float" = (.ok (.float number), inputs) ∧
        ((¬ ∃ value, read "int" = (.ok value, inputs)) →
          (∃ fault, read "int" = (.error fault, inputs)) ∧
            Literal.ofNumber lexeme = .float number) := by
  intro read
  have belongs := scanned.belongs
  obtain ⟨decimal, numeral⟩ := belongs.exists_ofChars?
  have int : read "int" = (Native.parseAs "int" lexeme, inputs) :=
    Native.call_parseText_of_lexeme belongs (by decide) inputs
  have float : read "float" = (.ok (.float (decimal.toBinary64 false)), inputs) := by
    rw [← Native.parseAs_float_of_lexeme belongs numeral]
    exact Native.call_parseText_of_lexeme belongs (by decide) inputs
  by_cases word : ∃ number : Nat, Denotes lexeme.toList number ∧ (number : Int) ≤ Word.greatest
  case pos =>
    obtain ⟨number, denotes, small⟩ := word
    rw [Native.parseAs_int_of_denotes denotes small] at int
    have literal := Literal.ofNumber_of_denotes denotes small
    refine ⟨⟨fun _ => ⟨denotes.point_notMem, number, denotes, small⟩, fun _ => ⟨_, int⟩⟩,
      fun value same => ⟨number, ?_, literal⟩, _, float, fun refused => absurd ⟨_, int⟩ refused⟩
    rw [int] at same
    cases same
    rfl
  case neg =>
    have others : ∀ number : Nat, Denotes lexeme.toList number →
        ¬ (number : Int) ≤ Word.greatest :=
      fun number denotes small => word ⟨number, denotes, small⟩
    rw [Native.parseAs_int_of_not_denotes belongs others] at int
    have literal := Literal.ofNumber_of_not_denotes belongs numeral others
    have refused : ∀ value, read "int" ≠ (.ok value, inputs) := by
      intro value same
      rw [int] at same
      cases same
    exact ⟨⟨fun ⟨value, same⟩ => absurd same (refused value), fun denoted => absurd denoted.2 word⟩,
      fun value same => absurd same (refused value), _, float, fun _ => ⟨⟨_, int⟩, literal⟩⟩

/-- The least number that is no word. -/
theorem Token.Scanned.literal_reads_alike_boundary :
    let inputs := Inputs.start "" fun _ => 0
    let lexeme := "09223372036854775808"
    let read := fun type => Native.call .parseText [.string type, .string lexeme] inputs
    Token.Scanned lexeme ∧ (¬ ∃ value, read "int" = (.ok value, inputs)) ∧
      ∃ number, read "float" = (.ok (.float number), inputs) ∧
        Literal.ofNumber lexeme = .float number := by
  intro inputs lexeme read
  have scanned : Token.Scanned lexeme :=
    ⟨lexeme.toList, 1, ⟨.number, lexeme, 1⟩, by decide +kernel, rfl, rfl⟩
  obtain ⟨integer, _, number, double, literal⟩ := scanned.literal_reads_alike inputs
  have refused : ¬ ∃ value, read "int" = (.ok value, inputs) := by
    intro some
    obtain ⟨_, number, denotes, small⟩ := integer.mp some
    have denoted : digitsValue lexeme.toList = 9223372036854775808 := by decide +kernel
    rw [← (denotes_iff.mp denotes).2, denoted] at small
    exact absurd small (by decide)
  exact ⟨scanned, refused, number, double, (literal refused).2⟩

end Lox
