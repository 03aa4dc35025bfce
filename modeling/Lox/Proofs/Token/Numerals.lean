/-
This file proves that the numbers that the scanner makes can be read: they are
rows of digits, with or without a point between two of them.
-/

import Lox.Proofs.Token.Tiling
import Mathlib.Data.List.TakeWhile

namespace Lox

open Token (Kind)

/-- The text is that of a number that the scanner makes of some line. -/
def Token.Scanned (lexeme : String) : Prop :=
  ∃ (line : List Char) (number : Nat) (token : Token),
    token ∈ (Lexer.scanLine number line).tokens ∧ token.kind = .number ∧ token.lexeme = lexeme

/-- The tokens of a line are lexemes. -/
theorem Lexer.Tiles.lexeme_of_mem {number : Nat} {text stop : List Char} {tokens : List Token}
    {error? : Option LexicalError} (tiles : Tiles number text tokens stop error?) {token : Token}
    (member : token ∈ tokens) : Token.Lexeme token.kind token.lexeme.toList := by
  induction tiles with
  | lineEnd | comment | bare _ _ | secondPoint _ => exact absurd member List.not_mem_nil
  | separator _ _ inductionHypothesis => exact inductionHypothesis member
  | lexeme longest _ _ _ inductionHypothesis =>
    rcases List.mem_cons.mp member with rfl | further
    · rw [String.toList_ofList]
      exact longest.belongs
    · exact inductionHypothesis further

namespace Token

/-- A number is a row of digits, or two with a point between them. -/
theorem Lexeme.digits_or_fraction {lexeme : List Char} (belongs : Lexeme .number lexeme) :
    ∃ digits, digits ≠ [] ∧ (∀ char ∈ digits, char.isDigit = true) ∧
      (lexeme = digits ∨ ∃ places, (∀ char ∈ places, char.isDigit = true) ∧
        lexeme = digits ++ '.' :: places) := by
  cases belongs with
  | spelled spelled =>
    cases spelled with
    | symbol member => exact absurd member (Lexer.notMem_of_number (by decide))
    | keyword member => exact absurd member (Lexer.notMem_of_number (by decide))
    | whole some all => exact ⟨_, some, all, .inl rfl⟩
    | fraction some all _ allPlaces => exact ⟨_, some, all, .inr ⟨_, allPlaces, rfl⟩⟩

theorem Scanned.belongs {lexeme : String} (scanned : Scanned lexeme) :
    Lexeme .number lexeme.toList := by
  obtain ⟨line, number, token, member, isNumber, rfl⟩ := scanned
  obtain ⟨stop, tiles⟩ := Lexer.tiles_scanLine number line
  exact isNumber ▸ tiles.lexeme_of_mem member

end Token

namespace Decimal

theorem ofChars?_of_digits {digits : List Char} (some : digits ≠ [])
    (all : ∀ char ∈ digits, char.isDigit = true) :
    ofChars? digits = Option.some { mantissa := digitsValue digits, exponent := 0 } := by
  have taken : digits.takeWhile Char.isDigit = digits := List.takeWhile_eq_self_iff.mpr all
  have dropped : digits.dropWhile Char.isDigit = [] := List.dropWhile_eq_nil_iff.mpr all
  have present := List.isEmpty_eq_false_iff.mpr some
  simp [ofChars?, splitFraction, readExponent, taken, dropped, present]

theorem ofChars?_of_fraction {digits places : List Char} (some : digits ≠ [])
    (all : ∀ char ∈ digits, char.isDigit = true)
    (allPlaces : ∀ char ∈ places, char.isDigit = true) :
    ofChars? (digits ++ '.' :: places) =
      Option.some
        { mantissa := digitsValue (digits ++ places), exponent := -(places.length : Int) } := by
  have taken : (digits ++ '.' :: places).takeWhile Char.isDigit = digits := by
    rw [List.takeWhile_append_of_pos all, List.takeWhile_cons_of_neg (by decide), List.append_nil]
  have dropped : (digits ++ '.' :: places).dropWhile Char.isDigit = '.' :: places := by
    rw [List.dropWhile_append_of_pos all, List.dropWhile_cons_of_neg (by decide)]
  have takenPlaces : places.takeWhile Char.isDigit = places :=
    List.takeWhile_eq_self_iff.mpr allPlaces
  have droppedPlaces : places.dropWhile Char.isDigit = [] :=
    List.dropWhile_eq_nil_iff.mpr allPlaces
  have present := List.isEmpty_eq_false_iff.mpr some
  simp [ofChars?, splitFraction, readExponent, taken, dropped, takenPlaces, droppedPlaces, present]

end Decimal

end Lox
