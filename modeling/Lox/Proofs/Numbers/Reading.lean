/-
This file proves that printed integers read back. A row of digits with a
semicolon behind it is scanned as a number and parsed as a literal, and with a
minus in front as the change of sign of that literal. The digits are read without
the minus, so an integer comes back exactly if its magnitude is a word. The
smallest word is the one whose magnitude is not: its digits are read as a double,
and the minus makes that the double of the smallest word.
-/

import Lox.Proofs.Fuel
import Lox.Proofs.Lines.Splitting
import Lox.Proofs.Parsing.Completeness
import Lox.Proofs.Token.Longest
import Lox.Proofs.Token.Numerals

namespace Lox

open Grammar

/-! ### Digits -/

/-- The range of words is not symmetric: only the smallest one has a magnitude that is no word. -/
theorem Word.natAbs_le_greatest_iff {value : Int} (range : InRange value) :
    (value.natAbs : Int) ≤ greatest ↔ value ≠ least := by
  simp only [InRange, least, greatest] at range ⊢
  omega

theorem Decimal.digitsValue_toDigits (number : Nat) :
    digitsValue (Nat.toDigits 10 number) = number :=
  Nat.ofDigitChars_ten_toDigits

/-- A decimal without an exponent is rounded as the integer that it is. -/
theorem Decimal.toBinary64_of_exponent_eq_zero {number : Nat} (nonzero : number ≠ 0) :
    toBinary64 false ⟨number, 0⟩ = .ofInt number := by
  have notHuge : ¬ (reach : Int) < 0 := by decide
  have notTiny : ¬ (0 : Int) + (number.log2 + 1 : Nat) < -(reach : Int) := by omega
  rw [toBinary64, if_neg nonzero, if_neg notHuge, if_neg notTiny]
  show Binary64.ofRatio false (number * 1) 1 = Binary64.ofRatio _ _ 1
  rw [Nat.mul_one, Int.natAbs_natCast, decide_eq_false (by omega)]

/-- The double of a positive integer, with the sign changed. -/
theorem Binary64.negate_ofInt {number : Nat} (nonzero : number ≠ 0) :
    (ofInt number).negate = ofInt (-number) := by
  have positive : decide ((number : Int) < 0) = false := decide_eq_false (by omega)
  have negative : decide (-(number : Int) < 0) = true := decide_eq_true (by omega)
  rw [ofInt, ofInt, positive, negative, Int.natAbs_neg]
  rfl

/-- The literal of the digits of a number: the number itself if it is a word, and otherwise its
double. -/
theorem Literal.ofNumber_toDigits (number : Nat) :
    ofNumber (String.ofList (Nat.toDigits 10 number)) =
      if (number : Int) ≤ Word.greatest then .int number else .float (.ofInt number) := by
  have all : ∀ char ∈ Nat.toDigits 10 number, char.isDigit = true :=
    fun char => Nat.isDigit_of_mem_toDigits (by decide) (by decide)
  have noPoint : '.' ∉ Nat.toDigits 10 number := fun member => absurd (all _ member) (by decide)
  rw [ofNumber, String.toList_ofList]
  simp only [noPoint, Decimal.digitsValue_toDigits, not_false_iff, true_and]
  split
  · rfl
  · next large =>
    have nonzero : number ≠ 0 := by
      rintro rfl
      exact large (by decide)
    rw [Decimal.ofChars?_of_digits Nat.toDigits_ne_nil all, Decimal.digitsValue_toDigits,
      Option.map_some, Option.getD_some, Decimal.toBinary64_of_exponent_eq_zero nonzero]

/-! ### Sources of one line -/

namespace Lexer

/-- The scan of a source that is one line. -/
theorem scan_of_isLine {line : List Char} {tokens : List Token} (some : line ≠ [])
    (isLine : Text.IsLine line) (scans : scanLine 1 line = ⟨tokens, none⟩) :
    scan (String.ofList line) = ⟨⟨tokens, ⟨.eof, "", 1⟩⟩, []⟩ := by
  rw [scan, Text.splitLines_of_isLine some isLine, scanLines]
  simp only [scanFrom, List.zipIdx_singleton, List.map_cons, List.map_nil, String.toList_ofList,
    scans, List.flatMap_singleton, List.length_singleton]
  rfl

/-- Digits are scanned as a number up to a semicolon behind them. -/
theorem scanLine_digits {digits : List Char} (some : digits ≠ [])
    (all : ∀ char ∈ digits, char.isDigit = true) (number : Nat) :
    scanLine number (digits ++ [';']) =
      ⟨[⟨.number, String.ofList digits, number⟩, ⟨.semicolon, ";", number⟩], none⟩ := by
  obtain ⟨first, others, rfl⟩ := List.exists_cons_of_ne_nil some
  have found : front first (others ++ [';']) = .token .number (first :: others) [';'] := by
    rw [front_of_digit (all _ List.mem_cons_self), ← List.cons_append, numberFront,
      List.takeWhile_append_of_pos all, List.dropWhile_append_of_pos all]
    simp [List.takeWhile_cons_of_neg, List.dropWhile_cons_of_neg]
  rw [List.cons_append, scanLine_of_token found,
    @scanLine_of_token _ ';' [] [';'] [] .semicolon rfl, scanLine]
  rfl

end Lexer

/-- An expression of the rank of prefix operators is an expression of the loosest rank. -/
theorem Grammar.Expression.loosest {tokens rest : List Token} {value : Expr}
    (derives : Expression .unary tokens value rest) : Expression .assignment tokens value rest :=
  .tighter rfl (.tighter rfl (.tighter rfl (.tighter rfl (.tighter rfl (.tighter rfl
    (.tighter rfl derives))))))

/-- A number is an expression of the rank of prefix operators. -/
theorem Grammar.Expression.number {token : Token} {rest : List Token}
    (kind : token.kind = .number) :
    Expression .unary (token :: rest) (.literal (.ofNumber token.lexeme)) rest :=
  .tighter rfl (.tighter rfl (.atom (.number kind)))

namespace Session

/-- A source that the grammar derives is accepted with the statements it derives. -/
theorem accepted_of_derives {source : String} {tokens : List Token} {eof : Token}
    {statements : List Stmt} (scans : Lexer.scan source = ⟨⟨tokens, eof⟩, []⟩)
    (derives : Grammar.Program tokens statements) :
    Accepted source ∧ statementsOf source = statements := by
  obtain ⟨clean, same⟩ := (Program.clean_ofStream_iff ⟨tokens, eof⟩ statements).mpr
    ⟨[], Parser.takes_program derives (Nat.lt_succ_self _)⟩
  refine ⟨⟨?_, ?_⟩, ?_⟩
  · rw [scans]
    rfl
  · rw [scans]
    exact clean
  · rw [statementsOf, scans]
    exact same

/-! ### Sources that are expressions -/

/-- The source has no static error and is one expression, which has the value wherever it is
evaluated, and whose evaluation changes nothing. -/
def ReadsAs (source : String) (value : Value) : Prop :=
  Accepted source ∧ ∃ expression, statementsOf source = [.expression expression] ∧
    ∀ scope machine, expression.Evaluates scope machine value

/-- A source reads as one value only. -/
theorem ReadsAs.unique {source : String} {first second : Value} (reads : ReadsAs source first)
    (readsAgain : ReadsAs source second) : first = second := by
  obtain ⟨_, expression, same, evaluates⟩ := reads
  obtain ⟨_, other, otherSame, evaluatesAgain⟩ := readsAgain
  obtain rfl : expression = other := by
    rw [same] at otherSame
    cases otherSame
    rfl
  let machine := Machine.start (.start "" fun _ => 0) 0
  exact (evaluates globalScope machine).unique (evaluatesAgain globalScope machine)

/-- A line that is scanned as an expression and a semicolon. -/
theorem readsAs_of_derives {line : List Char} {tokens : List Token} {semicolon : Token}
    {expression : Expr} {value : Value} (some : line ≠ []) (isLine : Text.IsLine line)
    (scans : Lexer.scanLine 1 line = ⟨tokens, none⟩)
    (derives : Expression .unary tokens expression [semicolon])
    (ends : semicolon.kind = .semicolon)
    (evaluates : ∀ scope machine, expression.Evaluates scope machine value) :
    ReadsAs (String.ofList line) value := by
  have statement : Declaration tokens (.expression expression) [] :=
    .statement (.expression (.expression derives.loosest ends))
  obtain ⟨accepted, statements⟩ :=
    accepted_of_derives (Lexer.scan_of_isLine some isLine scans) (.cons statement .nil)
  exact ⟨accepted, expression, statements, evaluates⟩

section

variable {digits : List Char} (some : digits ≠ []) (all : ∀ char ∈ digits, char.isDigit = true)

include some all

/-- Digits read as the literal that they are. -/
theorem readsAs_digits :
    ReadsAs (String.ofList (digits ++ [';'])) (Literal.ofNumber (String.ofList digits)).value := by
  have isLine : Text.IsLine (digits ++ [';']) :=
    @Text.IsLine.of_forall (fun char => char.isDigit || char = ';') _
      (List.forall_mem_append.mpr
        ⟨fun char member => by rw [all char member]; rfl, List.forall_mem_singleton.mpr rfl⟩)
      (by decide) (by decide)
  exact readsAs_of_derives (by simp) isLine (Lexer.scanLine_digits some all 1)
    (.number rfl) rfl fun _ _ => Expr.evaluates_literal _

/-- Digits with a minus in front read as the literal that they are with its sign changed. -/
theorem readsAs_minus_digits {value : Value}
    (computes : Operator.unary ⟨.minus, "-", 1⟩ (Literal.ofNumber (String.ofList digits)).value =
      .ok value) :
    ReadsAs (String.ofList ('-' :: digits ++ [';'])) value := by
  have isLine : Text.IsLine ('-' :: digits ++ [';']) :=
    @Text.IsLine.of_forall (fun char => char.isDigit || char = ';' || char = '-') _
      (List.forall_mem_cons.mpr ⟨rfl, List.forall_mem_append.mpr
        ⟨fun char member => by rw [all char member]; rfl, List.forall_mem_singleton.mpr rfl⟩⟩)
      (by decide) (by decide)
  have scans : Lexer.scanLine 1 ('-' :: digits ++ [';']) =
      ⟨[⟨.minus, "-", 1⟩, ⟨.number, String.ofList digits, 1⟩, ⟨.semicolon, ";", 1⟩], none⟩ := by
    rw [List.cons_append, @Lexer.scanLine_of_token _ '-' _ ['-'] _ .minus rfl,
      Lexer.scanLine_digits some all]
    rfl
  exact readsAs_of_derives (by simp) isLine scans (.unary (.inr rfl) (.number rfl)) rfl
    fun _ _ => (Expr.evaluates_literal _).unary computes

end

/-! ### Printed integers -/

/-- An integer of any size, printed and read, is itself if its magnitude is a word, and otherwise
its double. -/
theorem readsAs_text (value : Int) :
    ReadsAs ((Value.int value).text ++ ";")
      (if (value.natAbs : Int) ≤ Word.greatest then .int value else .float (.ofInt value)) := by
  have all : ∀ char ∈ Nat.toDigits 10 value.natAbs, char.isDigit = true :=
    fun char => Nat.isDigit_of_mem_toDigits (by decide) (by decide)
  have semicolon (text : List Char) : String.ofList text ++ ";" = String.ofList (text ++ [';']) :=
    String.ofList_append.symm
  rw [Value.text, decimalText, semicolon]
  rcases Int.lt_or_le value 0 with negative | nonnegative
  · obtain ⟨number, rfl⟩ : ∃ number : Nat, value = -number := ⟨value.natAbs, by omega⟩
    rw [Int.natAbs_neg, Int.natAbs_natCast] at all ⊢
    rw [if_pos negative]
    refine readsAs_minus_digits Nat.toDigits_ne_nil all ?_
    rw [Literal.ofNumber_toDigits]
    split
    · next small =>
      have range : Word.InRange (-number) := by
        simp only [Word.InRange, Word.least, Word.greatest] at small ⊢
        omega
      show Except.ok (Value.int (Word.wrap (-number))) = _
      rw [Word.wrap_of_inRange range]
    · show Except.ok (Value.float (Binary64.ofInt number).negate) = _
      rw [Binary64.negate_ofInt (by omega)]
  · obtain ⟨number, rfl⟩ := Int.eq_ofNat_of_zero_le nonnegative
    have reads := readsAs_digits Nat.toDigits_ne_nil all
    rw [Int.natAbs_natCast] at all reads ⊢
    rw [if_neg (by omega)]
    rw [Literal.ofNumber_toDigits] at reads
    split at reads
    · next small => rwa [if_pos small]
    · next large => rwa [if_neg large]

/-- The printed form of a word reads as that word, unless it is the smallest one, which reads as its
double. -/
theorem text_readsAs_word {value : Int} (range : Word.InRange value) :
    (value ≠ Word.least → ReadsAs ((Value.int value).text ++ ";") (.int value)) ∧
    (value = Word.least → ReadsAs ((Value.int value).text ++ ";") (.float (.ofInt value))) := by
  have reads := readsAs_text value
  constructor
  · intro notLeast
    rwa [if_pos ((Word.natAbs_le_greatest_iff range).mpr notLeast)] at reads
  · intro least
    rwa [if_neg (mt (Word.natAbs_le_greatest_iff range).mp (not_not_intro least))] at reads

/-- The smallest word but one. -/
theorem text_readsAs_word_negative :
    Word.InRange (-9223372036854775807) ∧ (-9223372036854775807 : Int) ≠ Word.least ∧
      ReadsAs "-9223372036854775807;" (.int (-9223372036854775807)) := by
  have range : Word.InRange (-9223372036854775807) := by decide
  have notLeast : (-9223372036854775807 : Int) ≠ Word.least := by decide
  have printed : (Value.int (-9223372036854775807)).text ++ ";" = "-9223372036854775807;" := by
    decide +kernel
  have reads := (text_readsAs_word range).1 notLeast
  rw [printed] at reads
  exact ⟨range, notLeast, reads⟩

/-- The digits of the smallest word are no word without the minus, so it does not read as itself. -/
theorem not_text_readsAs_word_least :
    Word.InRange Word.least ∧ (Value.int Word.least).text ++ ";" = "-9223372036854775808;" ∧
      ¬ ReadsAs ((Value.int Word.least).text ++ ";") (.int Word.least) := by
  refine ⟨by decide, by decide +kernel, fun reads => ?_⟩
  have isDouble := readsAs_text Word.least
  rw [if_neg (by decide)] at isDouble
  cases reads.unique isDouble

end Session

end Lox
