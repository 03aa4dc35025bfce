/-
This file reads decimal numerals: digits with an optional point and an
optional exponent of ten. A numeral is kept as an integer times a power of
ten, and rounded once to the nearest double.
-/

import Lox.Number.Binary64

namespace Lox

/-- The number `mantissa * 10 ^ exponent`. -/
structure Decimal where
  mantissa : Nat
  exponent : Int
  deriving DecidableEq

namespace Decimal

/-! ### The nearest double -/

/-- Powers of ten beyond this one are infinite as doubles, and their inverses zero. -/
def reach : Nat := 400

/-- The double nearest to a decimal with the given sign. Exponents far out of reach are decided
without computing the power. -/
def toBinary64 (negative : Bool) (decimal : Decimal) : Binary64 :=
  if decimal.mantissa = 0 then
    .zero negative
  else if (reach : Int) < decimal.exponent then
    .infinity negative
  else if decimal.exponent + (decimal.mantissa.log2 + 1 : Nat) < -(reach : Int) then
    .zero negative
  else
    match decimal.exponent with
    | .ofNat power => .ofRatio negative (decimal.mantissa * Nat.pow 10 power) 1
    | .negSucc power => .ofRatio negative decimal.mantissa (Nat.pow 10 (power + 1))

/-! ### Reading -/

/-- The number that a row of decimal digits denotes. -/
def digitsValue (digits : List Char) : Nat := Nat.ofDigitChars 10 digits 0

/-- The text is one or more decimal digits. -/
def isDigits (text : List Char) : Bool := !text.isEmpty && text.all Char.isDigit

/-- The text without a sign in front, and whether that sign was a minus. -/
def splitSign : List Char → Bool × List Char
  | '-' :: rest => (true, rest)
  | '+' :: rest => (false, rest)
  | text => (false, text)

/-- The exponent that may end a numeral: nothing, or `e` and a signed row of digits. -/
def readExponent : List Char → Option Int
  | [] => some 0
  | mark :: rest =>
    if mark = 'e' ∨ mark = 'E' then
      let (negative, digits) := splitSign rest
      if isDigits digits then
        some (if negative then -(digitsValue digits) else digitsValue digits)
      else
        none
    else
      none

/-- The fraction digits after a point, if there is one, and the text behind them. -/
def splitFraction : List Char → List Char × List Char
  | '.' :: rest => (rest.takeWhile Char.isDigit, rest.dropWhile Char.isDigit)
  | text => ([], text)

/-- Reads an unsigned numeral. It has a digit before or after its point. -/
def ofChars? (text : List Char) : Option Decimal :=
  let whole := text.takeWhile Char.isDigit
  let (fraction, rest) := splitFraction (text.dropWhile Char.isDigit)
  if whole.isEmpty && fraction.isEmpty then
    none
  else
    (readExponent rest).map fun exponent =>
      { mantissa := digitsValue (whole ++ fraction), exponent := exponent - fraction.length }

end Decimal

end Lox
