/-
This file writes numbers in decimal: integers exactly, and doubles with a
fixed number of places, correctly rounded from their exact value.
-/

import Lox.Number.Binary64

namespace Lox

/-- The decimal text of an integer, with a minus in front of a negative one. -/
def decimalText (value : Int) : String :=
  let digits := Nat.toDigits 10 value.natAbs
  String.ofList (if value < 0 then '-' :: digits else digits)

/-- How doubles are written: the number of places, and the words for the values without any. -/
structure FixedFormat where
  places : Nat
  nan : String
  positiveInfinity : String
  negativeInfinity : String

namespace FixedFormat

/-- The magnitude `numerator / denominator` with the places of the format. -/
def magnitude (format : FixedFormat) (numerator denominator : Nat) : List Char :=
  let scaled := roundHalfEven (numerator * Nat.pow 10 format.places) denominator
  let digits := (Nat.toDigits 10 scaled).leftpad (format.places + 1) '0'
  let wholeLength := digits.length - format.places
  digits.take wholeLength ++ '.' :: digits.drop wholeLength

/-- The text of a double. A negative zero keeps its sign. -/
def text (format : FixedFormat) : Binary64 → String
  | .nan => format.nan
  | .number negative rank _ =>
    if rank = Binary64.infinityRank then
      if negative then format.negativeInfinity else format.positiveInfinity
    else
      let magnitude := format.magnitude (Binary64.unitsAt rank) Binary64.unitsInOne
      String.ofList (if negative then '-' :: magnitude else magnitude)

end FixedFormat

end Lox
