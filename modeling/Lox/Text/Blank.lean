/-
This file says which characters are blank: the spaces, separators and line
breaks of Unicode together with the ASCII separator controls.
-/

namespace Lox.Text

/-- The ranges of blank code points, first and last included, in increasing order. -/
def blankRanges : List (Nat × Nat) :=
  [(0x09, 0x0D), (0x1C, 0x20), (0x85, 0x85), (0xA0, 0xA0), (0x1680, 0x1680), (0x2000, 0x200A),
    (0x2028, 0x2029), (0x202F, 0x202F), (0x205F, 0x205F), (0x3000, 0x3000)]

/-- The character is blank. -/
def isBlank (char : Char) : Bool :=
  blankRanges.any fun (first, last) => first ≤ char.toNat && char.toNat ≤ last

/-- The text has no character that is not blank. -/
def isBlankText (text : String) : Bool := text.toList.all isBlank

/-- The text begins or ends with a blank. -/
def isPadded (text : List Char) : Bool :=
  text.head?.any isBlank || text.getLast?.any isBlank

end Lox.Text
