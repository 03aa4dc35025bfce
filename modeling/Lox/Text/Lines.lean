/-
This file cuts texts into lines. Source text is cut at newlines only, and a
carriage return that ends a line belongs to the line end. The other styles of
line end can be turned into newlines beforehand.
-/

namespace Lox.Text

/-- The pieces of a text between its separators; there is always one more than separators. -/
def pieces (separator : Char) (text : List Char) : List (List Char) :=
  text.foldr
    (fun char pieces =>
      if char = separator then [] :: pieces
      else
        match pieces with
        | [] => [[char]]
        | first :: rest => (char :: first) :: rest)
    [[]]

/-- The line without a carriage return at its end. -/
def dropReturn (line : List Char) : List Char :=
  if line.getLast? = some '\r' then line.dropLast else line

/-- The pieces without an empty last one: a newline at the end of a text starts no line. -/
def dropEmptyLast (pieces : List (List Char)) : List (List Char) :=
  if pieces.getLast? = some [] then pieces.dropLast else pieces

/-- The lines of a source text. -/
def splitLines (source : String) : List String :=
  (dropEmptyLast (pieces '\n' source.toList)).map fun line => String.ofList (dropReturn line)

/-- A carriage return, alone or with the newline after it, becomes a newline. -/
def normalizeNewlines : List Char → List Char
  | '\r' :: '\n' :: rest => '\n' :: normalizeNewlines rest
  | '\r' :: rest => '\n' :: normalizeNewlines rest
  | char :: rest => char :: normalizeNewlines rest
  | [] => []

/-! ### Facts about pieces -/

@[simp] theorem pieces_nil (separator : Char) : pieces separator [] = [[]] := rfl

theorem pieces_ne_nil (separator : Char) (text : List Char) : pieces separator text ≠ [] := by
  cases text with
  | nil => simp
  | cons char rest =>
    simp only [pieces, List.foldr_cons]
    split
    · simp
    · split <;> simp

/-- A separator ends the first piece. -/
@[simp] theorem pieces_cons_self (separator : Char) (rest : List Char) :
    pieces separator (separator :: rest) = [] :: pieces separator rest := by
  simp [pieces]

end Lox.Text
