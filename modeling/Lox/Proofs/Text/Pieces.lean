/-
This file computes the lines of texts that are put together. Cutting a text
into pieces is splitting a list, so a text with a newline in the middle has the
pieces of its first part and then the lines of its second part.
-/

import Lox.Text.Lines

namespace Lox.Text

variable {separator : Char}

/-- The pieces of a text are those of its list of characters. -/
theorem pieces_eq_splitOn (separator : Char) (text : List Char) :
    pieces separator text = text.splitOn separator := by
  induction text with
  | nil => rfl
  | cons char rest inductionHypothesis =>
    rw [pieces, List.foldr_cons, ← pieces, inductionHypothesis,
      List.splitOn_cons_eq_if_modifyHead]
    by_cases same : char = separator
    · rw [if_pos same, if_pos (beq_iff_eq.mpr same)]
    · rw [if_neg same, if_neg (mt beq_iff_eq.mp same)]
      cases split : rest.splitOn separator with
      | nil => exact absurd split (List.splitOn_ne_nil _ _)
      | cons first others => rfl

/-- There is one piece more than separators. -/
theorem length_pieces (separator : Char) (text : List Char) :
    (pieces separator text).length = text.count separator + 1 := by
  rw [pieces_eq_splitOn]
  induction text with
  | nil => rfl
  | cons char rest inductionHypothesis =>
    rw [List.splitOn_cons_eq_if_modifyHead]
    by_cases same : char = separator
    · subst same
      rw [if_pos (beq_self_eq_true char), List.length_cons, inductionHypothesis,
        List.count_cons_self]
    · rw [if_neg (mt beq_iff_eq.mp same), List.length_modifyHead, inductionHypothesis,
        List.count_cons_of_ne same]

/-- Only the last of all pieces can be dropped. -/
theorem dropEmptyLast_append (first : List (List Char)) {rest : List (List Char)}
    (some : rest ≠ []) : dropEmptyLast (first ++ rest) = first ++ dropEmptyLast rest := by
  rw [dropEmptyLast, dropEmptyLast, List.getLast?_append, List.getLast?_eq_some_getLast some,
    Option.some_or]
  split
  · exact List.dropLast_append_of_ne_nil some
  · rfl

/-- All pieces but for carriage returns, the empty last one included. -/
def allLines (source : String) : List String :=
  (pieces '\n' source.toList).map fun line => String.ofList (dropReturn line)

/-- The lines of two texts with a newline between them are all pieces of the first one, and then
the lines of the second. -/
theorem splitLines_append (first rest : String) :
    splitLines (first ++ "\n" ++ rest) = allLines first ++ splitLines rest := by
  have toList : (first ++ "\n" ++ rest).toList = first.toList ++ '\n' :: rest.toList := by
    rw [String.toList_append, String.toList_append, List.append_assoc]
    rfl
  rw [splitLines, toList, pieces_eq_splitOn, List.splitOn_append_cons_self, ← pieces_eq_splitOn,
    ← pieces_eq_splitOn, dropEmptyLast_append _ (pieces_ne_nil _ _), List.map_append]
  rfl

/-- There is one piece more than newlines. -/
theorem length_allLines (source : String) :
    (allLines source).length = source.toList.count '\n' + 1 := by
  rw [allLines, List.length_map, length_pieces]

/-- The lines of a text are its pieces, except that an empty last one counts for nothing. -/
theorem allLines_eq (source : String) :
    allLines source = splitLines source ∨ allLines source = splitLines source ++ [""] := by
  rw [allLines, splitLines, dropEmptyLast]
  split
  · next last =>
    right
    obtain ⟨front, split⟩ := List.getLast?_eq_some_iff.mp last
    rw [split, List.dropLast_concat, List.map_append]
    rfl
  · exact .inl rfl

/-! ### Texts made of lines -/

/-- The text is a whole line: it has no newline, and no carriage return that would belong to its
end. -/
structure IsLine (text : List Char) : Prop where
  newline : '\n' ∉ text
  carriageReturn : text.getLast? ≠ some '\r'

namespace IsLine

theorem nil : IsLine [] := ⟨List.not_mem_nil, nofun⟩

theorem of_forall {keep : Char → Bool} {text : List Char} (all : ∀ char ∈ text, keep char = true)
    (newline : keep '\n' = false) (carriageReturn : keep '\r' = false) : IsLine text where
  newline member := Bool.false_ne_true (newline ▸ all _ member)
  carriageReturn last := Bool.false_ne_true (carriageReturn ▸ all _ (List.mem_of_getLast? last))

/-- A line behind a text without newlines and a space. -/
theorem append_cons {first rest : List Char} (newline : '\n' ∉ first) (isLine : IsLine rest) :
    IsLine (first ++ ' ' :: rest) where
  newline member := by
    rcases List.mem_append.mp member with inside | behind
    · exact newline inside
    · exact isLine.newline ((List.mem_cons.mp behind).resolve_left (by decide))
  carriageReturn last := by
    rw [List.getLast?_append, List.getLast?_cons, Option.some_or] at last
    cases tail : rest.getLast? with
    | none =>
      rw [tail] at last
      exact absurd last (by decide)
    | some char =>
      rw [tail] at last
      exact isLine.carriageReturn (tail.trans last)

/-- Lines with spaces between them are a line. -/
theorem intercalate {parts : List (List Char)} (all : ∀ part ∈ parts, IsLine part) :
    IsLine ([' '].intercalate parts) := by
  induction parts with
  | nil => exact nil
  | cons first others inductionHypothesis =>
    obtain ⟨firstLine, otherLines⟩ := List.forall_mem_cons.mp all
    cases others with
    | nil =>
      rw [List.intercalate_singleton]
      exact firstLine
    | cons second others =>
      rw [List.intercalate_cons_cons, List.append_assoc, List.singleton_append]
      exact append_cons firstLine.newline (inductionHypothesis otherLines)

end IsLine

/-- A text of whole lines, each with a newline, has these lines. -/
theorem splitLines_flatMap {lines : List (List Char)} (all : ∀ line ∈ lines, IsLine line) :
    splitLines (String.ofList (lines.flatMap (· ++ ['\n']))) = lines.map String.ofList := by
  have cut : pieces '\n' (lines.flatMap (· ++ ['\n'])) = lines ++ [[]] := by
    rw [pieces_eq_splitOn]
    induction lines with
    | nil => rfl
    | cons line lines inductionHypothesis =>
      obtain ⟨isLine, others⟩ := List.forall_mem_cons.mp all
      rw [List.flatMap_cons, List.append_assoc, List.singleton_append,
        List.splitOn_append_cons_self_of_not_mem isLine.newline, inductionHypothesis others,
        List.cons_append]
  rw [splitLines, String.toList_ofList, cut, dropEmptyLast_append _ (List.cons_ne_nil _ _)]
  refine (congrArg _ (List.append_nil lines)).trans (List.map_congr_left fun line member => ?_)
  rw [dropReturn, if_neg (all line member).carriageReturn]

/-- A text that is one whole line has that line alone. -/
theorem splitLines_of_isLine {line : List Char} (some : line ≠ []) (isLine : IsLine line) :
    splitLines (String.ofList line) = [String.ofList line] := by
  have notEmpty : [line].getLast? ≠ Option.some [] := fun empty => some (Option.some.inj empty)
  rw [splitLines, String.toList_ofList, pieces_eq_splitOn, List.splitOn_eq_singleton isLine.newline,
    dropEmptyLast, if_neg notEmpty, List.map_singleton, dropReturn, if_neg isLine.carriageReturn]

end Lox.Text
