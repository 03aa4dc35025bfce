/-
This file proves of which texts it is certain that they are plain, that is
without quotation marks and without newlines: numbers as they are printed,
words, the lines of a text once their quotation marks are gone, and what is put
together from plain texts.
-/

import Lox.Console
import Lox.Native

namespace Lox

namespace Text

/-- The text has neither a quotation mark nor a newline. -/
def Plain (text : List Char) : Prop := ∀ char ∈ text, char ≠ '"' ∧ char ≠ '\n'

instance (text : List Char) : Decidable (Plain text) :=
  decidable_of_iff (text.all (fun char => char != '"' && char != '\n') = true) <| by
    simp only [Plain, List.all_eq_true, Bool.and_eq_true, bne_iff_ne]

theorem Plain.append {first second : List Char} (plainFirst : Plain first)
    (plainSecond : Plain second) : Plain (first ++ second) :=
  List.forall_mem_append.mpr ⟨plainFirst, plainSecond⟩

theorem Plain.mono {text part : List Char} (plain : Plain text) (subset : part ⊆ text) :
    Plain part :=
  fun char member => plain char (subset member)

/-- A plain text has no quotation mark that could be taken from it. -/
theorem Plain.withoutQuotes {text : String} (plain : Plain text.toList) :
    Value.withoutQuotes text = text :=
  Value.withoutQuotes_of_notMem fun member => (plain _ member).1 rfl

theorem plain_withoutQuotes {text : String} (oneLine : '\n' ∉ text.toList) :
    Plain (Value.withoutQuotes text).toList := by
  intro char member
  rw [Value.withoutQuotes, String.toList_ofList, List.mem_filter] at member
  obtain ⟨inside, notQuote⟩ := member
  refine ⟨of_decide_eq_true notQuote, ?_⟩
  rintro rfl
  exact oneLine inside

theorem Plain.oneLine {text : List Char} (plain : Plain text) : '\n' ∉ text :=
  fun member => (plain _ member).2 rfl

/-- Letters and digits make plain texts. -/
theorem plain_of_isAlphanum {text : List Char} (word : ∀ char ∈ text, char.isAlphanum = true) :
    Plain text := by
  intro char member
  have isAlphanum := word char member
  constructor
  · rintro rfl
    exact absurd isAlphanum (by decide)
  · rintro rfl
    exact absurd isAlphanum (by decide)

/-! ### Numbers -/

theorem plain_toDigits (value : Nat) : Plain (Nat.toDigits 10 value) :=
  plain_of_isAlphanum fun char member => by
    have digit := Nat.isDigit_of_mem_toDigits (by decide) (by decide) member
    rw [Char.isAlphanum, digit, Bool.or_true]

theorem Plain.signed {magnitude : List Char} (plain : Plain magnitude) (negative : Prop)
    [Decidable negative] :
    Plain (if negative then '-' :: magnitude else magnitude) := by
  split
  · exact List.forall_mem_cons.mpr ⟨by decide, plain⟩
  · exact plain

theorem plain_decimalText (value : Int) : Plain (decimalText value).toList := by
  rw [decimalText, String.toList_ofList]
  exact (plain_toDigits _).signed _

theorem plain_magnitude (format : FixedFormat) (numerator denominator : Nat) :
    Plain (format.magnitude numerator denominator) := by
  have digits : Plain ((Nat.toDigits 10 (roundHalfEven (numerator * Nat.pow 10 format.places)
      denominator)).leftpad (format.places + 1) '0') := by
    have zeros : ∀ count, Plain (List.replicate count '0') := by
      intro count char member
      rw [List.eq_of_mem_replicate member]
      decide
    exact (zeros _).append (plain_toDigits _)
  refine (digits.mono (List.take_subset _ _)).append ?_
  exact List.forall_mem_cons.mpr ⟨by decide, digits.mono (List.drop_subset _ _)⟩

theorem plain_floatText (value : Binary64) : Plain (Value.floatFormat.text value).toList := by
  cases value with
  | nan => decide
  | number negative rank bounded =>
    rw [FixedFormat.text]
    split
    · cases negative <;> decide
    · rw [String.toList_ofList]
      exact (plain_magnitude _ _ _).signed _

/-! ### Lines -/

/-- No piece between separators has a separator in it. -/
theorem separator_notMem_pieces {separator : Char} {text piece : List Char}
    (member : piece ∈ pieces separator text) : separator ∉ piece := by
  induction text generalizing piece with
  | nil =>
    rw [pieces_nil, List.mem_singleton] at member
    subst member
    exact List.not_mem_nil
  | cons char text inductionHypothesis =>
    rw [pieces, List.foldr_cons, ← pieces] at member
    split at member
    · rcases List.mem_cons.mp member with rfl | inside
      · exact List.not_mem_nil
      · exact inductionHypothesis inside
    · next different =>
      split at member
      · next noPieces => exact absurd noPieces (pieces_ne_nil separator text)
      · next first rest split =>
        rw [split] at inductionHypothesis
        rcases List.mem_cons.mp member with rfl | inside
        · exact List.not_mem_cons_of_ne_of_not_mem (Ne.symm different)
            (inductionHypothesis List.mem_cons_self)
        · exact inductionHypothesis (List.mem_cons_of_mem _ inside)

theorem dropReturn_subset (line : List Char) : dropReturn line ⊆ line := by
  rw [dropReturn]
  split
  · exact List.dropLast_subset line
  · exact List.Subset.refl line

theorem dropEmptyLast_subset (pieces : List (List Char)) : dropEmptyLast pieces ⊆ pieces := by
  rw [dropEmptyLast]
  split
  · exact List.dropLast_subset pieces
  · exact List.Subset.refl pieces

/-- A source line has no newline. -/
theorem newline_notMem_splitLines {source line : String} (member : line ∈ splitLines source) :
    '\n' ∉ line.toList := by
  obtain ⟨piece, inside, rfl⟩ := List.mem_map.mp member
  rw [String.toList_ofList]
  intro newline
  exact separator_notMem_pieces (dropEmptyLast_subset _ inside) (dropReturn_subset piece newline)

end Text

/-! ### The console -/

namespace Console

/-- No line that is still to be read has a newline in its text. -/
def Split (console : Console) : Prop := ∀ line ∈ console.pending, '\n' ∉ line.text.toList

theorem split_linesOf {pieces : List (List Char)} (split : ∀ piece ∈ pieces, '\n' ∉ piece) :
    ∀ line ∈ linesOf pieces, '\n' ∉ line.text.toList := by
  induction pieces with
  | nil => exact fun _ member => absurd member List.not_mem_nil
  | cons piece rest inductionHypothesis =>
    obtain ⟨pieceSplit, restSplit⟩ := List.forall_mem_cons.mp split
    have first : ∀ terminated, '\n' ∉ (Line.mk (String.ofList piece) terminated).text.toList := by
      intro terminated
      rwa [String.toList_ofList]
    intro line member
    unfold linesOf at member
    split at member
    · exact absurd member List.not_mem_nil
    · next single =>
      obtain ⟨rfl, -⟩ := List.cons.inj single
      split at member
      · exact absurd member List.not_mem_nil
      · rw [List.mem_singleton.mp member]
        exact first false
    · next longer =>
      obtain ⟨rfl, rfl⟩ := List.cons.inj longer
      rcases List.mem_cons.mp member with rfl | inside
      · exact first true
      · exact inductionHypothesis restSplit line inside

/-- Any text is cut into lines. -/
theorem split_ofText (text : String) : (ofText text).Split :=
  split_linesOf fun _ => Text.separator_notMem_pieces

/-- What a program reads is plain, and the rest is as it was. -/
theorem Split.readLine {console : Console} (split : console.Split) :
    Text.Plain console.readLine.1.toList ∧ console.readLine.2.Split := by
  obtain ⟨pending⟩ := console
  cases pending with
  | nil => exact ⟨by decide, split⟩
  | cons line rest =>
    obtain ⟨lineSplit, restSplit⟩ := List.forall_mem_cons.mp split
    refine ⟨?_, restSplit⟩
    show Text.Plain (if line.terminated then Value.withoutQuotes line.text else "").toList
    split
    · exact Text.plain_withoutQuotes lineSplit
    · decide

end Console

end Lox
