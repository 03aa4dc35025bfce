/-
This file proves how tokens of certain kinds are spelled. The lexemes of a line
are parts of the line, so no token holds a newline. A string stands between two
quotation marks and has none inside, and an identifier is made of letters and
digits.
-/

import Lox.Proofs.Text.Plain
import Lox.Token.Lexer

namespace Lox

open Token (Kind)

/-! ### Fronts -/

namespace Lexer

/-- The spelling fits the kind. -/
structure Spells (kind : Kind) (lexeme : List Char) : Prop where
  string : kind = .string → ∃ body, lexeme = '"' :: body ++ ['"'] ∧ '"' ∉ body
  identifier : kind = .identifier → ∀ char ∈ lexeme, char.isAlphanum = true

/-- Tokens that are neither strings nor identifiers may have any spelling. -/
theorem spells_of_ne {kind : Kind} (notString : kind ≠ .string)
    (notIdentifier : kind ≠ .identifier) (lexeme : List Char) : Spells kind lexeme where
  string same := absurd same notString
  identifier same := absurd same notIdentifier

/-- The front is a part that the text begins with, and is spelled as its kind asks for. -/
def Front.Begins (text : List Char) : Front → Prop
  | .token kind lexeme rest => lexeme ++ rest = text ∧ Spells kind lexeme
  | .blank rest => ∃ char, char :: rest = text
  | .comment | .error _ => True

theorem begins_numberFront (text : List Char) : (numberFront text).Begins text := by
  have cut : text.takeWhile Char.isDigit ++ text.dropWhile Char.isDigit = text :=
    List.takeWhile_append_dropWhile
  have spells : ∀ lexeme, Spells .number lexeme := spells_of_ne (by decide) (by decide)
  unfold numberFront
  dsimp only
  split
  · next digit more behind =>
    split
    · split
      · trivial
      · refine ⟨?_, spells _⟩
        rw [behind] at cut
        rw [List.append_assoc, List.cons_append, List.cons_append,
          List.takeWhile_append_dropWhile]
        exact cut
    · exact ⟨cut, spells _⟩
  · exact ⟨cut, spells _⟩

theorem begins_stringFront (text : List Char) : (stringFront text).Begins ('"' :: text) := by
  have cut : text.takeWhile (· ≠ '"') ++ text.dropWhile (· ≠ '"') = text :=
    List.takeWhile_append_dropWhile
  unfold stringFront
  dsimp only
  split
  · trivial
  · next quote rest behind =>
    -- the text is cut in front of the first quotation mark
    have isQuote : quote = '"' := by
      have stops := List.head?_dropWhile_not (· ≠ '"') text
      rw [behind] at stops
      simpa using stops
    subst isQuote
    rw [behind] at cut
    refine ⟨?_, fun _ => ⟨_, rfl, fun member => ?_⟩, fun isName => absurd isName (by decide)⟩
    · rw [List.append_assoc, List.cons_append, List.singleton_append, cut]
    · have isBody := List.all_eq_true.mp List.all_takeWhile _ member
      exact absurd isBody (by decide)

theorem ofWord_ne_string (word : String) : Kind.ofWord word ≠ .string := by
  unfold Kind.ofWord
  intro isString
  cases found : Token.reservedWords.lookup word with
  | none =>
    rw [found] at isString
    cases isString
  | some kind =>
    rw [found] at isString
    have reserved : ∀ entry ∈ Token.reservedWords, entry.2 ≠ .string := by decide
    obtain ⟨before, _, split, _⟩ := List.lookup_eq_some_iff.mp found
    exact reserved (word, kind) (split ▸ List.mem_append_right before List.mem_cons_self) isString

theorem begins_wordFront (text : List Char) : (wordFront text).Begins text := by
  refine ⟨List.takeWhile_append_dropWhile, fun isString => ?_, fun _ char member => ?_⟩
  · exact absurd isString (ofWord_ne_string _)
  · exact List.all_eq_true.mp List.all_takeWhile char member

theorem begins_operatorFront {char : Char} {kinds : Kind × Kind}
    (single : ∀ lexeme, Spells kinds.1 lexeme) (double : ∀ lexeme, Spells kinds.2 lexeme)
    (text : List Char) : (operatorFront char kinds text).Begins (char :: text) := by
  unfold operatorFront
  split
  · exact ⟨rfl, double _⟩
  · exact ⟨rfl, single _⟩

theorem begins_slashFront (text : List Char) : (slashFront text).Begins ('/' :: text) := by
  unfold slashFront
  split
  · trivial
  · exact ⟨rfl, spells_of_ne (by decide) (by decide) _⟩

theorem begins_front (char : Char) (text : List Char) :
    (front char text).Begins (char :: text) := by
  unfold front
  split
  · next kind single =>
    refine ⟨rfl, ?_⟩
    unfold Kind.ofSingle? at single
    split at single <;> cases single <;> exact spells_of_ne (by decide) (by decide) _
  split
  · next kinds operator =>
    unfold Kind.ofOperator? at operator
    split at operator <;> cases operator <;>
      exact begins_operatorFront (spells_of_ne (by decide) (by decide))
        (spells_of_ne (by decide) (by decide)) text
  split
  · exact ⟨char, rfl⟩
  split
  · next isSlash =>
    subst isSlash
    exact begins_slashFront text
  split
  · next isQuote =>
    subst isQuote
    exact begins_stringFront text
  split
  · exact begins_numberFront _
  split
  · exact begins_wordFront _
  · trivial

end Lexer

/-! ### Tokens -/

/-- The spelling of the token fits its kind and has no newline in it. -/
structure Token.WellSpelled (token : Token) : Prop where
  spells : Lexer.Spells token.kind token.lexeme.toList
  oneLine : '\n' ∉ token.lexeme.toList

namespace Token.WellSpelled

variable {token : Token}

/-- An identifier is a plain text. -/
theorem plain_identifier (wellSpelled : token.WellSpelled) (isName : token.kind = .identifier) :
    Text.Plain token.lexeme.toList :=
  Text.plain_of_isAlphanum (wellSpelled.spells.identifier isName)

/-- What stands between the quotation marks of a string is a plain text. -/
theorem plain_string (wellSpelled : token.WellSpelled) (isString : token.kind = .string) :
    Text.Plain (token.lexeme.toList.drop 1).dropLast := by
  obtain ⟨body, spelled, unquoted⟩ := wellSpelled.spells.string isString
  have oneLine := wellSpelled.oneLine
  rw [spelled] at oneLine ⊢
  have inside : ('"' :: body ++ ['"']).drop 1 = body ++ ['"'] := rfl
  rw [inside, List.dropLast_concat]
  intro char member
  constructor
  · rintro rfl
    exact unquoted member
  · rintro rfl
    exact oneLine (List.mem_append_left _ (List.mem_cons_of_mem _ member))

end Token.WellSpelled

namespace Lexer

/-- The first token of a line and the tokens behind it. -/
theorem scanLine_of_token {number : Nat} {char : Char} {text lexeme rest : List Char} {kind : Kind}
    (found : front char text = .token kind lexeme rest) :
    scanLine number (char :: text) =
      (scanLine number rest).push ⟨kind, String.ofList lexeme, number⟩ := by
  rw [scanLine]
  split <;> simp_all

theorem scanLine_of_blank {number : Nat} {char : Char} {text rest : List Char}
    (found : front char text = .blank rest) :
    scanLine number (char :: text) = scanLine number rest := by
  rw [scanLine]
  split <;> simp_all

/-- A comment or an error ends the line. -/
theorem tokens_scanLine_of_rest?_eq_none {number : Nat} {char : Char} {text : List Char}
    (ends : (front char text).rest? = none) : (scanLine number (char :: text)).tokens = [] := by
  rw [scanLine]
  split <;> simp_all [Front.rest?]

/-- The tokens of a line without newlines are well spelled. -/
theorem wellSpelled_of_mem_scanLine {number : Nat} {text : List Char} (oneLine : '\n' ∉ text) :
    ∀ token ∈ (scanLine number text).tokens, token.WellSpelled := by
  have none : ∀ token ∈ ([] : List Token), token.WellSpelled :=
    fun _ member => absurd member List.not_mem_nil
  induction text using scanLine.induct with
  | case1 =>
    rw [scanLine]
    exact none
  | case2 char text kind lexeme rest found inductionHypothesis =>
    have begins := begins_front char text
    rw [found] at begins
    obtain ⟨cut, spells⟩ := begins
    rw [← cut, List.mem_append, not_or] at oneLine
    rw [scanLine_of_token found]
    refine List.forall_mem_cons.mpr ⟨⟨?_, ?_⟩, inductionHypothesis oneLine.2⟩
    · rwa [String.toList_ofList]
    · rw [String.toList_ofList]
      exact oneLine.1
  | case3 char text rest found inductionHypothesis =>
    have begins := begins_front char text
    rw [found] at begins
    obtain ⟨blank, cut⟩ := begins
    rw [← cut, List.mem_cons, not_or] at oneLine
    rw [scanLine_of_blank found]
    exact inductionHypothesis oneLine.2
  | case4 char text found =>
    rw [tokens_scanLine_of_rest?_eq_none (congrArg Front.rest? found)]
    exact none
  | case5 char text error found =>
    rw [tokens_scanLine_of_rest?_eq_none (congrArg Front.rest? found)]
    exact none

/-- The tokens of a source text are well spelled. -/
theorem wellSpelled_of_mem_scan {source : String} :
    ∀ token ∈ (scan source).stream.tokens, token.WellSpelled := by
  intro token member
  obtain ⟨⟨number, lineScan⟩, scanned, inside⟩ := List.mem_flatMap.mp member
  obtain ⟨⟨line, index⟩, numbered, scanned⟩ := List.mem_map.mp scanned
  cases scanned
  have isLine : line ∈ Text.splitLines source := List.fst_mem_of_mem_zipIdx numbered
  exact wellSpelled_of_mem_scanLine (Text.newline_notMem_splitLines isLine) token inside

end Lexer

end Lox
