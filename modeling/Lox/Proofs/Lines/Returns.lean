/-
This file proves that the style of line ends does not matter. With a carriage
return put before every newline a text scans to the same tokens on the same
lines, with the same reports, and does the same when it is run, whatever carriage
returns it had before.

Only one carriage return is dropped from the end of a line, so a line that had
one keeps one more. But no lexeme ends in a separator: a separator behind a line
makes no lexeme of the line longer and completes none that was missing, and the
line is tiled as it is without it.
-/

import Lox.Proofs.Token.Tiling
import Lox.Session

namespace Lox

open Token (Kind)

/-! ### Lexemes before a separator -/

namespace Token

/-- Separators begin no lexeme, stand in no word or number, and end no string. -/
theorem separators_apart : ∀ char ∈ Lexer.separators,
    Kind.ofSingle? char = none ∧ Kind.ofOperator? char = none ∧ char.isAlpha = false ∧
      char.isAlphanum = false ∧ char.isDigit = false ∧
      char ≠ '=' ∧ char ≠ '/' ∧ char ≠ '.' ∧ char ≠ '"' := by
  intro char member
  simp only [Lexer.separators, List.mem_cons, List.not_mem_nil, or_false] at member
  rcases member with rfl | rfl | rfl | rfl <;> decide

variable {kind : Kind} {lexeme text : List Char} {blank : Char}

/-- What begins a text with one more character, but does not end in that one, begins the text. -/
theorem prefix_of_prefix_concat (other : lexeme.getLast? ≠ some blank)
    (begins : lexeme <+: text ++ [blank]) : lexeme <+: text := by
  refine (List.prefix_concat_iff.mp begins).resolve_left fun whole => other ?_
  rw [whole, List.getLast?_concat]

section

variable (separates : blank ∈ Lexer.separators)

include separates

/-- No lexeme ends in a separator. -/
theorem Lexeme.getLast?_ne (belongs : Lexeme kind lexeme) : lexeme.getLast? ≠ some blank := by
  intro last
  have inside : blank ∈ lexeme := List.mem_of_getLast? last
  obtain ⟨notSingle, notOperator, notLetter, notPart, notDigit, notEqual, notSlash, notPoint,
    notQuote⟩ := separators_apart blank separates
  cases belongs.shape with
  | single found =>
    cases List.mem_singleton.mp inside
    cases notSingle.symm.trans found
  | alone found =>
    cases List.mem_singleton.mp inside
    cases notOperator.symm.trans found
  | withEqual _ => exact notEqual (Option.some.inj last).symm
  | slash => exact notSlash (Option.some.inj last).symm
  | word letter parts _ =>
    rcases List.mem_cons.mp inside with rfl | member
    · exact Bool.false_ne_true (notLetter.symm.trans letter)
    · exact Bool.false_ne_true (notPart.symm.trans (parts blank member))
  | whole all => exact Bool.false_ne_true (notDigit.symm.trans (all blank inside))
  | fraction all allPlaces =>
    rcases List.mem_append.mp inside with member | behind
    · exact Bool.false_ne_true (notDigit.symm.trans (all blank member))
    · have member := (List.mem_cons.mp behind).resolve_left notPoint
      exact Bool.false_ne_true (notDigit.symm.trans (allPlaces blank member))
  | string _ =>
    rw [List.getLast?_concat] at last
    exact notQuote (Option.some.inj last).symm

theorem Longest.concat (longest : Longest kind lexeme text) :
    Longest kind lexeme (text ++ [blank]) where
  belongs := longest.belongs
  begins := longest.begins.trans (List.prefix_append _ _)
  longest other further belongs begins :=
    longest.longest other further belongs
      (prefix_of_prefix_concat (belongs.getLast?_ne separates) begins)

theorem Bare.concat (bare : Bare text) : Bare (text ++ [blank]) := fun kind lexeme belongs begins =>
  bare kind lexeme belongs (prefix_of_prefix_concat (belongs.getLast?_ne separates) begins)

theorem secondPoint_concat_iff : SecondPoint (text ++ [blank]) ↔ SecondPoint text := by
  constructor
  · rintro ⟨lexeme, belongs, point, begins⟩
    refine ⟨lexeme, belongs, point, prefix_of_prefix_concat (fun last => ?_) begins⟩
    rw [List.getLast?_concat] at last
    obtain ⟨_, _, _, _, _, _, _, notPoint, _⟩ := separators_apart blank separates
    exact notPoint (Option.some.inj last).symm
  · rintro ⟨lexeme, belongs, point, begins⟩
    exact ⟨lexeme, belongs, point, begins.trans (List.prefix_append _ _)⟩

theorem slashes_prefix_concat_iff : ['/', '/'] <+: text ++ [blank] ↔ ['/', '/'] <+: text := by
  constructor
  · obtain ⟨_, _, _, _, _, _, notSlash, _⟩ := separators_apart blank separates
    exact prefix_of_prefix_concat fun last => notSlash (Option.some.inj last).symm
  · exact fun begins => begins.trans (List.prefix_append _ _)

end

end Token

/-! ### Lines before a separator -/

namespace Lexer

variable {blank : Char} (separates : blank ∈ separators)

include separates

/-- A line with a separator behind it has the same tokens and the same error. -/
theorem Tiles.concat {number : Nat} {text stop : List Char} {tokens : List Token}
    {error? : Option LexicalError} (tiles : Tiles number text tokens stop error?) :
    ∃ further, Tiles number (text ++ [blank]) tokens further error? := by
  induction tiles with
  | lineEnd => exact ⟨[], .separator separates .lineEnd⟩
  | comment => exact ⟨_, .comment⟩
  | separator member _ inductionHypothesis =>
    obtain ⟨further, behind⟩ := inductionHypothesis
    exact ⟨further, .separator member behind⟩
  | lexeme longest noComment noSecond _ inductionHypothesis =>
    obtain ⟨further, behind⟩ := inductionHypothesis
    rw [← Token.slashes_prefix_concat_iff separates, List.append_assoc] at noComment
    rw [← Token.secondPoint_concat_iff separates, List.append_assoc] at noSecond
    have longest := longest.concat separates
    rw [List.append_assoc] at longest ⊢
    exact ⟨further, .lexeme longest noComment noSecond behind⟩
  | bare notSeparator bare => exact ⟨_, .bare notSeparator (bare.concat separates)⟩
  | secondPoint second =>
    exact ⟨_, .secondPoint ((Token.secondPoint_concat_iff separates).mpr second)⟩

theorem scanLine_concat (number : Nat) (text : List Char) :
    scanLine number (text ++ [blank]) = scanLine number text := by
  obtain ⟨_, tiles⟩ := tiles_scanLine number text
  obtain ⟨_, further⟩ := tiles.concat separates
  obtain ⟨_, tilesFurther⟩ := tiles_scanLine number (text ++ [blank])
  obtain ⟨tokens, _, error⟩ := tilesFurther.unique further
  have parts (scan : LineScan) : scan = ⟨scan.tokens, scan.error?⟩ := rfl
  rw [parts (scanLine number (text ++ [blank])), tokens, error]

end Lexer

/-! ### Texts with carriage returns -/

namespace Text

/-- The text with a carriage return before every newline. -/
def withReturns (text : List Char) : List Char :=
  text.flatMap fun char => if char = '\n' then ['\r', '\n'] else [char]

theorem withReturns_append (first rest : List Char) :
    withReturns (first ++ rest) = withReturns first ++ withReturns rest :=
  List.flatMap_append

theorem withReturns_of_notMem {line : List Char} (newline : '\n' ∉ line) :
    withReturns line = line := by
  induction line with
  | nil => rfl
  | cons char rest inductionHypothesis =>
    have other := List.ne_of_not_mem_cons newline
    rw [withReturns, List.flatMap_cons, if_neg other.symm, ← withReturns,
      inductionHypothesis (List.not_mem_of_not_mem_cons newline), List.singleton_append]

/-- What holds of texts without newlines, and of a text with one more line in front if it holds of
the text, holds of all texts. -/
@[elab_as_elim]
theorem induction_lines {motive : List Char → Prop}
    (last : ∀ line, '\n' ∉ line → motive line)
    (more : ∀ line rest, '\n' ∉ line → motive rest → motive (line ++ '\n' :: rest))
    (text : List Char) : motive text := by
  by_cases newline : '\n' ∈ text
  · obtain ⟨line, rest, cut, first⟩ := List.eq_append_cons_of_mem newline
    have shorter : rest.length < text.length := by
      rw [cut, List.length_append, List.length_cons]
      omega
    exact cut ▸ more line rest first (induction_lines last more rest)
  · exact last text newline
  termination_by text.length

/-- The lines of a text with one more line in front. -/
theorem splitLines_append_cons {line : List Char} (newline : '\n' ∉ line) (rest : List Char) :
    splitLines (String.ofList (line ++ '\n' :: rest)) =
      String.ofList (dropReturn line) :: splitLines (String.ofList rest) := by
  rw [splitLines, splitLines, String.toList_ofList, String.toList_ofList, pieces_eq_splitOn,
    List.splitOn_append_cons_self_of_not_mem newline, ← pieces_eq_splitOn, ← List.singleton_append,
    dropEmptyLast_append _ (pieces_ne_nil _ _), List.singleton_append, List.map_cons]

theorem dropReturn_concat (line : List Char) : dropReturn (line ++ ['\r']) = line := by
  rw [dropReturn, if_pos List.getLast?_concat, List.dropLast_concat]

theorem dropReturn_or (line : List Char) :
    dropReturn line = line ∨ dropReturn line ++ ['\r'] = line := by
  rw [dropReturn]
  split
  · next last =>
    obtain ⟨front, rfl⟩ := List.getLast?_eq_some_iff.mp last
    right
    rw [List.dropLast_concat]
  · exact .inl rfl

end Text

/-! ### Scans of such texts -/

namespace Lexer

/-- The scan of a line, whatever its number will be. -/
def scanner (line : String) (number : Nat) : LineScan := scanLine number line.toList

theorem scanner_dropReturn (line : List Char) :
    scanner (String.ofList (Text.dropReturn line)) = scanner (String.ofList line) := by
  funext number
  rw [scanner, scanner, String.toList_ofList, String.toList_ofList]
  rcases Text.dropReturn_or line with same | dropped
  · rw [same]
  · have behind := scanLine_concat (by decide : '\r' ∈ separators) number (Text.dropReturn line)
    rw [dropped] at behind
    exact behind.symm

/-- Texts are scanned alike if their lines are, one by one. -/
theorem scanLines_congr {first second : List String}
    (alike : first.map scanner = second.map scanner) : scanLines first = scanLines second := by
  have scans : ∀ lines, scanFrom 1 lines =
      ((lines.map scanner).zipIdx 1).map fun numbered => (numbered.2, numbered.1 numbered.2) := by
    intro lines
    rw [scanFrom, List.zipIdx_map, List.map_map]
    rfl
  have length : first.length = second.length := by
    simpa only [List.length_map] using congrArg List.length alike
  rw [scanLines, scanLines, scans, scans, alike, length]

theorem scanner_withReturns (text : List Char) :
    (Text.splitLines (String.ofList (Text.withReturns text))).map scanner =
      (Text.splitLines (String.ofList text)).map scanner := by
  induction text using Text.induction_lines with
  | last line newline => rw [Text.withReturns_of_notMem newline]
  | more line rest newline inductionHypothesis =>
    have further : '\n' ∉ line ++ ['\r'] := fun member =>
      (List.mem_append.mp member).elim newline (by decide)
    have cut : Text.withReturns (line ++ '\n' :: rest) =
        (line ++ ['\r']) ++ '\n' :: Text.withReturns rest := by
      rw [Text.withReturns_append, Text.withReturns_of_notMem newline, List.append_assoc]
      rfl
    -- the return put in is the one that is dropped, so one that was there stays on the line
    rw [cut, Text.splitLines_append_cons further, Text.splitLines_append_cons newline,
      List.map_cons, List.map_cons, inductionHypothesis, Text.dropReturn_concat,
      scanner_dropReturn]

end Lexer

/-- The style of line ends does not matter: a source and the same with a carriage return before
every newline have the same tokens on the same lines, the end included, and the same reports, so
that both have an error or none has. Run on any machine they do the same. -/
theorem line_ends_alike (source : String) :
    Lexer.scan (String.ofList (Text.withReturns source.toList)) = Lexer.scan source ∧
      ∀ fuel machine,
        Session.runSource fuel (String.ofList (Text.withReturns source.toList)) machine =
          Session.runSource fuel source machine := by
  have scans :
      Lexer.scan (String.ofList (Text.withReturns source.toList)) = Lexer.scan source := by
    have alike := Lexer.scanner_withReturns source.toList
    rw [String.ofList_toList] at alike
    exact Lexer.scanLines_congr alike
  refine ⟨scans, fun fuel machine => ?_⟩
  rw [Session.runSource, Session.runSource, scans]

/-- The lines themselves need not be the same. -/
example : Text.splitLines (String.ofList (Text.withReturns "1;\r\n2;".toList)) = ["1;\r", "2;"] := by
  decide +kernel

end Lox
