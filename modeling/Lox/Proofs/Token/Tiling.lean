/-
This file proves what the tokens of a list of lines are. Every line is scanned
for itself: its lexemes stand one behind the other with nothing but separators
between them, each of them the longest one at its place, up to the end of the
line, a comment, or the first place that is given up. Only a place that is given
up is reported, with the number of its line, so a line has at most one report.
-/

import Lox.Proofs.Token.Longest

namespace Lox

open Token (Kind)

namespace Lexer

/-! ### Lines -/

/-- The tokens are the lexemes of the text of a line, one behind the other. They end at the last
text, and with an error if that place is given up. -/
inductive Tiles (number : Nat) :
    List Char → List Token → List Char → Option LexicalError → Prop
  | lineEnd : Tiles number [] [] [] none
  | comment {text : List Char} : Tiles number ('/' :: '/' :: text) [] ('/' :: '/' :: text) none
  | separator {char : Char} {text stop : List Char} {tokens : List Token}
      {error? : Option LexicalError} :
    char ∈ separators → Tiles number text tokens stop error? →
    Tiles number (char :: text) tokens stop error?
  | lexeme {kind : Kind} {lexeme rest stop : List Char} {tokens : List Token}
      {error? : Option LexicalError} :
    Token.Longest kind lexeme (lexeme ++ rest) → ¬ ['/', '/'] <+: lexeme ++ rest →
    ¬ Token.SecondPoint (lexeme ++ rest) → Tiles number rest tokens stop error? →
    Tiles number (lexeme ++ rest) (⟨kind, String.ofList lexeme, number⟩ :: tokens) stop error?
  | bare {char : Char} {text : List Char} : char ∉ separators → Token.Bare (char :: text) →
    Tiles number (char :: text) [] (char :: text) (some (bareError char))
  | secondPoint {text : List Char} : Token.SecondPoint text →
    Tiles number text [] text (some .secondPoint)

/-- The scanner tiles a line. -/
theorem tiles_scanLine (number : Nat) (text : List Char) :
    ∃ stop, Tiles number text (scanLine number text).tokens stop (scanLine number text).error? := by
  induction text using scanLine.induct with
  | case1 =>
    rw [scanLine]
    exact ⟨[], .lineEnd⟩
  | case2 char text kind lexeme rest found inductionHypothesis =>
    obtain ⟨stop, behind⟩ := inductionHypothesis
    have stands := stands_front char text
    rw [found] at stands
    have longest := longest_of_front found
    rw [scanLine_of_token found]
    refine ⟨stop, ?_⟩
    rw [← stands.2] at longest ⊢
    refine .lexeme longest (fun comment => ?_) (fun second => ?_) behind
    · obtain ⟨others, cut⟩ := comment
      obtain ⟨rfl, rfl⟩ := List.cons.inj (cut.trans stands.2)
      cases found
    · rw [stands.2] at second
      rw [front_of_secondPoint second] at found
      cases found
  | case3 char text rest found inductionHypothesis =>
    obtain ⟨stop, behind⟩ := inductionHypothesis
    have stands := stands_front char text
    rw [found] at stands
    obtain ⟨member, rfl⟩ := stands
    rw [scanLine_of_blank found]
    exact ⟨stop, .separator member behind⟩
  | case4 char text found =>
    have stands := stands_front char text
    rw [found] at stands
    obtain ⟨rfl, second⟩ := stands
    obtain ⟨rest, rfl⟩ := List.head?_eq_some_iff.mp second
    rw [scanLine_of_comment found]
    exact ⟨_, .comment⟩
  | case5 char text error found =>
    rw [scanLine_of_error found]
    rcases bare_of_front found with ⟨rfl, second⟩ | ⟨rfl, notSeparator, bare⟩
    · exact ⟨_, .secondPoint second⟩
    · exact ⟨_, .bare notSeparator bare⟩

/-- How a tiling goes on behind a front. -/
def Front.Continues (number : Nat) (text : List Char) (tokens : List Token) (stop : List Char)
    (error? : Option LexicalError) : Front → Prop
  | .token kind lexeme rest => ∃ others, tokens = ⟨kind, String.ofList lexeme, number⟩ :: others ∧
      Tiles number rest others stop error?
  | .blank rest => Tiles number rest tokens stop error?
  | .comment => tokens = [] ∧ stop = text ∧ error? = none
  | .error fault => tokens = [] ∧ stop = text ∧ error? = some fault

theorem ne_nil_of_longest {kind : Kind} {lexeme text : List Char}
    (longest : Token.Longest kind lexeme text) : lexeme ≠ [] := by
  cases longest.belongs.shape <;> simp

/-- A tiling follows the front of the text. -/
theorem Tiles.continues {number : Nat} {char : Char} {text stop : List Char} {tokens : List Token}
    {error? : Option LexicalError} (tiles : Tiles number (char :: text) tokens stop error?) :
    (front char text).Continues number (char :: text) tokens stop error? := by
  generalize whole : char :: text = line at tiles ⊢
  cases tiles with
  | lineEnd => cases whole
  | comment =>
    cases whole
    exact ⟨rfl, rfl, rfl⟩
  | separator member behind =>
    cases whole
    rw [front_of_separator member]
    exact behind
  | lexeme longest noComment noSecond behind =>
    rw [← whole] at longest noComment noSecond
    rw [front_of_longest longest whole.symm noComment noSecond]
    exact ⟨_, rfl, behind⟩
  | bare notSeparator bare =>
    cases whole
    rw [front_of_bare notSeparator bare]
    exact ⟨rfl, rfl, rfl⟩
  | secondPoint second =>
    subst whole
    rw [front_of_secondPoint second]
    exact ⟨rfl, rfl, rfl⟩

/-- An empty rest of a line is tiled by nothing. -/
theorem Tiles.nil {number : Nat} {stop : List Char} {tokens : List Token}
    {error? : Option LexicalError} (tiles : Tiles number [] tokens stop error?) :
    tokens = [] ∧ stop = [] ∧ error? = none := by
  generalize whole : ([] : List Char) = line at tiles
  cases tiles with
  | lineEnd => exact ⟨rfl, rfl, rfl⟩
  | comment => cases whole
  | separator _ _ => cases whole
  | lexeme longest _ _ _ =>
    exact absurd (List.append_eq_nil_iff.mp whole.symm).1 (ne_nil_of_longest longest)
  | bare _ _ => cases whole
  | secondPoint second =>
    subst whole
    obtain ⟨lexeme, _, _, rest, cut⟩ := second
    simp at cut

/-- A line is tiled in one way only. -/
theorem Tiles.unique {number : Nat} {text stop stop' : List Char} {tokens tokens' : List Token}
    {error? error?' : Option LexicalError} (tiles : Tiles number text tokens stop error?)
    (tiles' : Tiles number text tokens' stop' error?') :
    tokens = tokens' ∧ stop = stop' ∧ error? = error?' := by
  induction text using scanLine.induct generalizing tokens tokens' with
  | case1 =>
    obtain ⟨rfl, rfl, rfl⟩ := tiles.nil
    obtain ⟨rfl, rfl, rfl⟩ := tiles'.nil
    exact ⟨rfl, rfl, rfl⟩
  | case2 char text kind lexeme rest found inductionHypothesis =>
    have both := And.intro tiles.continues tiles'.continues
    rw [found] at both
    obtain ⟨⟨others, rfl, behind⟩, others', rfl, behind'⟩ := both
    obtain ⟨rfl, sameEnd⟩ := inductionHypothesis behind behind'
    exact ⟨rfl, sameEnd⟩
  | case3 char text rest found inductionHypothesis =>
    have both := And.intro tiles.continues tiles'.continues
    rw [found] at both
    exact inductionHypothesis both.1 both.2
  | case4 char text found =>
    have both := And.intro tiles.continues tiles'.continues
    rw [found] at both
    obtain ⟨⟨rfl, rfl, rfl⟩, rfl, rfl, rfl⟩ := both
    exact ⟨rfl, rfl, rfl⟩
  | case5 char text error found =>
    have both := And.intro tiles.continues tiles'.continues
    rw [found] at both
    obtain ⟨⟨rfl, rfl, rfl⟩, rfl, rfl, rfl⟩ := both
    exact ⟨rfl, rfl, rfl⟩

/-- The tokens of a line bear its number, and none of them is the end. -/
theorem Tiles.stamped {number : Nat} {text stop : List Char} {tokens : List Token}
    {error? : Option LexicalError} (tiles : Tiles number text tokens stop error?) :
    ∀ token ∈ tokens, token.line = number ∧ token.kind ≠ .eof := by
  induction tiles with
  | lineEnd | comment | bare _ _ | secondPoint _ => simp
  | separator _ _ inductionHypothesis => exact inductionHypothesis
  | lexeme longest _ _ _ inductionHypothesis =>
    exact List.forall_mem_cons.mpr ⟨⟨rfl, longest.belongs.ne_eof⟩, inductionHypothesis⟩

theorem stamped_scanLine (number : Nat) (text : List Char) :
    ∀ token ∈ (scanLine number text).tokens, token.line = number ∧ token.kind ≠ .eof := by
  obtain ⟨_, tiles⟩ := tiles_scanLine number text
  exact tiles.stamped

/-! ### Lists of lines -/

section Numbered

variable {Item : Type} (items : Nat → String → List Item)

/-- What numbered lines have, one line after the other. -/
def numbered (number : Nat) : List String → List Item
  | [] => []
  | line :: lines => items number line ++ numbered (number + 1) lines

variable {items}

/-- What lines have is what one of them has. -/
theorem exists_of_mem_numbered {lines : List String} {number : Nat} {item : Item}
    (member : item ∈ numbered items number lines) :
    ∃ index line, lines[index]? = some line ∧ item ∈ items (number + index) line := by
  induction lines generalizing number with
  | nil => exact absurd member List.not_mem_nil
  | cons line lines inductionHypothesis =>
    rcases List.mem_append.mp member with here | later
    · exact ⟨0, line, rfl, here⟩
    · obtain ⟨index, other, found, inside⟩ := inductionHypothesis later
      rw [Nat.add_right_comm, Nat.add_assoc] at inside
      exact ⟨index + 1, other, found, inside⟩

variable {place : Item → Nat}
  (placed : ∀ number line, ∀ item ∈ items number line, place item = number)

include placed

theorem place_of_mem_numbered {lines : List String} {number : Nat} {item : Item}
    (member : item ∈ numbered items number lines) :
    number ≤ place item ∧ place item < number + lines.length := by
  obtain ⟨index, line, found, inside⟩ := exists_of_mem_numbered member
  have below : index < lines.length := (List.getElem?_eq_some_iff.mp found).1
  rw [placed _ line item inside]
  omega

/-- What stands on one line is what that line has. -/
theorem filter_numbered {lines : List String} {line : String} {index number : Nat}
    (found : lines[index]? = some line) :
    (numbered items number lines).filter (fun item => place item = number + index) =
      items (number + index) line := by
  induction lines generalizing index number with
  | nil => cases found
  | cons first lines inductionHypothesis =>
    rw [numbered, List.filter_append]
    cases index with
    | zero =>
      cases found
      have here : ∀ item ∈ items number line, decide (place item = number + 0) = true :=
        fun item member => decide_eq_true (placed number line item member)
      have later : ∀ item ∈ numbered items (number + 1) lines,
          ¬ decide (place item = number + 0) = true := by
        intro item member same
        have atLeast := (place_of_mem_numbered placed member).1
        have := of_decide_eq_true same
        omega
      rw [List.filter_eq_self.mpr here, List.filter_eq_nil_iff.mpr later, List.append_nil]
      rfl
    | succ index =>
      have earlier : ∀ item ∈ items number first,
          ¬ decide (place item = number + (index + 1)) = true := by
        intro item member same
        have here := placed number first item member
        have := of_decide_eq_true same
        omega
      have behind := @inductionHypothesis index (number + 1) found
      rw [Nat.add_right_comm, Nat.add_assoc] at behind
      rw [List.filter_eq_nil_iff.mpr earlier, List.nil_append, behind]

/-- What holds on each line, and from each line to the ones below it, holds everywhere. -/
theorem pairwise_numbered {relation : Item → Item → Prop}
    (within : ∀ number line, (items number line).Pairwise relation)
    (across : ∀ first second, place first < place second → relation first second)
    (lines : List String) (number : Nat) : (numbered items number lines).Pairwise relation := by
  induction lines generalizing number with
  | nil => exact .nil
  | cons line lines inductionHypothesis =>
    refine List.pairwise_append.mpr ⟨within number line, inductionHypothesis _, ?_⟩
    intro first here second below
    refine across first second ?_
    rw [placed number line first here]
    exact (place_of_mem_numbered placed below).1

end Numbered

/-- The tokens of a line. -/
def lineTokens (number : Nat) (line : String) : List Token := (scanLine number line.toList).tokens

/-- The report on a line, if there is one. -/
def lineReports (number : Nat) (line : String) : List Diagnostic :=
  ((scanLine number line.toList).error?.map (.lexical number)).toList

theorem tokens_scanLines (lines : List String) :
    (scanLines lines).stream.tokens = numbered lineTokens 1 lines := by
  have from' : ∀ number, tokensFrom number lines = numbered lineTokens number lines := by
    induction lines with
    | nil => exact fun _ => rfl
    | cons line lines inductionHypothesis =>
      intro number
      rw [tokensFrom_cons, inductionHypothesis]
      rfl
  exact from' 1

theorem diagnostics_scanLines (lines : List String) :
    (scanLines lines).diagnostics = numbered lineReports 1 lines := by
  rw [scanLines]
  generalize 1 = number
  induction lines generalizing number with
  | nil => rfl
  | cons line lines inductionHypothesis =>
    rw [numbered, ← inductionHypothesis]
    simp only [scanFrom, List.zipIdx_cons, List.map_cons, List.filterMap_cons, lineReports]
    cases (scanLine number line.toList).error? <;> rfl

theorem line_of_mem_lineReports (number : Nat) (line : String) :
    ∀ diagnostic ∈ lineReports number line, diagnostic.line = number := by
  intro diagnostic member
  obtain ⟨error, _, rfl⟩ := Option.map_eq_some_iff.mp (Option.mem_toList.mp member)
  rfl

end Lexer

/-! ### The tiling -/

/-- Every line of a list is tiled in one way. The tokens that bear its number are its lexemes, which
are those of the line scanned alone, and it is reported if its tiling ends in an error. Tokens and
reports come in the order of the lines, with no two reports on one line. -/
theorem lines_tile (lines : List String) :
    let scan := Lexer.scanLines lines
    (∀ index line, lines[index]? = some line →
      let alone := Lexer.scanLines [line]
      ∃ tokens stop error?,
        Lexer.Tiles (index + 1) line.toList tokens stop error? ∧
        (∀ others place reason?,
          Lexer.Tiles (index + 1) line.toList others place reason? →
            others = tokens ∧ place = stop ∧ reason? = error?) ∧
        scan.stream.tokens.filter (·.line = index + 1) = tokens ∧
        alone.stream.tokens.map (Token.renumber (· + index)) = tokens ∧
        scan.diagnostics.filter (·.line = index + 1) =
          (error?.map (.lexical (index + 1))).toList ∧
        alone.diagnostics = (error?.map (.lexical 1)).toList) ∧
    (∀ token ∈ scan.stream.tokens,
      token.kind ≠ .eof ∧ 1 ≤ token.line ∧ token.line ≤ lines.length) ∧
    (∀ diagnostic ∈ scan.diagnostics, 1 ≤ diagnostic.line ∧ diagnostic.line ≤ lines.length) ∧
    scan.stream.tokens.Pairwise (fun first second => first.line ≤ second.line) ∧
    scan.diagnostics.Pairwise (fun first second => first.line < second.line) ∧
    (scan.clean = true ↔ scan.diagnostics = []) := by
  intro scan
  have tokenPlaces : ∀ number line, ∀ token ∈ Lexer.lineTokens number line, token.line = number :=
    fun number line token member => (Lexer.stamped_scanLine number line.toList token member).1
  have reportPlaces := Lexer.line_of_mem_lineReports
  have tokens : scan.stream.tokens = _ := Lexer.tokens_scanLines lines
  have diagnostics : scan.diagnostics = _ := Lexer.diagnostics_scanLines lines
  have single : ∀ {Item : Type} (items : Nat → String → List Item) (line : String),
      Lexer.numbered items 1 [line] = items 1 line := fun _ _ => List.append_nil _
  rw [tokens, diagnostics]
  refine ⟨?lines, ?tokenLines, ?reportLines, ?tokenOrder, ?reportOrder, ?flag⟩
  case lines =>
    intro index line found alone
    have shifted := Lexer.scanLine_renumber (· + index) 1 line.toList
    obtain ⟨stop, tiles⟩ := Lexer.tiles_scanLine (index + 1) line.toList
    refine ⟨_, stop, _, tiles, fun _ _ _ others => others.unique tiles, ?_, ?_, ?_, ?_⟩
    · rw [Nat.add_comm index 1]
      exact Lexer.filter_numbered tokenPlaces found
    · rw [Lexer.tokens_scanLines, single, Nat.add_comm index 1]
      exact (congrArg Lexer.LineScan.tokens shifted).symm
    · rw [Nat.add_comm index 1]
      exact Lexer.filter_numbered reportPlaces found
    · rw [Lexer.diagnostics_scanLines, single, Lexer.error?_scanLine (index + 1),
        ← Lexer.error?_scanLine 1]
      rfl
  case tokenLines =>
    intro token member
    obtain ⟨index, line, _, onLine⟩ := Lexer.exists_of_mem_numbered member
    have inside := Lexer.place_of_mem_numbered tokenPlaces member
    exact ⟨(Lexer.stamped_scanLine _ line.toList token onLine).2, by omega⟩
  case reportLines =>
    intro diagnostic member
    have inside := Lexer.place_of_mem_numbered reportPlaces member
    omega
  case tokenOrder =>
    refine Lexer.pairwise_numbered tokenPlaces (fun number line => ?_) (fun _ _ => Nat.le_of_lt) _ _
    refine List.pairwise_of_forall_mem_list fun first here second there => ?_
    exact Nat.le_of_eq ((tokenPlaces _ _ first here).trans (tokenPlaces _ _ second there).symm)
  case reportOrder =>
    refine Lexer.pairwise_numbered reportPlaces (fun number line => ?_) (fun _ _ => id) _ _
    rw [Lexer.lineReports]
    cases (Lexer.scanLine number line.toList).error? <;> simp
  case flag =>
    rw [← diagnostics]
    exact List.isEmpty_iff

/-- A number with a second point is given up with the rest of its line. A point that no digit
follows belongs to no number. -/
example : Lexer.scanLines ["7.5.1 x", "1..2"] =
    ⟨⟨[⟨.number, "1", 2⟩], ⟨.eof, "", 2⟩⟩,
      [.lexical 1 .secondPoint, .lexical 2 (.unknownCharacter '.')]⟩ := by
  decide +kernel

end Lox
