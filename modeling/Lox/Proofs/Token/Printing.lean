/-
This file proves that scanning undoes printing. Tokens are printed line by line,
with a space between any two on a line. Since no lexeme goes on behind itself
with a space or with the end of its line, the scanner takes it as a whole, and
as every line of the text has the tokens of that line, all come back in order.
-/

import Lox.Proofs.Lines.Joining

namespace Lox

open Token (Kind)

/-! ### Spellings -/

namespace Token

/-- Punctuation and operators. -/
def symbols : List (Kind × String) :=
  [(.leftParen, "("), (.rightParen, ")"), (.leftBrace, "\x7b"), (.rightBrace, "\x7d"),
    (.comma, ","), (.minus, "-"), (.plus, "+"), (.semicolon, ";"), (.slash, "/"), (.star, "*"),
    (.percent, "%"), (.bang, "!"), (.bangEqual, "!="), (.equal, "="), (.equalEqual, "=="),
    (.greater, ">"), (.greaterEqual, ">="), (.less, "<"), (.lessEqual, "<=")]

/-- Words with a meaning of their own. -/
def keywords : List (Kind × String) :=
  [(.and, "and"), (.else, "else"), (.false, "false"), (.for, "for"), (.fun, "fun"), (.if, "if"),
    (.nil, "nil"), (.or, "or"), (.print, "print"), (.return, "return"), (.true, "true"),
    (.var, "var"), (.while, "while"), (.const, "const")]

/-- The lexeme belongs to the kind. -/
inductive Spelled : Kind → List Char → Prop
  | symbol {kind : Kind} {lexeme : String} : (kind, lexeme) ∈ symbols → Spelled kind lexeme.toList
  | keyword {kind : Kind} {lexeme : String} : (kind, lexeme) ∈ keywords → Spelled kind lexeme.toList
  | identifier {first : Char} {others : List Char} : first.isAlpha = true →
    (∀ char ∈ others, char.isAlphanum = true) →
    String.ofList (first :: others) ∉ keywords.map Prod.snd → Spelled .identifier (first :: others)
  | whole {digits : List Char} : digits ≠ [] → (∀ char ∈ digits, char.isDigit = true) →
    Spelled .number digits
  | fraction {digits places : List Char} : digits ≠ [] → (∀ char ∈ digits, char.isDigit = true) →
    places ≠ [] → (∀ char ∈ places, char.isDigit = true) →
    Spelled .number (digits ++ '.' :: places)
  | string {body : List Char} : (∀ char ∈ body, char ≠ '"' ∧ char ≠ '\n') →
    Spelled .string ('"' :: body ++ ['"'])

/-- The text of a line: the lexemes of its tokens with single spaces between them. -/
def lineText (tokens : List Token) (line : Nat) : List Char :=
  [' '].intercalate ((tokens.filter fun token => token.line = line).map (·.lexeme.toList))

/-- The line of the last token. -/
def lastLine? (tokens : List Token) : Option Nat := tokens.getLast?.map Token.line

/-- The lines of the tokens from line 1 to the last, each of them with a newline. -/
def printed (tokens : List Token) : String :=
  String.ofList ((List.range' 1 ((lastLine? tokens).getD 0)).flatMap fun line =>
    lineText tokens line ++ ['\n'])

/-- The tokens can be printed: their lexemes belong to their kinds, and their lines start at line 1
or later and never decrease. -/
structure Printable (tokens : List Token) : Prop where
  spelled : ∀ token ∈ tokens, Spelled token.kind token.lexeme.toList
  positive : ∀ token ∈ tokens, 1 ≤ token.line
  ordered : tokens.Pairwise fun first second => first.line ≤ second.line

end Token

/-! ### Lexemes at the front -/

namespace Lexer

/-- Nothing follows on the line, or a space does. -/
def Ends (rest : List Char) : Prop := rest = [] ∨ ∃ behind, rest = ' ' :: behind

theorem takeWhile_append_of_ends {keep : Char → Bool} {lexeme rest : List Char}
    (all : ∀ char ∈ lexeme, keep char = true) (space : keep ' ' = false) (ends : Ends rest) :
    (lexeme ++ rest).takeWhile keep = lexeme ∧ (lexeme ++ rest).dropWhile keep = rest := by
  rw [List.takeWhile_append_of_pos all, List.dropWhile_append_of_pos all]
  rcases ends with rfl | ⟨behind, rfl⟩
  · exact ⟨List.append_nil _, rfl⟩
  · rw [List.takeWhile_cons_of_neg (by rw [space]; decide),
      List.dropWhile_cons_of_neg (by rw [space]; decide)]
    exact ⟨List.append_nil _, rfl⟩

/-- The lexeme stands at the front of itself with an end behind it. -/
def Leads (kind : Kind) (lexeme : List Char) : Prop :=
  ∀ rest, Ends rest →
    ∃ char text, lexeme ++ rest = char :: text ∧ front char text = .token kind lexeme rest

theorem leads_symbol : ∀ entry ∈ Token.symbols, Leads entry.1 entry.2.toList := by
  intro entry member
  simp only [Token.symbols, List.mem_cons, List.not_mem_nil, or_false] at member
  rcases member with rfl | rfl | rfl | rfl | rfl | rfl | rfl | rfl | rfl | rfl | rfl | rfl | rfl |
    rfl | rfl | rfl | rfl | rfl | rfl
  all_goals
    rintro rest (rfl | ⟨behind, rfl⟩)
    · exact ⟨_, _, rfl, rfl⟩
    · exact ⟨_, _, rfl, rfl⟩

theorem ofWord_of_notMem {word : String} (free : word ∉ Token.keywords.map Prod.snd) :
    Kind.ofWord word = .identifier := by
  have words : Token.reservedWords.map Prod.fst = Token.keywords.map Prod.snd := by decide
  have unknown : Token.reservedWords.lookup word = none := by
    refine List.lookup_eq_none_iff.mpr fun entry member => ?_
    refine bne_iff_ne.mpr fun same => free ?_
    rw [← words, same]
    exact List.mem_map_of_mem member
  rw [Kind.ofWord, unknown]
  rfl

/-- Digits and letters begin numbers and words. -/
theorem front_of_isAlphanum {char : Char} (part : char.isAlphanum = true) (text : List Char) :
    front char text =
      if char.isDigit then numberFront (char :: text) else wordFront (char :: text) := by
  have single : Kind.ofSingle? char = none := by
    unfold Kind.ofSingle?
    split <;> first | rfl | exact absurd part (by decide)
  have operator : Kind.ofOperator? char = none := by
    unfold Kind.ofOperator?
    split <;> first | rfl | exact absurd part (by decide)
  have other : ∀ mark : Char, mark.isAlphanum = false → char ≠ mark := by
    intro mark none same
    rw [same, none] at part
    exact absurd part (by decide)
  have ignorable : isIgnorable char = false := by
    simp only [isIgnorable, other ' ' (by decide), other '\r' (by decide), other '\t' (by decide),
      other '\n' (by decide), decide_false, Bool.or_self]
  rw [front, single, operator]
  simp only [ignorable, other '/' (by decide), other '"' (by decide), if_false, Bool.false_eq_true]
  by_cases digit : char.isDigit = true
  · rw [if_pos digit, if_pos digit]
  · have letter : char.isAlpha = true := by
      simpa [Char.isAlphanum, digit] using part
    rw [if_neg digit, if_neg digit, if_pos letter]

/-- All digits stand in front of all letters. -/
theorem not_isDigit_of_isAlpha {char : Char} (letter : char.isAlpha = true) :
    ¬ char.isDigit = true := by
  intro digit
  have before : char.val ≤ '9'.val := of_decide_eq_true ((Bool.and_eq_true _ _).mp digit).2
  rcases (Bool.or_eq_true _ _).mp letter with upper | lower
  · have behind : 'A'.val ≤ char.val := (of_decide_eq_true upper).1
    exact absurd (UInt32.le_trans behind before) (by decide)
  · have behind : 'a'.val ≤ char.val := of_decide_eq_true ((Bool.and_eq_true _ _).mp lower).1
    exact absurd (UInt32.le_trans behind before) (by decide)

theorem leads_word {first : Char} {others : List Char} (letter : first.isAlpha = true)
    (parts : ∀ char ∈ others, char.isAlphanum = true) :
    Leads (Kind.ofWord (String.ofList (first :: others))) (first :: others) := by
  intro rest ends
  have all : ∀ char ∈ first :: others, char.isAlphanum = true :=
    List.forall_mem_cons.mpr ⟨by simp [Char.isAlphanum, letter], parts⟩
  obtain ⟨taken, dropped⟩ := takeWhile_append_of_ends all (by decide) ends
  refine ⟨first, others ++ rest, rfl, ?_⟩
  rw [front_of_isAlphanum (all first List.mem_cons_self),
    if_neg (not_isDigit_of_isAlpha letter), wordFront]
  rw [List.cons_append] at taken dropped
  rw [taken, dropped]

theorem leads_keyword : ∀ entry ∈ Token.keywords, Leads entry.1 entry.2.toList := by
  intro entry member
  have words : ∀ entry ∈ Token.keywords, Kind.ofWord entry.2 = entry.1 ∧
      entry.2.toList.head?.any Char.isAlpha = true ∧
      entry.2.toList.tail.all Char.isAlphanum = true := by
    decide +kernel
  obtain ⟨kind, letter, allParts⟩ := words entry member
  have parts := List.all_eq_true.mp allParts
  have word : String.ofList entry.2.toList = entry.2 := String.ofList_toList
  cases lexeme : entry.2.toList with
  | nil =>
    rw [lexeme] at letter
    exact absurd letter (by decide)
  | cons first others =>
    rw [lexeme] at letter parts word
    have leads := @leads_word first others letter parts
    rwa [word, kind] at leads

theorem leads_whole {digits : List Char} (some : digits ≠ [])
    (all : ∀ char ∈ digits, char.isDigit = true) : Leads .number digits := by
  intro rest ends
  obtain ⟨taken, dropped⟩ := takeWhile_append_of_ends all (by decide) ends
  obtain ⟨first, others, rfl⟩ := List.exists_cons_of_ne_nil some
  have digit := all first List.mem_cons_self
  have part : first.isAlphanum = true := by simp [Char.isAlphanum, digit]
  refine ⟨first, others ++ rest, rfl, ?_⟩
  rw [front_of_isAlphanum part, if_pos digit, ← List.cons_append, numberFront, taken, dropped]
  rcases ends with rfl | ⟨behind, rfl⟩ <;> rfl

theorem leads_fraction {digits places : List Char} (some : digits ≠ [])
    (all : ∀ char ∈ digits, char.isDigit = true) (somePlaces : places ≠ [])
    (allPlaces : ∀ char ∈ places, char.isDigit = true) :
    Leads .number (digits ++ '.' :: places) := by
  intro rest ends
  obtain ⟨first, others, rfl⟩ := List.exists_cons_of_ne_nil some
  obtain ⟨place, more, rfl⟩ := List.exists_cons_of_ne_nil somePlaces
  obtain ⟨digitPlace, allMore⟩ := List.forall_mem_cons.mp allPlaces
  obtain ⟨taken, dropped⟩ := takeWhile_append_of_ends allMore (by decide) ends
  have digit := all first List.mem_cons_self
  have part : first.isAlphanum = true := by simp [Char.isAlphanum, digit]
  refine ⟨first, others ++ '.' :: place :: (more ++ rest), ?_, ?_⟩
  · simp
  · have point : ∀ behind, (first :: (others ++ '.' :: behind)).takeWhile Char.isDigit =
          first :: others ∧
        (first :: (others ++ '.' :: behind)).dropWhile Char.isDigit = '.' :: behind := by
      intro behind
      rw [← List.cons_append, List.takeWhile_append_of_pos all, List.dropWhile_append_of_pos all,
        List.takeWhile_cons_of_neg (by decide), List.dropWhile_cons_of_neg (by decide),
        List.append_nil]
      exact ⟨rfl, rfl⟩
    rw [front_of_isAlphanum part, if_pos digit, numberFront, (point _).1, (point _).2]
    simp only [digitPlace, if_true, taken, dropped]
    rcases ends with rfl | ⟨behind, rfl⟩ <;> rfl

theorem leads_string {body : List Char} (unquoted : ∀ char ∈ body, char ≠ '"') :
    Leads .string ('"' :: body ++ ['"']) := by
  intro rest ends
  refine ⟨'"', body ++ '"' :: rest, ?_, ?_⟩
  · simp
  · have keep : ∀ char ∈ body, decide (char ≠ '"') = true :=
      fun char member => decide_eq_true (unquoted char member)
    show stringFront (body ++ '"' :: rest) = _
    rw [stringFront, List.takeWhile_append_of_pos keep, List.dropWhile_append_of_pos keep]
    simp

/-- Every spelled lexeme is taken as a whole. -/
theorem leads_of_spelled {kind : Kind} {lexeme : List Char} (spelled : Token.Spelled kind lexeme) :
    Leads kind lexeme := by
  cases spelled with
  | symbol member => exact leads_symbol _ member
  | keyword member => exact leads_keyword _ member
  | identifier letter parts free =>
    have leads := leads_word letter parts
    rwa [ofWord_of_notMem free] at leads
  | whole some all => exact leads_whole some all
  | fraction some all somePlaces allPlaces => exact leads_fraction some all somePlaces allPlaces
  | string plain => exact leads_string fun char member => (plain char member).1

/-! ### Lines -/

theorem scanLine_space (number : Nat) (rest : List Char) :
    scanLine number (' ' :: rest) = scanLine number rest :=
  scanLine_of_blank rfl

/-- The scan of a lexeme and of what is behind it. -/
theorem scanLine_lexeme {token : Token} (spelled : Token.Spelled token.kind token.lexeme.toList)
    {rest : List Char} (ends : Ends rest) :
    scanLine token.line (token.lexeme.toList ++ rest) =
      (scanLine token.line rest).push token := by
  obtain ⟨char, text, cut, found⟩ := leads_of_spelled spelled rest ends
  rw [cut, scanLine_of_token found, String.ofList_toList]

/-- The lexemes of tokens on one line, with spaces between them, are scanned as these tokens. -/
theorem scanLine_intercalate {line : Nat} {tokens : List Token}
    (spelled : ∀ token ∈ tokens, Token.Spelled token.kind token.lexeme.toList)
    (onLine : ∀ token ∈ tokens, token.line = line) :
    scanLine line ([' '].intercalate (tokens.map (·.lexeme.toList))) = ⟨tokens, none⟩ := by
  induction tokens with
  | nil =>
    show scanLine line [] = _
    rw [scanLine]
  | cons first others inductionHypothesis =>
    obtain ⟨spelledFirst, spelledOthers⟩ := List.forall_mem_cons.mp spelled
    obtain ⟨rfl, onLineOthers⟩ := List.forall_mem_cons.mp onLine
    have scansOthers := inductionHypothesis spelledOthers onLineOthers
    rw [List.map_cons]
    cases others with
    | nil =>
      have scans := scanLine_lexeme spelledFirst (.inl rfl)
      rw [List.append_nil] at scans
      rw [List.map_nil, List.intercalate_singleton, scans, scanLine]
      rfl
    | cons second others =>
      rw [List.map_cons] at scansOthers ⊢
      rw [List.intercalate_cons_cons, List.append_assoc, List.singleton_append,
        scanLine_lexeme spelledFirst (.inr ⟨_, rfl⟩), scanLine_space, scansOthers]
      rfl

/-! ### Texts -/

theorem isLine_of_spelled {kind : Kind} {lexeme : List Char}
    (spelled : Token.Spelled kind lexeme) : Text.IsLine lexeme := by
  have digits : ∀ {digits : List Char}, (∀ char ∈ digits, char.isDigit = true) →
      ∀ char ∈ digits, (char.isDigit || char = '.') = true :=
    fun all char member => by rw [all char member, Bool.true_or]
  have fixed : ∀ entry ∈ Token.symbols ++ Token.keywords,
      '\n' ∉ entry.2.toList ∧ entry.2.toList.getLast? ≠ some '\r' := by
    decide
  cases spelled with
  | symbol member =>
    obtain ⟨newline, carriageReturn⟩ := fixed _ (List.mem_append_left _ member)
    exact ⟨newline, carriageReturn⟩
  | keyword member =>
    obtain ⟨newline, carriageReturn⟩ := fixed _ (List.mem_append_right _ member)
    exact ⟨newline, carriageReturn⟩
  | identifier letter parts _ =>
    refine .of_forall (List.forall_mem_cons.mpr ⟨?_, parts⟩) (by decide) (by decide)
    rw [Char.isAlphanum, letter, Bool.true_or]
  | whole _ all => exact .of_forall all (by decide) (by decide)
  | fraction _ all _ allPlaces =>
    refine .of_forall (List.forall_mem_append.mpr ⟨digits all, ?_⟩) (by decide) (by decide)
    exact List.forall_mem_cons.mpr ⟨by decide, digits allPlaces⟩
  | @string body plain =>
    constructor
    · intro member
      rcases List.mem_append.mp member with inside | quote
      · have inBody := (List.mem_cons.mp inside).resolve_left (by decide)
        exact (plain _ inBody).2 rfl
      · exact absurd quote (by decide)
    · rw [List.getLast?_concat]
      decide

/-- The scans of lines of numbers that follow one another. -/
theorem tokensFrom_map_range' (text : Nat → List Char) (start count : Nat) :
    tokensFrom start ((List.range' start count).map fun line => String.ofList (text line)) =
      (List.range' start count).flatMap fun line => (scanLine line (text line)).tokens := by
  induction count generalizing start with
  | zero => rfl
  | succ count inductionHypothesis =>
    rw [List.range'_succ, List.map_cons, tokensFrom_cons, List.flatMap_cons, String.toList_ofList,
      inductionHypothesis]

end Lexer

namespace Token

/-- Tokens in the order of their lines are those of each line, one line after the other. -/
theorem flatMap_filter_line {lines : List Nat} (increasing : lines.Pairwise (· < ·))
    {tokens : List Token}
    (ordered : tokens.Pairwise fun first second => first.line ≤ second.line)
    (inside : ∀ token ∈ tokens, token.line ∈ lines) :
    (lines.flatMap fun line => tokens.filter fun token => token.line = line) = tokens := by
  induction tokens with
  | nil => simp
  | cons first others inductionHypothesis =>
    obtain ⟨least, orderedOthers⟩ := List.pairwise_cons.mp ordered
    obtain ⟨isLine, insideOthers⟩ := List.forall_mem_cons.mp inside
    have behind := inductionHypothesis orderedOthers insideOthers
    obtain ⟨before, after, rfl⟩ := List.append_of_mem isLine
    obtain ⟨_, increasingFrom, crossing⟩ := List.pairwise_append.mp increasing
    have later := (List.pairwise_cons.mp increasingFrom).1
    -- no token stands on an earlier line
    have nothing : ∀ tokens : List Token, (∀ token ∈ tokens, first.line ≤ token.line) →
        (before.flatMap fun line => tokens.filter fun token => token.line = line) = [] := by
      intro tokens notEarlier
      refine List.flatMap_eq_nil_iff.mpr fun line member => List.filter_eq_nil_iff.mpr ?_
      intro token inside same
      have earlier := crossing line member first.line List.mem_cons_self
      have atLeast := notEarlier token inside
      rw [of_decide_eq_true same] at atLeast
      exact absurd earlier (Nat.not_lt.mpr atLeast)
    have afterwards : (after.flatMap fun line => (first :: others).filter (·.line = line)) =
        after.flatMap fun line => others.filter (·.line = line) := by
      refine congrArg List.flatten (List.map_congr_left fun line member => ?_)
      exact List.filter_cons_of_neg (by simpa using Nat.ne_of_lt (later line member))
    have atLine : (first :: others).filter (·.line = first.line) =
        first :: others.filter (·.line = first.line) :=
      List.filter_cons_of_pos (decide_eq_true rfl)
    rw [List.flatMap_append, nothing others least, List.flatMap_cons, List.nil_append] at behind
    rw [List.flatMap_append, nothing _ (List.forall_mem_cons.mpr ⟨Nat.le_refl _, least⟩),
      List.flatMap_cons, List.nil_append, afterwards, atLine, List.cons_append, behind]

/-- The last line is the greatest one. -/
theorem Printable.line_le {tokens : List Token} (printable : Printable tokens) :
    ∀ token ∈ tokens, token.line ≤ (lastLine? tokens).getD 0 := by
  intro token member
  cases isLast : tokens.getLast? with
  | none => exact absurd (List.getLast?_eq_none_iff.mp isLast) (List.ne_nil_of_mem member)
  | some last =>
    obtain ⟨front, rfl⟩ := List.getLast?_eq_some_iff.mp isLast
    have crossing := (List.pairwise_append.mp printable.ordered).2.2
    rw [lastLine?, isLast]
    rcases List.mem_append.mp member with inside | same
    · exact crossing token inside last (List.mem_singleton_self _)
    · exact Nat.le_of_eq (congrArg Token.line (List.mem_singleton.mp same))

theorem Printable.max_lastLine {tokens : List Token} (printable : Printable tokens) :
    max ((lastLine? tokens).getD 0) 1 = (lastLine? tokens).getD 1 := by
  rw [lastLine?]
  cases last : tokens.getLast? with
  | none => rfl
  | some token => exact Nat.max_eq_left (printable.positive token (List.mem_of_getLast? last))

end Token

/-! ### Printed tokens -/

section

variable {tokens : List Token}

/-- The text of a line is scanned as the tokens of the line. -/
theorem Lexer.scanLine_lineText (printable : Token.Printable tokens) (line : Nat) :
    scanLine line (Token.lineText tokens line) =
      ⟨tokens.filter fun token => token.line = line, none⟩ := by
  refine scanLine_intercalate (fun token member => ?_) fun token member => ?_
  · exact printable.spelled token (List.mem_filter.mp member).1
  · exact of_decide_eq_true (List.mem_filter.mp member).2

/-- Printed tokens have the lines that they were printed as. -/
theorem Token.splitLines_printed (printable : Printable tokens) :
    Text.splitLines (printed tokens) =
      (List.range' 1 ((lastLine? tokens).getD 0)).map fun line =>
        String.ofList (lineText tokens line) := by
  have areLines : ∀ line ∈ (List.range' 1 ((lastLine? tokens).getD 0)).map (lineText tokens),
      Text.IsLine line := by
    intro line member
    obtain ⟨number, _, rfl⟩ := List.mem_map.mp member
    refine Text.IsLine.intercalate fun lexeme inside => ?_
    obtain ⟨token, onLine, rfl⟩ := List.mem_map.mp inside
    exact Lexer.isLine_of_spelled (printable.spelled token (List.mem_filter.mp onLine).1)
  have splits := Text.splitLines_flatMap areLines
  rwa [List.flatMap_map, List.map_map] at splits

theorem Lexer.tokens_scan_printed (printable : Token.Printable tokens) :
    (scan (Token.printed tokens)).stream.tokens = tokens := by
  have inside : ∀ token ∈ tokens,
      token.line ∈ List.range' 1 ((Token.lastLine? tokens).getD 0) := by
    intro token member
    have atLeast := printable.positive token member
    have atMost := printable.line_le token member
    exact List.mem_range'_1.mpr ⟨atLeast, by omega⟩
  rw [tokens_scan, Token.splitLines_printed printable, tokensFrom_map_range']
  simp only [scanLine_lineText printable]
  exact Token.flatMap_filter_line List.pairwise_lt_range' printable.ordered inside

theorem Lexer.clean_scan_printed (printable : Token.Printable tokens) :
    (scan (Token.printed tokens)).clean = true := by
  rw [clean_scan_iff, Token.splitLines_printed printable]
  intro line member
  obtain ⟨number, _, rfl⟩ := List.mem_map.mp member
  rw [String.toList_ofList, ← error?_scanLine number, scanLine_lineText printable]

theorem Lexer.eof_scan_printed (printable : Token.Printable tokens) :
    (scan (Token.printed tokens)).stream.eof =
      ⟨.eof, "", (Token.lastLine? tokens).getD 1⟩ := by
  show Token.mk .eof "" (max (Text.splitLines (Token.printed tokens)).length 1) = _
  rw [Token.splitLines_printed printable, List.length_map, List.length_range',
    printable.max_lastLine]

end

/-- Scanning undoes printing. The text of tokens whose lexemes belong to their kinds, with the
tokens of each line on that line and single spaces between them, is scanned without errors as the
very tokens. The end stands on the line of the last token, and on line 1 if there is none. -/
theorem scan_printed {tokens : List Token} (printable : Token.Printable tokens) :
    Lexer.scan (Token.printed tokens) =
      ⟨⟨tokens, ⟨.eof, "", (Token.lastLine? tokens).getD 1⟩⟩, []⟩ := by
  have same := Lexer.tokens_scan_printed printable
  have clean := Lexer.clean_scan_printed printable
  have ends := Lexer.eof_scan_printed printable
  generalize Lexer.scan (Token.printed tokens) = scan at same clean ends ⊢
  obtain ⟨⟨scanned, eof⟩, diagnostics⟩ := scan
  obtain rfl : scanned = tokens := same
  obtain rfl : eof = _ := ends
  rw [show diagnostics = [] from List.isEmpty_iff.mp clean]

/-- A name that begins like a keyword, a slash in front of a string that looks like a comment, an
empty line and a point. -/
theorem scan_printed_lookahead :
    let tokens : List Token :=
      [⟨.identifier, "variable", 1⟩, ⟨.slash, "/", 2⟩, ⟨.string, "\"// a\"", 2⟩,
        ⟨.number, "1.5", 4⟩]
    Token.printed tokens = "variable\n/ \"// a\"\n\n1.5\n" ∧
      Lexer.scan "variable\n/ \"// a\"\n\n1.5\n" = ⟨⟨tokens, ⟨.eof, "", 4⟩⟩, []⟩ := by
  intro tokens
  have printed : Token.printed tokens = "variable\n/ \"// a\"\n\n1.5\n" := by decide +kernel
  have name : Token.Spelled .identifier "variable".toList :=
    @Token.Spelled.identifier 'v' "ariable".toList rfl
      (List.all_eq_true.mp (by decide +kernel)) (by decide +kernel)
  have slash : Token.Spelled .slash "/".toList := .symbol (by decide +kernel)
  have string : Token.Spelled .string "\"// a\"".toList :=
    @Token.Spelled.string "// a".toList (by simp)
  have number : Token.Spelled .number "1.5".toList :=
    @Token.Spelled.fraction ['1'] ['5'] (List.cons_ne_nil _ _) (List.forall_mem_singleton.mpr rfl)
      (List.cons_ne_nil _ _) (List.forall_mem_singleton.mpr rfl)
  have printable : Token.Printable tokens := by
    refine ⟨?_, by decide +kernel, by decide +kernel⟩
    simp only [tokens, List.forall_mem_cons]
    exact ⟨name, slash, string, number, fun _ member => absurd member List.not_mem_nil⟩
  refine ⟨printed, ?_⟩
  rw [← printed]
  exact scan_printed printable

end Lox
