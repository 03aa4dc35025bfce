/-
This file scans and parses two sources with a newline between them. Lines are
scanned one by one, so the tokens are those of the first source and then those
of the second, as many lines further down as the first one has. If neither
source has a static error, the two together have none, and their statements are
those of the first and then those of the second.
-/

import Lox.Proofs.Lines.Derivations
import Lox.Proofs.Text.Pieces
import Lox.Proofs.Token.Lexemes

namespace Lox

/-! ### Lines -/

namespace Lexer

/-- The scan of a line with another number. -/
def LineScan.renumber (lines : Nat → Nat) (scan : LineScan) : LineScan :=
  { scan with tokens := scan.tokens.map (Token.renumber lines) }

theorem scanLine_of_comment {number : Nat} {char : Char} {text : List Char}
    (found : front char text = .comment) : scanLine number (char :: text) = ⟨[], none⟩ := by
  rw [scanLine]
  split <;> simp_all

theorem scanLine_of_error {number : Nat} {char : Char} {text : List Char} {error : LexicalError}
    (found : front char text = .error error) :
    scanLine number (char :: text) = ⟨[], some error⟩ := by
  rw [scanLine]
  split <;> simp_all

/-- The number of a line shows in its tokens alone. -/
theorem scanLine_renumber (lines : Nat → Nat) (number : Nat) (text : List Char) :
    scanLine (lines number) text = (scanLine number text).renumber lines := by
  induction text using scanLine.induct with
  | case1 => rw [scanLine, scanLine]; rfl
  | case2 char text kind lexeme rest found inductionHypothesis =>
    rw [scanLine_of_token found, scanLine_of_token found, inductionHypothesis]
    rfl
  | case3 char text rest found inductionHypothesis =>
    rw [scanLine_of_blank found, scanLine_of_blank found, inductionHypothesis]
  | case4 char text found =>
    rw [scanLine_of_comment found, scanLine_of_comment found]
    rfl
  | case5 char text error found =>
    rw [scanLine_of_error found, scanLine_of_error found]
    rfl

/-! ### Texts -/

/-- The tokens of lines, the first of which has the given number. -/
def tokensFrom (number : Nat) (lines : List String) : List Token :=
  (scanFrom number lines).flatMap fun (_, scan) => scan.tokens

/-- No line has an error. -/
def CleanLines (lines : List String) : Prop :=
  ∀ line ∈ lines, (scanLine 0 line.toList).error? = none

theorem tokensFrom_cons (number : Nat) (line : String) (lines : List String) :
    tokensFrom number (line :: lines) =
      (scanLine number line.toList).tokens ++ tokensFrom (number + 1) lines := rfl

theorem tokensFrom_append (number : Nat) (first second : List String) :
    tokensFrom number (first ++ second) =
      tokensFrom number first ++ tokensFrom (number + first.length) second := by
  rw [tokensFrom, scanFrom, List.zipIdx_append, List.map_append, List.flatMap_append]
  rfl

theorem tokensFrom_add (shift number : Nat) (lines : List String) :
    tokensFrom (number + shift) lines =
      (tokensFrom number lines).map (Token.renumber (· + shift)) := by
  induction lines generalizing number with
  | nil => rfl
  | cons line lines inductionHypothesis =>
    have first := congrArg LineScan.tokens (scanLine_renumber (· + shift) number line.toList)
    have behind := inductionHypothesis (number + 1)
    rw [Nat.add_right_comm] at behind
    rw [tokensFrom_cons, tokensFrom_cons, List.map_append, behind, first]
    rfl

/-- All pieces of a source have the tokens of its lines. -/
theorem tokensFrom_allLines (number : Nat) (source : String) :
    tokensFrom number (Text.allLines source) = tokensFrom number (Text.splitLines source) := by
  rcases Text.allLines_eq source with same | longer
  · rw [same]
  · have nothing : ∀ number, tokensFrom number [""] = [] := by
      intro number
      show (scanLine number []).tokens ++ [] = []
      rw [scanLine]
      rfl
    rw [longer, tokensFrom_append, nothing, List.append_nil]

theorem cleanLines_allLines (source : String) :
    CleanLines (Text.allLines source) ↔ CleanLines (Text.splitLines source) := by
  rcases Text.allLines_eq source with same | longer
  · rw [same]
  · have empty : (scanLine 0 []).error? = none := by
      rw [scanLine]
    rw [longer, CleanLines, CleanLines, List.forall_mem_append, List.forall_mem_singleton]
    exact and_iff_left empty

theorem tokens_scan (source : String) :
    (scan source).stream.tokens = tokensFrom 1 (Text.splitLines source) := rfl

/-- The error on a line is the same whatever its number is. -/
theorem error?_scanLine (number : Nat) (text : List Char) :
    (scanLine number text).error? = (scanLine 0 text).error? := by
  rw [scanLine_renumber (fun _ => number) 0 text]
  rfl

/-- A source scans without errors if its lines do. -/
theorem clean_scan_iff (source : String) :
    (scan source).clean = true ↔ CleanLines (Text.splitLines source) := by
  rw [Scan.clean, List.isEmpty_iff, scan, scanLines, List.filterMap_eq_nil_iff, scanFrom,
    List.forall_mem_map]
  simp only [Option.map_eq_none_iff, error?_scanLine]
  constructor
  · intro clean line member
    rw [← List.zipIdx_map_fst 1 (Text.splitLines source)] at member
    obtain ⟨numbered, inside, rfl⟩ := List.mem_map.mp member
    exact clean numbered inside
  · intro clean numbered member
    exact clean numbered.1 (List.fst_mem_of_mem_zipIdx member)

/-- The tokens of two sources with a newline between them. -/
theorem tokens_scan_append (first second : String) :
    (scan (first ++ "\n" ++ second)).stream.tokens =
      (scan first).stream.tokens ++
        (scan second).stream.tokens.map
          (Token.renumber (· + (first.toList.count '\n' + 1))) := by
  rw [tokens_scan, Text.splitLines_append, tokensFrom_append, tokensFrom_allLines,
    Text.length_allLines, tokensFrom_add]
  rfl

theorem clean_scan_append (first second : String) :
    (scan (first ++ "\n" ++ second)).clean = true ↔
      (scan first).clean = true ∧ (scan second).clean = true := by
  rw [clean_scan_iff, clean_scan_iff, clean_scan_iff, Text.splitLines_append, CleanLines,
    List.forall_mem_append]
  exact and_congr_left' (cleanLines_allLines first)

end Lexer

/-! ### Programs -/

/-- Two programs without errors are together one, and the second keeps all but its lines. -/
theorem Program.clean_append {stream first second : TokenStream} (lines : Nat → Nat)
    (tokens : stream.tokens = first.tokens ++ second.tokens.map (Token.renumber lines))
    (firstClean : (ofStream first).clean = true) (secondClean : (ofStream second).clean = true) :
    (ofStream stream).clean = true ∧
      (ofStream stream).statements =
        (ofStream first).statements ++ (ofStream second).statements.map (Stmt.renumber lines) := by
  have derives : ∀ {stream : TokenStream}, (ofStream stream).clean = true →
      Grammar.Program stream.tokens (ofStream stream).statements := by
    intro stream clean
    obtain ⟨_, takes⟩ := (clean_ofStream_iff stream _).mp ⟨clean, rfl⟩
    exact Parser.program_of_takes takes
  have both := (derives firstClean).append (derives secondClean) lines
  rw [← tokens] at both
  exact (clean_ofStream_iff stream _).mpr ⟨[], Parser.takes_program both (Nat.lt_succ_self _)⟩

end Lox
