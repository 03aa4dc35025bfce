/-
This file cuts source lines into tokens.

A line is scanned from left to right. `Lexer.front` says what stands at the
front of the remaining text: a token, a blank, the end of what counts on the
line, or an error; a token is always the longest one that starts there. An
error abandons the rest of its line and leaves the other lines alone.
-/

import Lox.Diagnostic
import Lox.Text.Lines

namespace Lox.Lexer

open Token (Kind)

/-! ### Lexemes -/

/-- The characters that may stand between tokens. -/
def isIgnorable (char : Char) : Bool :=
  char = ' ' || char = '\r' || char = '\t' || char = '\n'

/-- What stands at the front of a text. -/
inductive Front where
  | token (kind : Kind) (lexeme rest : List Char)
  | blank (rest : List Char)
  | comment
  | error (error : LexicalError)

/-- A number: digits, and a point with more digits if a digit follows the point. A further point
right behind a fraction is an error. -/
def numberFront (text : List Char) : Front :=
  let whole := text.takeWhile Char.isDigit
  let rest := text.dropWhile Char.isDigit
  match rest with
  | '.' :: digit :: more =>
    if digit.isDigit then
      let fraction := digit :: more.takeWhile Char.isDigit
      let behind := more.dropWhile Char.isDigit
      if behind.head? = some '.' then .error .secondPoint
      else .token .number (whole ++ '.' :: fraction) behind
    else
      .token .number whole rest
  | _ => .token .number whole rest

/-- A string: everything up to the next quotation mark, which must be on the line. -/
def stringFront (afterQuote : List Char) : Front :=
  let body := afterQuote.takeWhile (· ≠ '"')
  match afterQuote.dropWhile (· ≠ '"') with
  | [] => .error .unterminatedString
  | quote :: rest => .token .string ('"' :: body ++ [quote]) rest

/-- A word: reserved or an identifier. -/
def wordFront (text : List Char) : Front :=
  let word := text.takeWhile Char.isAlphanum
  .token (Kind.ofWord (String.ofList word)) word (text.dropWhile Char.isAlphanum)

/-- A character that may have an equals sign after it. -/
def operatorFront (char : Char) (kinds : Kind × Kind) : List Char → Front
  | '=' :: rest => .token kinds.2 [char, '='] rest
  | rest => .token kinds.1 [char] rest

/-- A slash: two of them start a comment. -/
def slashFront : List Char → Front
  | '/' :: _ => .comment
  | rest => .token .slash ['/'] rest

/-- What stands at the front of a text that is not empty. -/
def front (char : Char) (rest : List Char) : Front :=
  match Kind.ofSingle? char with
  | some kind => .token kind [char] rest
  | none =>
    match Kind.ofOperator? char with
    | some kinds => operatorFront char kinds rest
    | none =>
      if isIgnorable char then .blank rest
      else if char = '/' then slashFront rest
      else if char = '"' then stringFront rest
      else if char.isDigit then numberFront (char :: rest)
      else if char.isAlpha then wordFront (char :: rest)
      else .error (.unknownCharacter char)

/-! ### Progress -/

/-- The text behind a front, as long as scanning goes on. -/
def Front.rest? : Front → Option (List Char)
  | .token _ _ rest => some rest
  | .blank rest => some rest
  | .comment => none
  | .error _ => none

theorem length_dropWhile_le (keep : Char → Bool) (text : List Char) :
    (text.dropWhile keep).length ≤ text.length :=
  (List.dropWhile_sublist keep).length_le

theorem length_rest_numberFront {char : Char} {text rest : List Char} (digit : char.isDigit)
    (behind : (numberFront (char :: text)).rest? = some rest) : rest.length ≤ text.length := by
  have shorter := length_dropWhile_le Char.isDigit text
  simp only [numberFront, List.dropWhile_cons_of_pos digit] at behind
  split at behind
  · next _ next more equal =>
    have further := length_dropWhile_le Char.isDigit more
    rw [equal, List.length_cons, List.length_cons] at shorter
    split at behind
    · split at behind
      · cases behind
      · cases behind
        omega
    · cases behind
      rw [equal, List.length_cons, List.length_cons]
      exact shorter
  · cases behind
    exact shorter

theorem length_rest_stringFront {text rest : List Char}
    (behind : (stringFront text).rest? = some rest) : rest.length ≤ text.length := by
  have shorter := length_dropWhile_le (· ≠ '"') text
  simp only [stringFront] at behind
  split at behind
  · cases behind
  · next _ _ _ equal =>
    cases behind
    rw [equal, List.length_cons] at shorter
    omega

theorem length_rest_wordFront {char : Char} {text rest : List Char} (part : char.isAlphanum)
    (behind : (wordFront (char :: text)).rest? = some rest) : rest.length ≤ text.length := by
  simp only [wordFront, List.dropWhile_cons_of_pos part, Front.rest?, Option.some.injEq] at behind
  subst behind
  exact length_dropWhile_le _ _

theorem length_rest_operatorFront {char : Char} {kinds : Kind × Kind} {text rest : List Char}
    (behind : (operatorFront char kinds text).rest? = some rest) :
    rest.length ≤ text.length := by
  unfold operatorFront at behind
  split at behind <;> cases behind <;> simp

theorem length_rest_slashFront {text rest : List Char}
    (behind : (slashFront text).rest? = some rest) : rest.length ≤ text.length := by
  unfold slashFront at behind
  split at behind <;> cases behind
  simp

/-- Every front takes at least one character. -/
theorem length_rest_front {char : Char} {text rest : List Char}
    (behind : (front char text).rest? = some rest) : rest.length ≤ text.length := by
  unfold front at behind
  split at behind
  · cases behind
    simp
  split at behind
  · exact length_rest_operatorFront behind
  split at behind
  · cases behind
    simp
  split at behind
  · exact length_rest_slashFront behind
  split at behind
  · exact length_rest_stringFront behind
  split at behind
  · next digit => exact length_rest_numberFront digit behind
  split at behind
  · next letter =>
    exact length_rest_wordFront (by simp [Char.isAlphanum, letter]) behind
  · cases behind

/-! ### Lines -/

/-- The tokens of one line, and the error that abandoned it, if any. -/
structure LineScan where
  tokens : List Token
  error? : Option LexicalError
  deriving DecidableEq

/-- A line scan with one more token in front. -/
def LineScan.push (token : Token) (scan : LineScan) : LineScan :=
  { scan with tokens := token :: scan.tokens }

/-- Scans the text of the line with the given number. -/
def scanLine (number : Nat) : List Char → LineScan
  | [] => ⟨[], none⟩
  | char :: text =>
    match _ : front char text with
    | .token kind lexeme rest =>
      (scanLine number rest).push ⟨kind, String.ofList lexeme, number⟩
    | .blank rest => scanLine number rest
    | .comment => ⟨[], none⟩
    | .error error => ⟨[], some error⟩
  termination_by text => text.length
  decreasing_by
    all_goals
      have shorter : rest.length ≤ text.length :=
        length_rest_front (by rw [‹front char text = _›]; rfl)
      simp only [List.length_cons]
      omega

/-! ### Texts -/

/-- The tokens of a source text with the errors on its lines. -/
structure Scan where
  stream : TokenStream
  diagnostics : List Diagnostic
  deriving DecidableEq

/-- The scans of the lines with their numbers, which start at the given one. -/
def scanFrom (number : Nat) (lines : List String) : List (Nat × LineScan) :=
  (lines.zipIdx number).map fun (line, number) => (number, scanLine number line.toList)

/-- Scans the lines of a source text. The end is on the last line, or on line 1 without lines. -/
def scanLines (lines : List String) : Scan :=
  let scans := scanFrom 1 lines
  { stream :=
      { tokens := scans.flatMap fun (_, scan) => scan.tokens
        eof := ⟨.eof, "", max lines.length 1⟩ }
    diagnostics := scans.filterMap fun (number, scan) =>
      scan.error?.map fun error => .lexical number error }

/-- Scans a source text. -/
def scan (source : String) : Scan := scanLines (Text.splitLines source)

/-- The scan met no error. -/
def Scan.clean (scan : Scan) : Bool := scan.diagnostics.isEmpty

end Lox.Lexer
