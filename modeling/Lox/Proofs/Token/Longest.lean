/-
This file proves that the scanner always takes the longest lexeme. The lexemes
are listed by how they begin, and whatever lexeme stands at the front of a text,
the front that the scanner finds there is no shorter, unless it is a comment or
a number with a second point behind it.
-/

import Lox.Proofs.Token.Printing

namespace Lox

open Token (Kind)

/-! ### The lexical grammar -/

namespace Token

/-- The text is a lexeme of the kind. A text that is not cut at newlines may hold them in its
strings. -/
inductive Lexeme : Kind → List Char → Prop
  | spelled {kind : Kind} {lexeme : List Char} : Spelled kind lexeme → Lexeme kind lexeme
  | string {body : List Char} : '"' ∉ body → Lexeme .string ('"' :: body ++ ['"'])

/-- The text begins with the lexeme, and with no lexeme that is longer. -/
structure Longest (kind : Kind) (lexeme text : List Char) : Prop where
  belongs : Lexeme kind lexeme
  begins : lexeme <+: text
  longest : ∀ other further, Lexeme other further → further <+: text →
    further.length ≤ lexeme.length

/-- No lexeme stands at the front of the text. -/
def Bare (text : List Char) : Prop := ∀ kind lexeme, Lexeme kind lexeme → ¬ lexeme <+: text

/-- A number with a point stands at the front of the text, and another point right behind it. -/
def SecondPoint (text : List Char) : Prop :=
  ∃ lexeme, Lexeme .number lexeme ∧ '.' ∈ lexeme ∧ lexeme ++ ['.'] <+: text

/-- The lexemes by how they begin. -/
inductive Shape : Kind → List Char → Prop
  | single {kind : Kind} {char : Char} : Kind.ofSingle? char = some kind → Shape kind [char]
  | alone {kind double : Kind} {char : Char} : Kind.ofOperator? char = some (kind, double) →
    Shape kind [char]
  | withEqual {kind alone : Kind} {char : Char} : Kind.ofOperator? char = some (alone, kind) →
    Shape kind [char, '=']
  | slash : Shape .slash ['/']
  | word {kind : Kind} {first : Char} {others : List Char} : first.isAlpha = true →
    (∀ char ∈ others, char.isAlphanum = true) →
    Kind.ofWord (String.ofList (first :: others)) = kind → Shape kind (first :: others)
  | whole {first : Char} {others : List Char} :
    (∀ char ∈ first :: others, char.isDigit = true) → Shape .number (first :: others)
  | fraction {first place : Char} {others places : List Char} :
    (∀ char ∈ first :: others, char.isDigit = true) →
    (∀ char ∈ place :: places, char.isDigit = true) →
    Shape .number ((first :: others) ++ '.' :: place :: places)
  | string {body : List Char} : '"' ∉ body → Shape .string ('"' :: body ++ ['"'])

theorem shape_symbol : ∀ entry ∈ symbols, Shape entry.1 entry.2.toList := by
  intro entry member
  simp only [symbols, List.mem_cons, List.not_mem_nil, or_false] at member
  rcases member with rfl | rfl | rfl | rfl | rfl | rfl | rfl | rfl | rfl | rfl | rfl | rfl | rfl |
    rfl | rfl | rfl | rfl | rfl | rfl
  case inr.inr.inr.inr.inr.inr.inr.inr.inl => exact .slash
  all_goals first | exact .single rfl | exact .alone rfl | exact .withEqual rfl

theorem shape_keyword : ∀ entry ∈ keywords, Shape entry.1 entry.2.toList := by
  intro entry member
  simp only [keywords, List.mem_cons, List.not_mem_nil, or_false] at member
  rcases member with rfl | rfl | rfl | rfl | rfl | rfl | rfl | rfl | rfl | rfl | rfl | rfl | rfl |
    rfl
  all_goals exact .word (by decide) (List.all_eq_true.mp (by decide)) (by decide +kernel)

theorem Lexeme.shape {kind : Kind} {lexeme : List Char} (belongs : Lexeme kind lexeme) :
    Shape kind lexeme := by
  cases belongs with
  | string unquoted => exact .string unquoted
  | spelled spelled =>
    cases spelled with
    | symbol member => exact shape_symbol _ member
    | keyword member => exact shape_keyword _ member
    | identifier letter parts free => exact .word letter parts (Lexer.ofWord_of_notMem free)
    | whole some all =>
      obtain ⟨first, others, rfl⟩ := List.exists_cons_of_ne_nil some
      exact .whole all
    | fraction some all somePlaces allPlaces =>
      obtain ⟨first, others, rfl⟩ := List.exists_cons_of_ne_nil some
      obtain ⟨place, places, rfl⟩ := List.exists_cons_of_ne_nil somePlaces
      exact .fraction all allPlaces
    | string plain => exact .string fun member => (plain _ member).1 rfl

theorem lexeme_symbol {kind : Kind} {lexeme : List Char}
    (member : (kind, String.ofList lexeme) ∈ symbols) : Lexeme kind lexeme := by
  have spelled := Spelled.symbol member
  rw [String.toList_ofList] at spelled
  exact .spelled spelled

theorem lexeme_word {first : Char} {others : List Char} (letter : first.isAlpha = true)
    (parts : ∀ char ∈ others, char.isAlphanum = true) :
    Lexeme (Kind.ofWord (String.ofList (first :: others))) (first :: others) := by
  have kinds : ∀ entry ∈ keywords, Kind.ofWord entry.2 = entry.1 := by decide +kernel
  by_cases reserved : String.ofList (first :: others) ∈ keywords.map Prod.snd
  · obtain ⟨⟨kind, word⟩, member, same⟩ := List.mem_map.mp reserved
    obtain rfl : word = String.ofList (first :: others) := same
    have spelled := Spelled.keyword member
    rw [String.toList_ofList] at spelled
    rw [kinds _ member]
    exact .spelled spelled
  · rw [Lexer.ofWord_of_notMem reserved]
    exact .spelled (.identifier letter parts reserved)

theorem Shape.lexeme {kind : Kind} {lexeme : List Char} (shape : Shape kind lexeme) :
    Lexeme kind lexeme := by
  cases shape with
  | single found =>
    unfold Kind.ofSingle? at found
    split at found <;> cases found <;> exact lexeme_symbol (by decide)
  | alone found =>
    unfold Kind.ofOperator? at found
    split at found <;> cases found <;> exact lexeme_symbol (by decide)
  | withEqual found =>
    unfold Kind.ofOperator? at found
    split at found <;> cases found <;> exact lexeme_symbol (by decide)
  | slash => exact lexeme_symbol (by decide)
  | word letter parts same => exact same ▸ lexeme_word letter parts
  | whole all => exact .spelled (.whole (List.cons_ne_nil _ _) all)
  | fraction all allPlaces =>
    exact .spelled (.fraction (List.cons_ne_nil _ _) all (List.cons_ne_nil _ _) allPlaces)
  | string unquoted => exact .string unquoted

/-- The end of a source is no lexeme. -/
theorem Lexeme.ne_eof {kind : Kind} {lexeme : List Char} (belongs : Lexeme kind lexeme) :
    kind ≠ .eof := by
  have symbol : ∀ entry ∈ symbols, entry.1 ≠ .eof := by decide
  have keyword : ∀ entry ∈ keywords, entry.1 ≠ .eof := by decide
  cases belongs with
  | string _ => decide
  | spelled spelled =>
    cases spelled with
    | symbol member => exact symbol _ member
    | keyword member => exact keyword _ member
    | identifier _ _ _ | whole _ _ | fraction _ _ _ _ | string _ => decide

end Token

/-! ### Fronts and lexemes -/

namespace Lexer

/-- The front is a comment, a number that is given up, or a token no shorter than the lexeme, which
is of the same kind if it is no longer. -/
def Front.Covers (kind : Kind) (lexeme : List Char) : Front → Prop
  | .token other further _ =>
    lexeme.length ≤ further.length ∧ (further.length ≤ lexeme.length → other = kind)
  | .comment => True
  | .error fault => fault = .secondPoint
  | .blank _ => False

theorem ofSingle?_of_operator {char : Char} {kinds : Kind × Kind}
    (found : Kind.ofOperator? char = some kinds) : Kind.ofSingle? char = none := by
  unfold Kind.ofOperator? at found
  split at found <;> cases found <;> rfl

theorem front_of_operator {char : Char} {kinds : Kind × Kind}
    (found : Kind.ofOperator? char = some kinds) (text : List Char) :
    front char text = operatorFront char kinds text := by
  rw [front, ofSingle?_of_operator found]
  simp only [found]

theorem front_of_digit {char : Char} (digit : char.isDigit = true) (text : List Char) :
    front char text = numberFront (char :: text) := by
  rw [front_of_isAlphanum (by rw [Char.isAlphanum, digit, Bool.or_true]), if_pos digit]

theorem front_of_letter {char : Char} (letter : char.isAlpha = true) (text : List Char) :
    front char text = wordFront (char :: text) := by
  rw [front_of_isAlphanum (by rw [Char.isAlphanum, letter, Bool.true_or]),
    if_neg (not_isDigit_of_isAlpha letter)]

theorem covers_of_word {kind : Kind} {word : List Char}
    (all : ∀ char ∈ word, char.isAlphanum = true) (same : Kind.ofWord (String.ofList word) = kind)
    (behind : List Char) : (wordFront (word ++ behind)).Covers kind word := by
  rw [wordFront, List.takeWhile_append_of_pos all]
  have longer := List.prefix_append word (behind.takeWhile Char.isAlphanum)
  refine ⟨longer.length_le, fun shorter => ?_⟩
  rw [← longer.eq_of_length_le shorter, same]

theorem covers_of_string {body : List Char} (unquoted : '"' ∉ body) (behind : List Char) :
    (stringFront (body ++ '"' :: behind)).Covers .string ('"' :: (body ++ ['"'])) := by
  have keep : ∀ char ∈ body, decide (char ≠ '"') = true :=
    fun char member => decide_eq_true (ne_of_mem_of_not_mem member unquoted)
  rw [stringFront, List.takeWhile_append_of_pos keep, List.dropWhile_append_of_pos keep]
  simp [Front.Covers]

theorem covers_of_whole {digits : List Char} (all : ∀ char ∈ digits, char.isDigit = true)
    (behind : List Char) : (numberFront (digits ++ behind)).Covers .number digits := by
  rw [numberFront, List.takeWhile_append_of_pos all, List.dropWhile_append_of_pos all]
  dsimp only
  split
  · split
    · split
      · rfl
      · refine ⟨?_, fun _ => rfl⟩
        exact ((List.prefix_append _ _).trans (List.prefix_append _ _)).length_le
    · exact ⟨(List.prefix_append _ _).length_le, fun _ => rfl⟩
  · exact ⟨(List.prefix_append _ _).length_le, fun _ => rfl⟩

/-- A number with a point is taken with all its places, or given up for a second point. -/
theorem numberFront_fraction {digits places : List Char} {place : Char}
    (all : ∀ char ∈ digits, char.isDigit = true)
    (allPlaces : ∀ char ∈ place :: places, char.isDigit = true) (behind : List Char) :
    numberFront (digits ++ '.' :: place :: places ++ behind) =
      if (behind.dropWhile Char.isDigit).head? = some '.' then .error .secondPoint
      else .token .number (digits ++ '.' :: place :: places ++ behind.takeWhile Char.isDigit)
        (behind.dropWhile Char.isDigit) := by
  obtain ⟨digitPlace, allMore⟩ := List.forall_mem_cons.mp allPlaces
  have whole : (digits ++ '.' :: place :: places ++ behind).takeWhile Char.isDigit = digits := by
    rw [List.append_assoc, List.takeWhile_append_of_pos all, List.cons_append,
      List.takeWhile_cons_of_neg (by decide), List.append_nil]
  have rest : (digits ++ '.' :: place :: places ++ behind).dropWhile Char.isDigit =
      '.' :: place :: (places ++ behind) := by
    rw [List.append_assoc, List.dropWhile_append_of_pos all, List.cons_append,
      List.dropWhile_cons_of_neg (by decide), List.cons_append]
  rw [numberFront, whole, rest]
  simp only [digitPlace, if_true, List.takeWhile_append_of_pos allMore,
    List.dropWhile_append_of_pos allMore, List.append_assoc, List.cons_append]

/-- Whatever lexeme a text begins with, its front is no shorter. -/
theorem covers_front {kind : Kind} {lexeme behind text : List Char} {char : Char}
    (shape : Token.Shape kind lexeme) (cut : lexeme ++ behind = char :: text) :
    (front char text).Covers kind lexeme := by
  cases shape with
  | single found =>
    cases cut
    rw [front, found]
    exact ⟨Nat.le_refl _, fun _ => rfl⟩
  | alone found =>
    cases cut
    rw [front_of_operator found]
    unfold operatorFront
    split
    · exact ⟨Nat.le_succ 1, fun shorter => absurd shorter (Nat.not_succ_le_self 1)⟩
    · exact ⟨Nat.le_refl _, fun _ => rfl⟩
  | withEqual found =>
    cases cut
    rw [front_of_operator found]
    exact ⟨Nat.le_refl _, fun _ => rfl⟩
  | slash =>
    cases cut
    show (slashFront behind).Covers .slash ['/']
    unfold slashFront
    split
    · trivial
    · exact ⟨Nat.le_refl _, fun _ => rfl⟩
  | @word _ first others letter parts same =>
    have all : ∀ char ∈ first :: others, char.isAlphanum = true :=
      List.forall_mem_cons.mpr ⟨by rw [Char.isAlphanum, letter, Bool.true_or], parts⟩
    obtain ⟨rfl, rfl⟩ := List.cons.inj cut
    rw [front_of_letter letter]
    exact covers_of_word all same behind
  | @whole first others all =>
    obtain ⟨rfl, rfl⟩ := List.cons.inj cut
    rw [front_of_digit (all _ List.mem_cons_self)]
    exact covers_of_whole all behind
  | @fraction first place others places all allPlaces =>
    obtain ⟨rfl, rfl⟩ := List.cons.inj cut
    rw [front_of_digit (all _ List.mem_cons_self)]
    show (numberFront ((first :: others) ++ '.' :: place :: places ++ behind)).Covers _ _
    rw [numberFront_fraction all allPlaces]
    split
    · rfl
    · exact ⟨(List.prefix_append _ _).length_le, fun _ => rfl⟩
  | @string body unquoted =>
    rw [List.append_assoc] at cut
    obtain ⟨rfl, rfl⟩ := List.cons.inj cut
    exact covers_of_string unquoted behind

/-! ### What stands at the front -/

/-- The characters that may stand between lexemes. -/
def separators : List Char := [' ', '\t', '\r', '\n']

/-- What is wrong with a text that begins with the character, but with no lexeme. -/
def bareError (char : Char) : LexicalError :=
  if char = '"' then .unterminatedString else .unknownCharacter char

/-- The front says what stands at the front of the text. -/
def Front.Stands (char : Char) (text : List Char) : Front → Prop
  | .token kind lexeme rest => Token.Shape kind lexeme ∧ lexeme ++ rest = char :: text
  | .blank rest => char ∈ separators ∧ rest = text
  | .comment => char = '/' ∧ text.head? = some '/'
  | .error fault =>
    fault = .secondPoint ∧ Token.SecondPoint (char :: text) ∨
      fault = bareError char ∧ char ∉ separators

theorem stands_numberFront {char : Char} (digit : char.isDigit = true) (text : List Char) :
    (numberFront (char :: text)).Stands char text := by
  have all : ∀ other ∈ char :: text.takeWhile Char.isDigit, other.isDigit = true :=
    List.forall_mem_cons.mpr ⟨digit, fun _ => List.all_eq_true.mp List.all_takeWhile _⟩
  have cut : (char :: text.takeWhile Char.isDigit) ++ text.dropWhile Char.isDigit = char :: text :=
    congrArg (char :: ·) List.takeWhile_append_dropWhile
  rw [numberFront, List.takeWhile_cons_of_pos digit, List.dropWhile_cons_of_pos digit]
  dsimp only
  split
  · next place more behind =>
    split
    · next digitPlace =>
      have allPlaces : ∀ other ∈ place :: more.takeWhile Char.isDigit, other.isDigit = true :=
        List.forall_mem_cons.mpr ⟨digitPlace, fun _ => List.all_eq_true.mp List.all_takeWhile _⟩
      have further : (char :: text.takeWhile Char.isDigit) ++
          '.' :: place :: more.takeWhile Char.isDigit ++ more.dropWhile Char.isDigit =
            char :: text := by
        rw [← cut, behind]
        simp only [List.append_assoc, List.cons_append, List.takeWhile_append_dropWhile]
      split
      · next second =>
        obtain ⟨rest, point⟩ := List.head?_eq_some_iff.mp second
        refine .inl ⟨rfl, _, (Token.Shape.fraction all allPlaces).lexeme, by simp, rest, ?_⟩
        rw [List.append_assoc, List.singleton_append, ← point]
        exact further
      · exact ⟨.fraction all allPlaces, further⟩
    · exact ⟨.whole all, cut⟩
  · exact ⟨.whole all, cut⟩

theorem stands_stringFront (text : List Char) : (stringFront text).Stands '"' text := by
  have cut : text.takeWhile (· ≠ '"') ++ text.dropWhile (· ≠ '"') = text :=
    List.takeWhile_append_dropWhile
  unfold stringFront
  dsimp only
  split
  · exact .inr ⟨rfl, by decide⟩
  · next quote rest behind =>
    have stops := List.head?_dropWhile_not (· ≠ '"') text
    rw [behind] at cut stops
    obtain rfl : quote = '"' := by simpa using stops
    refine ⟨.string fun member => ?_, ?_⟩
    · exact absurd (List.all_eq_true.mp List.all_takeWhile _ member) (by decide)
    · rw [List.append_assoc, List.cons_append, List.singleton_append, cut]

/-- The front of a text is what stands there. -/
theorem stands_front (char : Char) (text : List Char) : (front char text).Stands char text := by
  unfold front
  split
  · next single => exact ⟨.single single, rfl⟩
  split
  · next operator =>
    unfold operatorFront
    split
    · exact ⟨.withEqual operator, rfl⟩
    · exact ⟨.alone operator, rfl⟩
  split
  · next ignorable =>
    refine ⟨?_, rfl⟩
    simpa [isIgnorable, separators, or_assoc, or_left_comm, or_comm] using ignorable
  next notIgnorable =>
  split
  · next isSlash =>
    subst isSlash
    unfold slashFront
    split
    · exact ⟨rfl, rfl⟩
    · exact ⟨.slash, rfl⟩
  split
  · next isQuote =>
    subst isQuote
    exact stands_stringFront text
  next notQuote =>
  split
  · next digit => exact stands_numberFront digit text
  split
  · next letter =>
    have part : char.isAlphanum = true := by rw [Char.isAlphanum, letter, Bool.true_or]
    rw [wordFront, List.takeWhile_cons_of_pos part, List.dropWhile_cons_of_pos part]
    refine ⟨.word letter (fun _ => List.all_eq_true.mp List.all_takeWhile _) rfl, ?_⟩
    rw [List.cons_append, List.takeWhile_append_dropWhile]
  · refine .inr ⟨(if_neg notQuote).symm, fun member => notIgnorable ?_⟩
    simpa [isIgnorable, separators, or_assoc, or_left_comm, or_comm] using member

theorem notMem_of_number {entries : List (Kind × String)}
    (none : ∀ entry ∈ entries, entry.1 ≠ .number) {lexeme : String} :
    (Kind.number, lexeme) ∉ entries :=
  fun member => none _ member rfl

/-- A number in front of a second point is given up. -/
theorem front_of_secondPoint {char : Char} {text : List Char}
    (second : Token.SecondPoint (char :: text)) : front char text = .error .secondPoint := by
  obtain ⟨lexeme, belongs, point, rest, cut⟩ := second
  rw [List.append_assoc, List.singleton_append] at cut
  have noPoint : ∀ {digits : List Char}, (∀ char ∈ digits, char.isDigit = true) → '.' ∉ digits :=
    fun all member => absurd (all _ member) (by decide)
  cases belongs with
  | spelled spelled =>
    cases spelled with
    | symbol member => exact absurd member (notMem_of_number (by decide))
    | keyword member => exact absurd member (notMem_of_number (by decide))
    | whole _ all => exact absurd point (noPoint all)
    | @fraction digits places nonempty all nonemptyPlaces allPlaces =>
      obtain ⟨first, others, rfl⟩ := List.exists_cons_of_ne_nil nonempty
      obtain ⟨place, more, rfl⟩ := List.exists_cons_of_ne_nil nonemptyPlaces
      have given := numberFront_fraction all allPlaces ('.' :: rest)
      rw [List.dropWhile_cons_of_neg (by decide), if_pos List.head?_cons, cut] at given
      obtain ⟨rfl, -⟩ := List.cons.inj cut
      rw [front_of_digit (all _ List.mem_cons_self), given]

theorem front_of_separator {char : Char} (member : char ∈ separators) (text : List Char) :
    front char text = .blank text := by
  simp only [separators, List.mem_cons, List.not_mem_nil, or_false] at member
  rcases member with rfl | rfl | rfl | rfl <;> rfl

/-- A token at the front is the longest lexeme there. -/
theorem longest_of_front {char : Char} {text lexeme rest : List Char} {kind : Kind}
    (found : front char text = .token kind lexeme rest) :
    Token.Longest kind lexeme (char :: text) := by
  have stands := stands_front char text
  rw [found] at stands
  refine ⟨stands.1.lexeme, ⟨rest, stands.2⟩, fun other further belongs begins => ?_⟩
  obtain ⟨behind, cut⟩ := begins
  have covers := covers_front belongs.shape cut
  rw [found] at covers
  exact covers.1

/-- The longest lexeme at the front of a text is the token there, if no comment begins there and
the text is not given up for a second point. -/
theorem front_of_longest {char : Char} {text lexeme rest : List Char} {kind : Kind}
    (longest : Token.Longest kind lexeme (char :: text)) (cut : lexeme ++ rest = char :: text)
    (noComment : ¬ ['/', '/'] <+: char :: text) (noSecond : ¬ Token.SecondPoint (char :: text)) :
    front char text = .token kind lexeme rest := by
  have covers := covers_front longest.belongs.shape cut
  have stands := stands_front char text
  cases found : front char text with
  | token other further behind =>
    rw [found] at covers stands
    have shorter := longest.longest _ _ stands.1.lexeme ⟨behind, stands.2⟩
    obtain ⟨rfl, rfl⟩ := List.append_inj (cut.trans stands.2.symm)
      (Nat.le_antisymm covers.1 shorter)
    rw [covers.2 (Nat.le_refl _)]
  | blank behind =>
    rw [found] at covers
    cases covers
  | comment =>
    rw [found] at stands
    obtain ⟨rfl, second⟩ := stands
    obtain ⟨behind, rfl⟩ := List.head?_eq_some_iff.mp second
    exact absurd ⟨behind, rfl⟩ noComment
  | error fault =>
    rw [found] at covers stands
    rcases stands with ⟨_, second⟩ | ⟨same, _⟩
    · exact absurd second noSecond
    · have isBare : fault = .secondPoint := covers
      rw [isBare, bareError] at same
      split at same <;> cases same

/-- Nothing is wrong with the front of a text except that it is bare, or that a number has a second
point. -/
theorem bare_of_front {char : Char} {text : List Char} {fault : LexicalError}
    (found : front char text = .error fault) :
    fault = .secondPoint ∧ Token.SecondPoint (char :: text) ∨
      fault = bareError char ∧ char ∉ separators ∧ Token.Bare (char :: text) := by
  have stands := stands_front char text
  rw [found] at stands
  refine stands.imp_right fun ⟨same, notSeparator⟩ => ⟨same, notSeparator, ?_⟩
  rintro kind lexeme belongs ⟨behind, cut⟩
  have covers := covers_front belongs.shape cut
  rw [found] at covers
  have isBare : fault = .secondPoint := covers
  rw [isBare, bareError] at same
  split at same <;> cases same

/-- A text that is bare is given up for that. -/
theorem front_of_bare {char : Char} {text : List Char} (notSeparator : char ∉ separators)
    (bare : Token.Bare (char :: text)) : front char text = .error (bareError char) := by
  have stands := stands_front char text
  cases found : front char text with
  | token kind lexeme rest =>
    rw [found] at stands
    exact absurd ⟨rest, stands.2⟩ (bare kind lexeme stands.1.lexeme)
  | blank rest =>
    rw [found] at stands
    exact absurd stands.1 notSeparator
  | comment =>
    rw [found] at stands
    obtain ⟨rfl, _⟩ := stands
    exact absurd ⟨text, rfl⟩ (bare _ _ Token.Shape.slash.lexeme)
  | error fault =>
    rw [found] at stands
    rcases stands with ⟨_, lexeme, belongs, _, begins⟩ | ⟨same, _⟩
    · exact absurd ((List.prefix_append lexeme ['.']).trans begins) (bare _ _ belongs)
    · rw [same]

end Lexer

end Lox
