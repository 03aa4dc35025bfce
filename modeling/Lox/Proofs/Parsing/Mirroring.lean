/-
This file relates the two accounts of parsing. A part of a parse by index
mirrors a parser of the remaining tokens if it comes to the position where those
are left, with the same value and the same reports, and everything it does on its
way stays inside the list.
-/

import Lox.Proofs.Parsing.Cursor
import Lox.Proofs.Parsing.Progress
import Lox.Proofs.Parsing.Taking
import Lox.Proofs.Token.Numerals

namespace Lox

open Token (Kind)

variable {α β : Type}

/-- The end of the stream is the only token of its kind, and the numbers are ones that the scanner
makes. -/
structure TokenStream.Parseable (stream : TokenStream) : Prop where
  ends : stream.eof.kind = .eof
  inside : ∀ token ∈ stream.tokens, token.kind ≠ .eof
  numbers : ∀ token ∈ stream.tokens, token.kind = .number → Token.Scanned token.lexeme

/-- The token at a position. -/
def TokenStream.token (stream : TokenStream) (position : Nat) : Token :=
  stream.tokens[position]?.getD stream.eof

theorem Parse.after_nil (parse : Parse α) : parse.after [] = parse := by
  cases parse <;> rfl

theorem Parser.pure_bind (value : α) (next : α → Parser β) : pure value >>= next = next value := by
  funext tokens
  rw [bind_of_done (pure_apply value tokens), Parse.after_nil]

namespace Cursor

variable {stream : TokenStream}

/-! ### What is done on the way -/

/-- The event stays inside the list, and a declaration goes forward. -/
def Event.Proper (stream : TokenStream) : Event → Prop
  | .read index => 0 ≤ index ∧ index ≤ stream.tokens.length
  | .moved position => position ≤ stream.tokens.length
  | .declared start stop => start < stop ∧ stop ≤ stream.tokens.length

/-- The second state comes from the first by proper events, with the given reports. -/
structure Reaches (stream : TokenStream) (reports : List Report) (state reached : State) :
    Prop where
  onward : state.position ≤ reached.position
  inside : reached.position ≤ stream.tokens.length
  hadError : reached.hadError = (state.hadError || !reports.isEmpty)
  printed : reached.printed = state.printed ++ reports.map (Report.diagnostic stream.eof.line)
  logged : ∃ events, reached.log = state.log ++ events ∧ ∀ event ∈ events, event.Proper stream

theorem Reaches.refl {state : State} (inside : state.position ≤ stream.tokens.length) :
    Reaches stream [] state state where
  onward := Nat.le_refl _
  inside := inside
  hadError := (Bool.or_false _).symm
  printed := (List.append_nil _).symm
  logged := ⟨[], (List.append_nil _).symm, fun _ member => absurd member List.not_mem_nil⟩

theorem Reaches.trans {state between reached : State} {earlier later : List Report}
    (first : Reaches stream earlier state between) (second : Reaches stream later between reached) :
    Reaches stream (earlier ++ later) state reached where
  onward := Nat.le_trans first.onward second.onward
  inside := second.inside
  hadError := by
    rw [second.hadError, first.hadError, Bool.or_assoc]
    cases earlier <;> simp
  printed := by rw [second.printed, first.printed, List.map_append, List.append_assoc]
  logged := by
    obtain ⟨eventsBefore, before, properBefore⟩ := first.logged
    obtain ⟨eventsBehind, behind, properBehind⟩ := second.logged
    refine ⟨eventsBefore ++ eventsBehind, ?_, List.forall_mem_append.mpr
      ⟨properBefore, properBehind⟩⟩
    rw [behind, before, List.append_assoc]

/-- The outcomes of both accounts from the same place are the same. -/
inductive Agrees (stream : TokenStream) (state : State) :
    Parse α → Result α × State → Prop
  | done {value : α} {reports : List Report} {reached : State} :
    Reaches stream reports state reached →
    Agrees stream state (.done value (stream.tokens.drop reached.position) reports)
      (.done value, reached)
  | failed {reports : List Report} {reached : State} :
    Reaches stream reports state reached →
    Agrees stream state (.failed (stream.tokens.drop reached.position) reports)
      (.raised, reached)
  | starved {reached : State} : Agrees stream state .starved (.starved, reached)

theorem Agrees.after {state between : State} {parse : Parse α} {result : Result α × State}
    {earlier : List Report} (agrees : Agrees stream between parse result)
    (reaches : Reaches stream earlier state between) :
    Agrees stream state (parse.after earlier) result := by
  cases agrees with
  | done further => exact .done (reaches.trans further)
  | failed further => exact .failed (reaches.trans further)
  | starved => exact .starved

theorem Agrees.of_done {state : State} {parse : Parse α} {result : Result α × State} {value : α}
    {rest : List Token} {reports : List Report} (agrees : Agrees stream state parse result)
    (parsed : parse = .done value rest reports) :
    ∃ reached, result = (.done value, reached) ∧ rest = stream.tokens.drop reached.position ∧
      Reaches stream reports state reached := by
  cases agrees with
  | done reaches =>
    cases parsed
    exact ⟨_, rfl, rfl, reaches⟩
  | failed _ | starved => cases parsed

/-- From all positions of the given kind the second account parses as the first does. -/
def Mirrors (stream : TokenStream) (when : Nat → Prop) (parser : Parser α) (cursor : Cursor α) :
    Prop :=
  ∀ state : State, state.position ≤ stream.tokens.length → when state.position →
    Agrees stream state (parser (stream.tokens.drop state.position))
      (cursor stream.toList state)

/-- All positions. -/
def Anywhere : Nat → Prop := fun _ => True

/-- The positions in front of a token. -/
def InFront (stream : TokenStream) : Nat → Prop := fun position => position < stream.tokens.length

/-- The positions behind the given token, which has been stepped over. -/
def Behind (stream : TokenStream) (token : Token) : Nat → Prop := fun position =>
  ∃ index, position = index + 1 ∧ stream.tokens[index]? = some token

/-- The cursor has not been moved. -/
structure Stays (stream : TokenStream) (state reached : State) : Prop where
  position : reached.position = state.position
  reaches : Reaches stream [] state reached

/-- The cursor has been moved over the token. -/
structure Steps (stream : TokenStream) (token : Token) (state reached : State) : Prop where
  found : stream.tokens[state.position]? = some token
  onward : reached.position = state.position + 1
  reaches : Reaches stream [] state reached

theorem Steps.behind {token : Token} {state reached : State}
    (steps : Steps stream token state reached) : Behind stream token reached.position :=
  ⟨state.position, steps.onward, steps.found⟩

theorem Steps.drop_eq {token : Token} {state reached : State}
    (steps : Steps stream token state reached) :
    stream.tokens.drop state.position = token :: stream.tokens.drop reached.position := by
  obtain ⟨before, rfl⟩ := List.getElem?_eq_some_iff.mp steps.found
  rw [steps.onward, List.drop_eq_getElem_cons before]

theorem Stays.steps {token : Token} {state looked reached : State}
    (stays : Stays stream state looked) (steps : Steps stream token looked reached) :
    Steps stream token state reached where
  found := stays.position ▸ steps.found
  onward := stays.position ▸ steps.onward
  reaches := stays.reaches.trans steps.reaches

/-- The cursor looks at what is around the position and stays where it is. -/
def Looks (stream : TokenStream) (when : Nat → Prop) (cursor : Cursor α) (answer : Nat → α) :
    Prop :=
  ∀ state : State, state.position ≤ stream.tokens.length → when state.position →
    ∃ reached, cursor stream.toList state = (.done (answer state.position), reached) ∧
      Stays stream state reached

section

variable {when : Nat → Prop}

theorem Mirrors.mono {fewer : Nat → Prop} {parser : Parser α} {cursor : Cursor α}
    (mirrors : Mirrors stream when parser cursor)
    (implies : ∀ position, fewer position → when position) :
    Mirrors stream fewer parser cursor :=
  fun state inside fits => mirrors state inside (implies _ fits)

theorem Mirrors.restrict {parser : Parser α} {cursor : Cursor α}
    (mirrors : Mirrors stream Anywhere parser cursor) : Mirrors stream when parser cursor :=
  mirrors.mono fun _ _ => trivial

/-- What agrees behind a look agrees in front of it. -/
theorem Mirrors.after_stays {parser : Parser α} {cursor : Cursor α} {state looked : State}
    (mirrors : Mirrors stream when parser cursor) (fits : when state.position)
    (stays : Stays stream state looked) :
    Agrees stream state (parser (stream.tokens.drop state.position))
      (cursor stream.toList looked) := by
  have agrees := mirrors looked stays.reaches.inside (stays.position.symm ▸ fits)
  rw [stays.position] at agrees
  rw [← Parse.after_nil (parser _)]
  exact agrees.after stays.reaches

/-! ### Sequences -/

theorem bind_of_done {first : Cursor α} {next : α → Cursor β} {tokens : List Token}
    {state reached : State} {value : α} (ends : first tokens state = (.done value, reached)) :
    (first >>= next) tokens state = next value tokens reached := by
  show Cursor.bind first next tokens state = _
  rw [Cursor.bind, ends]

theorem mirrors_pure (value : α) : Mirrors stream when (pure value) (pure value) :=
  fun _ inside _ => .done (.refl inside)

theorem mirrors_starve : Mirrors stream when (Parser.starve : Parser α) starve :=
  fun _ _ _ => .starved

theorem Mirrors.bind {first : Parser α} {firstCursor : Cursor α} {next : α → Parser β}
    {nextCursor : α → Cursor β} (mirrors : Mirrors stream when first firstCursor)
    (behind : ∀ value, Mirrors stream Anywhere (next value) (nextCursor value)) :
    Mirrors stream when (first >>= next) (firstCursor >>= nextCursor) := by
  intro state inside fits
  have agrees := mirrors state inside fits
  show Agrees stream state (Parser.bind first next _) (Cursor.bind firstCursor nextCursor _ _)
  rw [Parser.bind, Cursor.bind]
  generalize first (stream.tokens.drop state.position) = parse at agrees
  generalize firstCursor stream.toList state = result at agrees
  cases agrees with
  | done reaches => exact (behind _ _ reaches.inside trivial).after reaches
  | failed reaches => exact .failed reaches
  | starved => exact .starved

theorem Mirrors.ite {condition : Prop} [Decidable condition] {positive negative : Parser α}
    {positiveCursor negativeCursor : Cursor α}
    (holds : Mirrors stream when positive positiveCursor)
    (fails : Mirrors stream when negative negativeCursor) :
    Mirrors stream when (if condition then positive else negative)
      (if condition then positiveCursor else negativeCursor) := by
  split
  · exact holds
  · exact fails

theorem Looks.bind {first : Cursor α} {answer : Nat → α} {parser : Parser β}
    {next : α → Cursor β} (looks : Looks stream when first answer)
    (behind : ∀ value, Mirrors stream (fun position => when position ∧ answer position = value)
      parser (next value)) :
    Mirrors stream when parser (first >>= next) := by
  intro state inside fits
  obtain ⟨reached, ends, stays⟩ := looks state inside fits
  rw [bind_of_done ends]
  exact (behind _).after_stays ⟨fits, rfl⟩ stays

theorem Looks.map {first : Cursor α} {answer : Nat → α} (looks : Looks stream when first answer)
    (view : α → β) :
    Looks stream when (first >>= fun value => pure (view value))
      fun position => view (answer position) := by
  intro state inside fits
  obtain ⟨reached, ends, stays⟩ := looks state inside fits
  exact ⟨reached, bind_of_done ends, stays⟩

end

/-! ### Tokens of the list -/

theorem token_of_getElem? {position : Nat} {token : Token}
    (found : stream.tokens[position]? = some token) : stream.token position = token := by
  rw [TokenStream.token, found, Option.getD_some]

/-- A position is at the end or in front of a token. -/
theorem drop_cases {position : Nat} (inside : position ≤ stream.tokens.length) :
    (stream.tokens.drop position = [] ∧ stream.token position = stream.eof) ∨
      ∃ token, stream.tokens[position]? = some token ∧
        stream.tokens.drop position = token :: stream.tokens.drop (position + 1) ∧
        stream.token position = token := by
  rcases Nat.lt_or_eq_of_le inside with before | last
  · have found := List.getElem?_eq_getElem before
    exact .inr ⟨_, found, List.drop_eq_getElem_cons before, token_of_getElem? found⟩
  · have none := Nat.le_of_eq last.symm
    refine .inl ⟨List.drop_of_length_le none, ?_⟩
    rw [TokenStream.token, List.getElem?_eq_none none, Option.getD_none]

theorem getElem?_toList {position : Nat} (inside : position ≤ stream.tokens.length) :
    stream.toList[position]? = some (stream.token position) := by
  rcases Nat.lt_or_eq_of_le inside with before | last
  · rw [TokenStream.toList, List.getElem?_append_left before, List.getElem?_eq_getElem before,
      TokenStream.token, List.getElem?_eq_getElem before, Option.getD_some]
  · subst last
    rw [TokenStream.toList, List.getElem?_append_right (Nat.le_refl _), Nat.sub_self,
      TokenStream.token, List.getElem?_eq_none (Nat.le_refl _)]
    rfl

theorem stays_noting {state : State} (inside : state.position ≤ stream.tokens.length)
    {event : Event} (proper : event.Proper stream) : Stays stream state (state.noting event) where
  position := rfl
  reaches :=
    { onward := Nat.le_refl _
      inside := inside
      hadError := (Bool.or_false _).symm
      printed := (List.append_nil _).symm
      logged := ⟨[event], rfl, List.forall_mem_singleton.mpr proper⟩ }

theorem looks_peek : Looks stream Anywhere peek stream.token := by
  intro state inside _
  have proper : (Event.read state.position).Proper stream :=
    ⟨Int.natCast_nonneg _, Int.ofNat_le.mpr inside⟩
  refine ⟨state.noting (.read state.position), ?_, stays_noting inside proper⟩
  show read (.ofNat state.position) stream.toList state = _
  simp only [read, getElem?_toList inside]
  rfl

theorem looks_previous {token : Token} :
    Looks stream (Behind stream token) previous fun _ => token := by
  rintro state inside ⟨index, behind, found⟩
  have before : index ≤ stream.tokens.length := by omega
  have proper : (Event.read (.ofNat index)).Proper stream :=
    ⟨Int.natCast_nonneg _, Int.ofNat_le.mpr before⟩
  refine ⟨state.noting (.read (.ofNat index)), ?_, stays_noting inside proper⟩
  have index_eq : (state.position : Int) - 1 = .ofNat index := by
    rw [behind]
    exact Int.add_sub_cancel (index : Int) 1
  show read (state.position - 1) stream.toList state = _
  simp only [index_eq, read, getElem?_toList before, token_of_getElem? found]

theorem looks_atEnd :
    Looks stream Anywhere atEnd fun position => (stream.token position).kind = .eof :=
  looks_peek.map _

theorem looks_check (kind : Kind) :
    Looks stream Anywhere (check kind) fun position => (stream.token position).kind = kind :=
  looks_peek.map _

/-- Behind a token the cursor looks back at it. -/
theorem mirrors_previous_bind {token : Token} {parser : Parser β} {next : Token → Cursor β}
    (mirrors : Mirrors stream Anywhere parser (next token)) :
    Mirrors stream (Behind stream token) parser (previous >>= next) := by
  refine looks_previous.bind fun value => ?_
  rintro state inside ⟨_, rfl⟩
  exact mirrors state inside trivial

/-- A printed error is one more report. -/
theorem exists_report {state : State} (inside : state.position ≤ stream.tokens.length)
    {token : Token} {error : SyntaxError} {found : Option Token}
    (same : diagnostic token error = Report.diagnostic stream.eof.line ⟨found, error⟩) :
    ∃ reached, report token error stream.toList state = (.done (), reached) ∧
      reached.position = state.position ∧ Reaches stream [⟨found, error⟩] state reached := by
  refine ⟨_, rfl, rfl, Nat.le_refl _, inside, (Bool.or_true _).symm, ?_, [],
    (List.append_nil _).symm, fun _ member => absurd member List.not_mem_nil⟩
  rw [same]
  rfl

/-! ### Steps over tokens -/

/-- The next token avoids one more kind if it is of another. -/
theorem avoids_of_ne {kind : Kind} {kinds : List Kind} {position : Nat}
    (inside : position ≤ stream.tokens.length) (other : (stream.token position).kind ≠ kind)
    (avoids : Parser.Avoids kinds (stream.tokens.drop position)) :
    Parser.Avoids (kind :: kinds) (stream.tokens.drop position) := by
  rcases drop_cases inside with ⟨none, _⟩ | ⟨token, _, rest, here⟩
  · rw [none]
    exact Parser.avoids_nil _
  · rw [here] at other
    rw [rest, Parser.avoids_cons] at avoids ⊢
    exact List.not_mem_cons_of_ne_of_not_mem other avoids

section

variable {when : Nat → Prop} (parseable : stream.Parseable)

include parseable

/-- Only the end of the source is of its kind. -/
theorem kind_ne_eof {position : Nat} {token : Token}
    (found : stream.tokens[position]? = some token) : token.kind ≠ .eof :=
  parseable.inside token (List.mem_of_getElem? found)

/-- In front of a token the cursor steps over it. -/
theorem exists_advance {state : State} {token : Token}
    (found : stream.tokens[state.position]? = some token) :
    ∃ reached, advance stream.toList state = (.done token, reached) ∧
      Steps stream token state reached := by
  have before : state.position < stream.tokens.length := (List.getElem?_eq_some_iff.mp found).1
  obtain ⟨looked, looks, stays⟩ := looks_atEnd state (Nat.le_of_lt before) trivial
  dsimp only at looks
  rw [token_of_getElem? found, decide_eq_false (kind_ne_eof parseable found)] at looks
  have further : looked.position + 1 ≤ stream.tokens.length := stays.position ▸ before
  let moved : State := { looked.noting (.moved (looked.position + 1)) with
    position := looked.position + 1 }
  have noted : Stays stream looked (looked.noting (.moved (looked.position + 1))) :=
    stays_noting stays.reaches.inside further
  have moves : Reaches stream [] looked moved :=
    { noted.reaches with
      onward := Nat.le_succ _
      inside := further }
  obtain ⟨reached, ends, back⟩ := looks_previous moved moves.inside
    ⟨looked.position, rfl, stays.position.symm ▸ found⟩
  refine ⟨reached, ?_, stays.steps ⟨stays.position.symm ▸ found, back.position,
    moves.trans back.reaches⟩⟩
  rw [advance, bind_of_done looks]
  exact ends

/-- The cursor steps over a token of one of the kinds, or stays where there is none. -/
theorem accepts_cases {kinds : List Kind} (noEnd : .eof ∉ kinds) {state : State}
    (inside : state.position ≤ stream.tokens.length) :
    (∃ token reached, token.kind ∈ kinds ∧
      accepts kinds stream.toList state = (.done true, reached) ∧
      Steps stream token state reached) ∨
    (Parser.Avoids kinds (stream.tokens.drop state.position) ∧ ∃ reached,
      accepts kinds stream.toList state = (.done false, reached) ∧
      Stays stream state reached) := by
  induction kinds generalizing state with
  | nil =>
    exact .inr ⟨fun _ _ => List.not_mem_nil, state, rfl, rfl, .refl inside⟩
  | cons kind kinds inductionHypothesis =>
    have isToken := List.ne_of_not_mem_cons noEnd
    have others := List.not_mem_of_not_mem_cons noEnd
    obtain ⟨looked, looks, stays⟩ := looks_check kind state inside trivial
    dsimp only at looks
    rw [accepts, bind_of_done looks]
    by_cases matched : (stream.token state.position).kind = kind
    · rcases drop_cases inside with ⟨_, last⟩ | ⟨token, found, _, here⟩
      · rw [last, parseable.ends] at matched
        exact absurd matched isToken
      · rw [here] at matched
        have foundBehind : stream.tokens[looked.position]? = some token :=
          stays.position.symm ▸ found
        obtain ⟨reached, ends, steps⟩ := exists_advance parseable foundBehind
        refine .inl ⟨token, reached, matched ▸ List.mem_cons_self, ?_, stays.steps steps⟩
        rw [here, decide_eq_true matched, if_pos rfl, bind_of_done ends]
        rfl
    · rw [decide_eq_false matched, if_neg Bool.false_ne_true]
      rcases inductionHypothesis others stays.reaches.inside with
        ⟨token, reached, member, ends, steps⟩ | ⟨avoids, reached, ends, further⟩
      · exact .inl ⟨token, reached, List.mem_cons_of_mem _ member, ends, stays.steps steps⟩
      · refine .inr ⟨avoids_of_ne inside matched (stays.position ▸ avoids), reached, ends,
          further.position.trans stays.position, stays.reaches.trans further.reaches⟩

/-- A choice by the next token. -/
theorem mirrors_accept_bind {kinds : List Kind} (noEnd : .eof ∉ kinds)
    {next : Option Token → Parser β} {present absent : Cursor β}
    (taken : ∀ token, token.kind ∈ kinds →
      Mirrors stream (Behind stream token) (next (some token)) present)
    (missing : Mirrors stream Anywhere (next none) absent) :
    Mirrors stream when (Parser.accept kinds >>= next)
      (accepts kinds >>= fun accepted => if accepted = true then present else absent) := by
  intro state inside _
  rcases accepts_cases parseable noEnd inside with
    ⟨token, reached, member, ends, steps⟩ | ⟨avoids, reached, ends, stays⟩
  · rw [bind_of_done ends, if_pos rfl, steps.drop_eq,
      Parser.bind_of_done (Parser.accept_of_mem _ member)]
    exact (taken token member reached steps.reaches.inside steps.behind).after steps.reaches
  · rw [bind_of_done ends, if_neg Bool.false_ne_true,
      Parser.bind_of_done (Parser.takes_accept_none.mpr ⟨rfl, avoids⟩), Parse.after_nil]
    exact missing.after_stays trivial stays

/-- A choice by the next token among several kinds, the first of which is tried first. -/
theorem mirrors_accept_cons_bind {kind : Kind} {kinds : List Kind} (isToken : .eof ≠ kind)
    {next : Option Token → Parser β} {present absent : Cursor β}
    (taken : ∀ token, token.kind = kind →
      Mirrors stream (Behind stream token) (next (some token)) present)
    (further : Mirrors stream Anywhere (Parser.accept kinds >>= next) absent) :
    Mirrors stream when (Parser.accept (kind :: kinds) >>= next)
      (accepts [kind] >>= fun accepted => if accepted = true then present else absent) := by
  intro state inside _
  have noEnd : Kind.eof ∉ [kind] := fun member => isToken (List.mem_singleton.mp member)
  rcases accepts_cases parseable noEnd inside with
    ⟨token, reached, member, ends, steps⟩ | ⟨avoids, reached, ends, stays⟩
  · have same := List.mem_singleton.mp member
    rw [bind_of_done ends, if_pos rfl, steps.drop_eq,
      Parser.bind_of_done (Parser.accept_of_mem _ (same ▸ List.mem_cons_self))]
    exact (taken token same reached steps.reaches.inside steps.behind).after steps.reaches
  · have skips : Parser.accept (kind :: kinds) (stream.tokens.drop state.position) =
        Parser.accept kinds (stream.tokens.drop state.position) := by
      cases rest : stream.tokens.drop state.position with
      | nil => rfl
      | cons token others =>
        rw [rest, Parser.avoids_cons, List.mem_singleton] at avoids
        simp only [Parser.accept, List.mem_cons, avoids, false_or]
    have agrees := further.after_stays trivial stays
    change Agrees stream state (Parser.bind _ next _) _ at agrees
    show Agrees stream state (Parser.bind _ next _) _
    rw [bind_of_done ends, if_neg Bool.false_ne_true, Parser.bind, skips]
    exact agrees

omit parseable in
theorem mirrors_accept_nil_bind {next : Option Token → Parser β} {cursor : Cursor β}
    (missing : Mirrors stream Anywhere (next none) cursor) :
    Mirrors stream Anywhere (Parser.accept [] >>= next) cursor := by
  have nothing : Parser.accept [] = pure none := by
    funext tokens
    cases tokens <;> rfl
  rwa [nothing, Parser.pure_bind]

/-! ### Errors -/

/-- What is printed about an error at the position is the diagnostic of its report. -/
theorem diagnostic_token {position : Nat} (inside : position ≤ stream.tokens.length)
    (error : SyntaxError) :
    diagnostic (stream.token position) error =
      Report.diagnostic stream.eof.line ⟨(stream.tokens.drop position).head?, error⟩ := by
  rcases drop_cases inside with ⟨none, last⟩ | ⟨token, found, rest, here⟩
  · rw [none, last, diagnostic, if_pos parseable.ends]
    rfl
  · rw [rest, here, diagnostic, if_neg (kind_ne_eof parseable found)]
    rfl

theorem mirrors_warn (error : SyntaxError) :
    Mirrors stream when (Parser.warn error) (peek >>= fun token => report token error) := by
  refine (looks_peek.bind fun token => ?_).restrict
  rintro state inside ⟨_, rfl⟩
  obtain ⟨reached, ends, same, reaches⟩ :=
    exists_report inside (diagnostic_token parseable inside error)
  have agrees : Agrees stream state (.done () _ _) _ := .done reaches
  rw [same] at agrees
  rw [ends]
  exact agrees

theorem mirrors_fail (error : SyntaxError) :
    Mirrors stream when (Parser.fail error : Parser α) (fail error) := by
  refine (looks_peek.bind fun token => ?_).restrict
  rintro state inside ⟨_, rfl⟩
  obtain ⟨reached, ends, same, reaches⟩ :=
    exists_report inside (diagnostic_token parseable inside error)
  have agrees := Agrees.failed (α := α) reaches
  rw [same] at agrees
  rw [bind_of_done ends]
  exact agrees

omit parseable in
theorem mirrors_failAt {token : Token} (isToken : token.kind ≠ .eof) (error : SyntaxError) :
    Mirrors stream when (Parser.failAt token error : Parser α)
      (report token error >>= fun _ => raise) := by
  intro state inside _
  have located : diagnostic token error = Report.diagnostic stream.eof.line ⟨some token, error⟩ :=
    if_neg isToken
  obtain ⟨reached, ends, same, reaches⟩ := exists_report inside located
  rw [bind_of_done ends, Parser.failAt, ← same]
  exact .failed reaches

theorem mirrors_consume {kind : Kind} (isToken : .eof ≠ kind) (error : SyntaxError) :
    Mirrors stream when (Parser.expect kind error) (consume kind error) := by
  -- a token of another kind, or none
  have fails : ∀ state : State, state.position ≤ stream.tokens.length →
      (stream.token state.position).kind ≠ kind →
      Agrees stream state (Parser.expect kind error (stream.tokens.drop state.position))
        (fail error stream.toList state) := by
    intro state inside other
    have avoids := avoids_of_ne inside other fun _ _ => List.not_mem_nil
    rw [Parser.expect, Parser.bind_of_done (Parser.takes_accept_none.mpr ⟨rfl, avoids⟩),
      Parse.after_nil]
    exact (mirrors_fail parseable error : Mirrors stream Anywhere _ _) state inside trivial
  refine (looks_atEnd.bind fun ended => ?_).restrict
  cases ended with
  | true =>
    rintro state inside ⟨_, last⟩
    exact fails state inside (of_decide_eq_true last ▸ isToken)
  | false =>
    refine ((looks_check kind).bind fun same => ?_).restrict
    cases same with
    | true =>
      rintro state inside ⟨_, same⟩
      have kindHere := of_decide_eq_true same
      rcases drop_cases inside with ⟨_, last⟩ | ⟨token, found, _, here⟩
      · rw [last, parseable.ends] at kindHere
        exact absurd kindHere isToken
      · obtain ⟨reached, ends, steps⟩ := exists_advance parseable found
        rw [here] at kindHere
        rw [if_pos rfl, ends, Parser.expect, steps.drop_eq,
          Parser.bind_of_done (Parser.accept_of_mem _ (List.mem_singleton.mpr kindHere))]
        exact (Agrees.done (.refl steps.reaches.inside)).after steps.reaches
    | false =>
      rintro state inside ⟨_, other⟩
      exact fails state inside (of_decide_eq_false other)

end

end Cursor

end Lox
