/-
This file says when a parser takes a value off its tokens with nothing to
report, one law for each part that productions are built from. A production
takes a value exactly when its parts take theirs one behind the other.
-/

import Lox.Syntax.Program

namespace Lox.Parser

open Token (Kind)

variable {α β : Type}

/-- The parser makes the value of the first tokens, leaves the rest, and reports nothing. -/
def Takes (parser : Parser α) (tokens : List Token) (value : α) (rest : List Token) : Prop :=
  parser tokens = .done value rest []

/-- A parser takes at most one value off its tokens. -/
theorem Takes.unique {parser : Parser α} {tokens rest rest' : List Token} {value value' : α}
    (takes : parser.Takes tokens value rest) (takes' : parser.Takes tokens value' rest') :
    value = value' ∧ rest = rest' := by
  rw [Takes] at takes takes'
  rw [takes] at takes'
  cases takes'
  exact ⟨rfl, rfl⟩

/-! ### Sequences -/

@[simp] theorem takes_pure {tokens rest : List Token} {value taken : α} :
    (pure value : Parser α).Takes tokens taken rest ↔ taken = value ∧ rest = tokens := by
  rw [Takes, pure_apply]
  constructor
  · intro equal
    cases equal
    exact ⟨rfl, rfl⟩
  · rintro ⟨rfl, rfl⟩
    rfl

/-- A sequence takes what its second parser takes behind its first. -/
theorem takes_bind {first : Parser α} {next : α → Parser β} {tokens rest : List Token}
    {value : β} :
    (first >>= next).Takes tokens value rest ↔
      ∃ middle between, first.Takes tokens middle between ∧
        (next middle).Takes between value rest := by
  constructor
  · intro takes
    rw [Takes] at takes
    cases parsed : first tokens with
    | done middle between earlier =>
      rw [bind_of_done parsed] at takes
      cases behind : next middle between with
      | done last left later =>
        rw [behind, Parse.after] at takes
        injection takes with lastEqual leftEqual none
        obtain ⟨rfl, rfl⟩ := List.append_eq_nil_iff.mp none
        subst lastEqual leftEqual
        exact ⟨middle, between, parsed, behind⟩
      | failed left later =>
        rw [behind] at takes
        cases takes
      | starved =>
        rw [behind] at takes
        cases takes
    | failed left earlier =>
      rw [bind_of_failed parsed] at takes
      cases takes
    | starved =>
      rw [bind_of_starved parsed] at takes
      cases takes
  · rintro ⟨middle, between, parsed, behind⟩
    rw [Takes] at parsed behind ⊢
    rw [bind_of_done parsed, behind]
    rfl

/-- One parser after the other. -/
theorem Takes.bind {first : Parser α} {next : α → Parser β} {tokens between rest : List Token}
    {middle : α} {value : β} (takes : first.Takes tokens middle between)
    (behind : (next middle).Takes between value rest) :
    (first >>= next).Takes tokens value rest :=
  takes_bind.mpr ⟨middle, between, takes, behind⟩

/-! ### Single tokens -/

@[simp] theorem takes_atEnd {tokens rest : List Token} {value : Bool} :
    atEnd.Takes tokens value rest ↔ value = tokens.isEmpty ∧ rest = tokens := by
  rw [Takes, atEnd]
  constructor
  · intro equal
    cases equal
    exact ⟨rfl, rfl⟩
  · rintro ⟨rfl, rfl⟩
    rfl

@[simp] theorem takes_nextIs {kind : Kind} {tokens rest : List Token} {value : Bool} :
    (nextIs kind).Takes tokens value rest ↔
      value = tokens.head?.any (fun token => token.kind = kind) ∧ rest = tokens := by
  rw [Takes, nextIs]
  constructor
  · intro equal
    cases equal
    exact ⟨rfl, rfl⟩
  · rintro ⟨rfl, rfl⟩
    rfl

/-- The tokens are at their end or go on with a token of none of the kinds. -/
def Avoids (kinds : List Kind) (tokens : List Token) : Prop :=
  ∀ token ∈ tokens.head?, token.kind ∉ kinds

@[simp] theorem avoids_nil (kinds : List Kind) : Avoids kinds [] := by
  simp [Avoids]

@[simp] theorem avoids_cons {kinds : List Kind} {token : Token} {tokens : List Token} :
    Avoids kinds (token :: tokens) ↔ token.kind ∉ kinds := by
  simp [Avoids]

/-- Fewer kinds are avoided as well. -/
theorem Avoids.mono {kinds fewer : List Kind} {tokens : List Token} (avoids : Avoids kinds tokens)
    (subset : fewer ⊆ kinds) : Avoids fewer tokens :=
  fun token member occurs => avoids token member (subset occurs)

@[simp] theorem takes_accept_some {kinds : List Kind} {tokens rest : List Token}
    {token : Token} :
    (accept kinds).Takes tokens (some token) rest ↔
      tokens = token :: rest ∧ token.kind ∈ kinds := by
  rw [Takes]
  cases tokens with
  | nil => simp [accept_nil]
  | cons first others =>
    by_cases member : first.kind ∈ kinds
    · rw [accept_of_mem others member]
      constructor
      · intro equal
        cases equal
        exact ⟨rfl, member⟩
      · rintro ⟨equal, _⟩
        cases equal
        rfl
    · rw [accept_of_notMem others member]
      constructor
      · intro equal
        cases equal
      · rintro ⟨equal, present⟩
        cases equal
        exact absurd present member

@[simp] theorem takes_accept_none {kinds : List Kind} {tokens rest : List Token} :
    (accept kinds).Takes tokens none rest ↔ rest = tokens ∧ Avoids kinds tokens := by
  rw [Takes]
  cases tokens with
  | nil =>
    rw [accept_nil]
    constructor
    · intro equal
      cases equal
      exact ⟨rfl, avoids_nil kinds⟩
    · rintro ⟨rfl, _⟩
      rfl
  | cons first others =>
    by_cases member : first.kind ∈ kinds
    · simp [accept_of_mem others member, member]
    · rw [accept_of_notMem others member]
      constructor
      · intro equal
        cases equal
        exact ⟨rfl, avoids_cons.mpr member⟩
      · rintro ⟨rfl, _⟩
        rfl

@[simp] theorem not_takes_fail {error : SyntaxError} {tokens rest : List Token} {value : α} :
    ¬ (fail error : Parser α).Takes tokens value rest := by
  intro takes
  cases takes

@[simp] theorem not_takes_failAt {token : Token} {error : SyntaxError} {tokens rest : List Token}
    {value : α} : ¬ (failAt token error : Parser α).Takes tokens value rest := by
  intro takes
  cases takes

@[simp] theorem not_takes_warn {error : SyntaxError} {tokens rest : List Token} :
    ¬ (warn error).Takes tokens () rest := by
  intro takes
  cases takes

@[simp] theorem not_takes_starve {tokens rest : List Token} {value : α} :
    ¬ (starve : Parser α).Takes tokens value rest := by
  intro takes
  cases takes

@[simp] theorem takes_expect {kind : Kind} {error : SyntaxError} {tokens rest : List Token}
    {token : Token} :
    (expect kind error).Takes tokens token rest ↔ tokens = token :: rest ∧ token.kind = kind := by
  rw [expect, takes_bind]
  constructor
  · rintro ⟨accepted, between, takes, behind⟩
    cases accepted with
    | none => exact absurd behind not_takes_fail
    | some first =>
      obtain ⟨rfl, member⟩ := takes_accept_some.mp takes
      obtain ⟨rfl, rfl⟩ := takes_pure.mp behind
      exact ⟨rfl, List.mem_singleton.mp member⟩
  · rintro ⟨rfl, same⟩
    exact ⟨some token, rest, takes_accept_some.mpr ⟨rfl, List.mem_singleton.mpr same⟩,
      takes_pure.mpr ⟨rfl, rfl⟩⟩

/-- A sequence behind an optional token that is there. -/
theorem takes_accept_bind_of_mem {kinds : List Kind} {next : Option Token → Parser β}
    {token : Token} {tokens rest : List Token} {value : β} (member : token.kind ∈ kinds)
    (behind : (next (some token)).Takes tokens value rest) :
    (accept kinds >>= next).Takes (token :: tokens) value rest :=
  Takes.bind (takes_accept_some.mpr ⟨rfl, member⟩) behind

/-- A sequence behind an optional token that is not there. -/
theorem takes_accept_bind_of_avoids {kinds : List Kind} {next : Option Token → Parser β}
    {tokens rest : List Token} {value : β} (avoids : Avoids kinds tokens)
    (behind : (next none).Takes tokens value rest) :
    (accept kinds >>= next).Takes tokens value rest :=
  Takes.bind (takes_accept_none.mpr ⟨rfl, avoids⟩) behind

/-- A sequence behind an expected token. -/
theorem takes_expect_bind_iff {kind : Kind} {error : SyntaxError} {next : Token → Parser β}
    {tokens rest : List Token} {value : β} :
    (expect kind error >>= next).Takes tokens value rest ↔
      ∃ token behind, tokens = token :: behind ∧ token.kind = kind ∧
        (next token).Takes behind value rest := by
  rw [takes_bind]
  constructor
  · rintro ⟨token, behind, expects, takes⟩
    obtain ⟨rfl, same⟩ := takes_expect.mp expects
    exact ⟨token, behind, rfl, same, takes⟩
  · rintro ⟨token, behind, rfl, same, takes⟩
    exact ⟨token, behind, takes_expect.mpr ⟨rfl, same⟩, takes⟩

theorem takes_expect_bind {kind : Kind} {error : SyntaxError} {next : Token → Parser β}
    {token : Token} {tokens rest : List Token} {value : β} (same : token.kind = kind)
    (behind : (next token).Takes tokens value rest) :
    (expect kind error >>= next).Takes (token :: tokens) value rest :=
  takes_expect_bind_iff.mpr ⟨token, tokens, rfl, same, behind⟩

end Lox.Parser
