/-
This file proves that expressions of integers compute modulo `2 ^ 64`. Every
operator brings its result back into range, which keeps the residue of the exact
result, and no two words have the same residue. So it makes no difference how
many results on the way wrap.
-/

import Mathlib.Data.Int.ModEq
import Lox.Proofs.Fuel
import Lox.Proofs.Values.Guards

namespace Lox

open Token (Kind)

/-! ### Words and residues -/

namespace Word

theorem wrap_modEq (value : Int) : wrap value ≡ value [ZMOD modulus] := Int.bmod_emod

/-- Integers with the same residue wrap to the same word. -/
theorem wrap_eq_wrap {first second : Int} (congruent : first ≡ second [ZMOD modulus]) :
    wrap first = wrap second := by
  rw [wrap, wrap, ← Int.emod_bmod first, ← Int.emod_bmod second, congruent]

/-- The word with a given residue. -/
theorem eq_wrap {word value : Int} (range : InRange word)
    (congruent : word ≡ value [ZMOD modulus]) : word = wrap value := by
  rw [← wrap_of_inRange range, wrap_eq_wrap congruent]

end Word

/-! ### Exact operations -/

/-- What an operator on two integers computes before its result is brought into range, for the
operators that have no other results. -/
def Operator.exactOperation? : Kind → Option (Int → Int → Int)
  | .plus => some (· + ·)
  | .minus => some (· - ·)
  | .star => some (· * ·)
  | _ => none

namespace Operator

variable {operator : Token} {compute : Int → Int → Int}

/-- Two integers under an operator other than equality. -/
theorem binary_ints (notEqual : operator.kind ≠ .equalEqual)
    (notUnequal : operator.kind ≠ .bangEqual) (left right : Int) :
    binary operator (.int left) (.int right) = onInts operator left right :=
  @binary_of_numbers _ (.int left) (.int right) (.ints left right) notEqual notUnequal rfl

theorem binary_of_exactOperation? (computes : exactOperation? operator.kind = some compute)
    (left right : Int) :
    binary operator (.int left) (.int right) = .ok (.int (Word.wrap (compute left right))) := by
  unfold exactOperation? at computes
  split at computes <;> cases computes
  all_goals
    next kind => rw [binary_ints (by rw [kind]; decide) (by rw [kind]; decide), onInts, kind]

/-- Sums, differences and products of congruent integers are congruent. -/
theorem exactOperation?_modEq {kind : Kind} (computes : exactOperation? kind = some compute)
    {left right first second : Int} (congruentLeft : left ≡ first [ZMOD Word.modulus])
    (congruentRight : right ≡ second [ZMOD Word.modulus]) :
    compute left right ≡ compute first second [ZMOD Word.modulus] := by
  unfold exactOperation? at computes
  split at computes <;> cases computes
  · exact congruentLeft.add congruentRight
  · exact congruentLeft.sub congruentRight
  · exact congruentLeft.mul congruentRight

end Operator

/-! ### Expressions -/

/-- The expression is built of words, names of words, parentheses, changes of sign, sums,
differences and products, and the integer is its value when nothing wraps. -/
inductive Expr.Denotes (store : Store) (scope : ScopeId) : Expr → Int → Prop
  | literal {value : Int} : Word.InRange value → Denotes store scope (.literal (.int value)) value
  | name {name : Token} {value : Int} :
    store.get? scope name.lexeme = some (.int value) → Word.InRange value →
    Denotes store scope (.variable name) value
  | grouping {inner : Expr} {value : Int} :
    Denotes store scope inner value → Denotes store scope (.grouping inner) value
  | negation {operator : Token} {operand : Expr} {value : Int} :
    operator.kind = .minus → Denotes store scope operand value →
    Denotes store scope (.unary operator operand) (-value)
  | operation {left right : Expr} {operator : Token} {first second : Int}
      {compute : Int → Int → Int} :
    Denotes store scope left first → Operator.exactOperation? operator.kind = some compute →
    Denotes store scope right second →
    Denotes store scope (.binary left operator right) (compute first second)

namespace Expr

variable {scope : ScopeId} {machine : Machine}

/-- The value of an expression of integers is a word with the residue of its exact value. -/
theorem Denotes.evaluates {expression : Expr} {exact : Int}
    (denotes : expression.Denotes machine.store scope exact) :
    ∃ word, expression.Evaluates scope machine (.int word) ∧ Word.InRange word ∧
      word ≡ exact [ZMOD Word.modulus] := by
  induction denotes with
  | @literal value range => exact ⟨value, evaluates_literal (.int value), range, rfl⟩
  | @name name value found range => exact ⟨value, evaluates_variable found, range, rfl⟩
  | grouping _ inductionHypothesis =>
    obtain ⟨word, evaluates, range, congruent⟩ := inductionHypothesis
    exact ⟨word, evaluates.grouping, range, congruent⟩
  | @negation operator operand value kind _ inductionHypothesis =>
    obtain ⟨word, evaluates, _, congruent⟩ := inductionHypothesis
    have computes : Operator.unary operator (.int word) = .ok (.int (Word.wrap (-word))) := by
      rw [Operator.unary, if_neg (by rw [kind]; decide)]
    exact ⟨Word.wrap (-word), evaluates.unary computes, Word.inRange_wrap _,
      (Word.wrap_modEq _).trans congruent.neg⟩
  | @operation left right operator first second compute _ computes _ holdsLeft holdsRight =>
    obtain ⟨leftWord, evaluatesLeft, _, congruentLeft⟩ := holdsLeft
    obtain ⟨rightWord, evaluatesRight, _, congruentRight⟩ := holdsRight
    refine ⟨Word.wrap (compute leftWord rightWord),
      evaluatesLeft.binary evaluatesRight (Operator.binary_of_exactOperation? computes _ _),
      Word.inRange_wrap _, ?_⟩
    exact (Word.wrap_modEq _).trans
      (Operator.exactOperation?_modEq computes congruentLeft congruentRight)

/-- Expressions of integers compute modulo `2 ^ 64`. However many of its results wrap, an
expression of words, parentheses, changes of sign, sums, differences and products fails nowhere,
changes nothing, and has the one word as its value that is congruent to its exact value. -/
theorem evaluates_modulo {expression : Expr} {exact : Int}
    (denotes : expression.Denotes machine.store scope exact) :
    ∃ word, expression.Evaluates scope machine (.int word) ∧
      (Word.InRange word ∧ word ≡ exact [ZMOD 2 ^ 64]) ∧
      ∀ other, Word.InRange other ∧ other ≡ exact [ZMOD 2 ^ 64] → other = word := by
  obtain ⟨word, evaluates, range, congruent⟩ := denotes.evaluates
  refine ⟨word, evaluates, ⟨range, congruent⟩, fun other ⟨otherRange, otherCongruent⟩ => ?_⟩
  rw [Word.eq_wrap otherRange otherCongruent, Word.eq_wrap range congruent]

/-- In `(-x) * 3 - 1`, where `x` is the smallest word, every result wraps. -/
theorem evaluates_modulo_wrapping :
    let start := Machine.start (.start "" fun _ => 0) 0
    let machine := { start with
      store := start.store.define globalScope "x" (.int Word.least) false }
    let negated : Expr := .grouping (.unary ⟨.minus, "-", 1⟩ (.variable ⟨.identifier, "x", 1⟩))
    let expression : Expr :=
      .binary (.binary negated ⟨.star, "*", 1⟩ (.literal (.int 3))) ⟨.minus, "-", 1⟩
        (.literal (.int 1))
    expression.Denotes machine.store globalScope (-Word.least * 3 - 1) ∧
      expression.Evaluates globalScope machine (.int Word.greatest) := by
  intro start machine negated expression
  have bound : machine.store.get? globalScope "x" = some (.int Word.least) := by
    with_unfolding_all rfl
  have denotes : expression.Denotes machine.store globalScope (-Word.least * 3 - 1) :=
    .operation
      (.operation (.grouping (.negation rfl (.name bound (by decide)))) rfl (.literal (by decide)))
      rfl (.literal (by decide))
  obtain ⟨word, evaluates, _, unique⟩ := evaluates_modulo denotes
  have greatest : Word.greatest = word := unique _ ⟨by decide, by decide⟩
  exact ⟨denotes, greatest ▸ evaluates⟩

end Expr

end Lox
