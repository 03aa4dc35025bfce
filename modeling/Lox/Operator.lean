/-
This file applies operators to values.

Arithmetic and comparison follow one promotion rule: two integers are computed
as words, and a pair of numbers with a double in it as doubles. A quotient of
integers is an integer only when it is exact.
-/

import Lox.Fault
import Lox.Value

namespace Lox

/-- Two numbers brought to one type. -/
inductive NumberPair where
  | ints (left right : Int)
  | floats (left right : Binary64)

namespace NumberPair

/-- Two integers as they are, other pairs of numbers as doubles. -/
def of? : Value → Value → Option NumberPair
  | .int left, .int right => some (.ints left right)
  | left, right =>
    match left.toFloat?, right.toFloat? with
    | some left, some right => some (.floats left right)
    | _, _ => none

end NumberPair

namespace Operator

/-- Unary operators: logical negation, and for every other kind the change of sign. -/
def unary (operator : Token) (operand : Value) : Except Fault Value :=
  if operator.kind = .bang then
    .ok (.boolean !operand.truthy)
  else
    match operand with
    | .int value => .ok (.int (Word.wrap (-value)))
    | .float value => .ok (.float value.negate)
    | _ => .error .operandNotNumber

/-- Binary operators on integers. The remainder has the sign of the dividend. -/
def onInts (operator : Token) (left right : Int) : Except Fault Value :=
  match operator.kind with
  | .plus => .ok (.int (Word.wrap (left + right)))
  | .minus => .ok (.int (Word.wrap (left - right)))
  | .star => .ok (.int (Word.wrap (left * right)))
  | .slash =>
    if right ≠ 0 ∧ left % right = 0 then .ok (.int (Word.wrap (left / right)))
    else .ok (.float ((Binary64.ofInt left).div (.ofInt right)))
  | .percent =>
    if right = 0 then .error .divisionByZero
    else .ok (.int (Word.wrap (left.tmod right)))
  | .greater => .ok (.boolean (right < left))
  | .greaterEqual => .ok (.boolean (right ≤ left))
  | .less => .ok (.boolean (left < right))
  | .lessEqual => .ok (.boolean (left ≤ right))
  | _ => .error (.unknownOperator operator.lexeme)

/-- Binary operators on doubles. -/
def onFloats (operator : Token) (left right : Binary64) : Except Fault Value :=
  match operator.kind with
  | .plus => .ok (.float (left.add right))
  | .minus => .ok (.float (left.sub right))
  | .star => .ok (.float (left.mul right))
  | .slash => .ok (.float (left.div right))
  | .percent => .ok (.float (left.rem right))
  | .greater => .ok (.boolean (right.less left))
  | .greaterEqual => .ok (.boolean (right.lessOrEqual left))
  | .less => .ok (.boolean (left.less right))
  | .lessEqual => .ok (.boolean (left.lessOrEqual right))
  | _ => .error (.unknownOperator operator.lexeme)

/-- Binary operators on numbers of one type. -/
def onNumbers (operator : Token) : NumberPair → Except Fault Value
  | .ints left right => onInts operator left right
  | .floats left right => onFloats operator left right

/-- Binary operators. Equality takes any values, a sum two strings or two numbers, and every
other operator two numbers. -/
def binary (operator : Token) (left right : Value) : Except Fault Value :=
  match operator.kind with
  | .equalEqual => .ok (.boolean (left.equal right))
  | .bangEqual => .ok (.boolean !(left.equal right))
  | .plus =>
    match left, right with
    | .string first, .string second => .ok (.string (first ++ second))
    | _, _ =>
      match NumberPair.of? left right with
      | some pair => onNumbers operator pair
      | none => .error .operandsNotNumbersOrStrings
  | _ =>
    match NumberPair.of? left right with
    | some pair => onNumbers operator pair
    | none => .error .operandsNotNumbers

end Operator

end Lox
