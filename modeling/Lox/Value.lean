/-
This file holds the values that programs compute with, and what the language
says of all of them: their type names, which of them count as true, which are
equal, and how they are printed.
-/

import Lox.Number.Fixed
import Lox.Syntax

namespace Lox

/-- The number of a scope in the store. -/
abbrev ScopeId : Type := Nat

/-- The functions that every program finds in its global scope. -/
inductive Native where
  | clock
  | toText
  | input
  | parseText
  | isInstance
  deriving DecidableEq, Repr

namespace Native

/-- All natives, in the order in which the global scope defines them. -/
def all : List Native := [.clock, .toText, .input, .parseText, .isInstance]

/-- The name a native is defined under. -/
def name : Native → String
  | .clock => "clock"
  | .toText => "toString"
  | .input => "input"
  | .parseText => "parseString"
  | .isInstance => "isInstance"

/-- The number of arguments of a native. -/
def arity : Native → Nat
  | .clock => 0
  | .toText => 1
  | .input => 0
  | .parseText => 2
  | .isInstance => 2

end Native

/-- A declared function together with the scope it was declared in. -/
structure Closure where
  name : String
  parameters : List String
  body : List Stmt
  scope : ScopeId

/-- A value. -/
inductive Value where
  | nil
  | boolean (value : Bool)
  | int (value : Int)
  | float (value : Binary64)
  | string (text : String)
  | function (closure : Closure)
  | native (native : Native)

/-- The value of a literal. -/
def Literal.value : Literal → Value
  | .nil => .nil
  | .boolean value => .boolean value
  | .int value => .int value
  | .float value => .float value
  | .string text => .string text

namespace Value

/-! ### Types -/

/-- The name of the type of a value. -/
def typeName : Value → String
  | .nil => "nil"
  | .boolean _ => "boolean"
  | .int _ => "int"
  | .float _ => "float"
  | .string _ => "string"
  | .function _ => "function"
  | .native _ => "function"

/-- The value is an integer. -/
def isInt : Value → Bool
  | .int _ => true
  | _ => false

/-- The value is a double. -/
def isFloat : Value → Bool
  | .float _ => true
  | _ => false

/-- The value is a string. -/
def isString : Value → Bool
  | .string _ => true
  | _ => false

/-- The double that a number is taken for beside another double. -/
def toFloat? : Value → Option Binary64
  | .int value => some (.ofInt value)
  | .float value => some value
  | _ => none

/-- The value is an integer or a double. -/
def isNumber (value : Value) : Bool := value.toFloat?.isSome

/-! ### Truth and equality -/

/-- Only nil and false do not count as true. -/
def truthy : Value → Bool
  | .nil => false
  | .boolean value => value
  | _ => true

/-- Equality of the language. Integers are compared exactly, other pairs of numbers as doubles,
functions by name; booleans are equal to nothing. -/
def equal : Value → Value → Bool
  | .nil, .nil => true
  | .int first, .int second => first = second
  | .int first, .float second => (Binary64.ofInt first).same second
  | .float first, .int second => first.same (.ofInt second)
  | .float first, .float second => first.same second
  | .string first, .string second => first = second
  | .function first, .function second => first.name = second.name
  | .native first, .native second => first = second
  | _, _ => false

/-! ### Text -/

/-- Doubles are printed with six places. -/
def floatFormat : FixedFormat where
  places := 6
  nan := "NaN"
  positiveInfinity := "+Inf"
  negativeInfinity := "-Inf"

/-- The text without its quotation marks. -/
def withoutQuotes (text : String) : String :=
  String.ofList (text.toList.filter (· ≠ '"'))

/-- The printed form of a value. -/
def text : Value → String
  | .nil => "nil"
  | .boolean value => if value then "true" else "false"
  | .int value => decimalText value
  | .float value => floatFormat.text value
  | .string text => withoutQuotes text
  | .function closure => "<fn " ++ closure.name ++ ">"
  | .native _ => "<native fn>"

/-! ### Facts about text and types -/

theorem quote_notMem_withoutQuotes (text : String) : '"' ∉ (withoutQuotes text).toList := by
  simp [withoutQuotes]

/-- A text without quotation marks stays as it is. -/
theorem withoutQuotes_of_notMem {text : String} (absent : '"' ∉ text.toList) :
    withoutQuotes text = text := by
  have kept : text.toList.filter (· ≠ '"') = text.toList :=
    List.filter_eq_self.mpr fun char member => decide_eq_true fun equal => absent (equal ▸ member)
  rw [withoutQuotes, kept, String.ofList_toList]

theorem toFloat?_int (value : Int) : (Value.int value).toFloat? = some (.ofInt value) := rfl

theorem isNumber_iff (value : Value) :
    value.isNumber = true ↔ value.isInt = true ∨ value.isFloat = true := by
  cases value <;> simp [isNumber, toFloat?, isInt, isFloat]

end Value

end Lox
