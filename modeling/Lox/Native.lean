/-
This file is the behaviour of the native functions: reading the clock and the
console, writing values as text, reading text as values, and asking for types.
-/

import Lox.Console
import Lox.Fault
import Lox.Text.Blank
import Lox.Text.Digit

namespace Lox.Native

/-! ### Reading text as a value -/

/-- The integer of a signed row of ASCII digits, if it is a word. -/
def parseInt? (text : String) : Option Int :=
  let (negative, digits) := Decimal.splitSign text.toList
  if Decimal.isDigits digits then
    let magnitude : Int := Decimal.digitsValue digits
    let value := if negative then -magnitude else magnitude
    if Word.InRange value then some value else none
  else
    none

/-- The words for values that have no digits, in lower case. -/
def wordFloats : List (List Char × (Bool → Binary64)) :=
  [("inf".toList, .infinity), ("infinity".toList, .infinity), ("nan".toList, fun _ => .nan)]

/-- The double of an unsigned numeral or word. -/
def parseMagnitude? (negative : Bool) (text : List Char) : Option Binary64 :=
  match wordFloats.lookup (text.map Char.toLower) with
  | some value => some (value negative)
  | none => (Decimal.ofChars? text).map (Decimal.toBinary64 negative)

/-- The double of a signed numeral, which may be written in the digits of any script. A text that
begins or ends with a blank is none. -/
def parseFloat? (text : String) : Option Binary64 :=
  if Text.isPadded text.toList then
    none
  else
    let (negative, magnitude) := Decimal.splitSign (text.toList.map Text.asciiDigit)
    parseMagnitude? negative magnitude

/-- The texts that are read as true. -/
def trueTexts : List String := ["1", "t", "T", "TRUE", "true", "True"]

/-- The texts that are read as false. -/
def falseTexts : List String := ["0", "f", "F", "FALSE", "false", "False"]

/-- The boolean of a text. -/
def parseBoolean? (text : String) : Option Bool :=
  if text ∈ trueTexts then some true
  else if text ∈ falseTexts then some false
  else none

/-- The value if there is one, and else a failed conversion. -/
def converted (text : String) (type : ParsedType) : Option Value → Except NativeFault Value
  | some value => .ok value
  | none => .error (.cannotConvert text type)

/-- Reads a text as a value of the named type. -/
def parseAs (type text : String) : Except NativeFault Value :=
  match type with
  | "int" => converted text .int ((parseInt? text).map .int)
  | "float" => converted text .float ((parseFloat? text).map .float)
  | "bool" => converted text .boolean ((parseBoolean? text).map .boolean)
  | "string" => .ok (.string text)
  | _ => .error (.unsupportedType type)

/-! ### Types -/

/-- The type names that a value can be asked about. -/
def instanceTypes : List String := ["int", "float", "boolean", "string", "function"]

/-- Whether the value is of the named type. -/
def hasType (type : String) (value : Value) : Except NativeFault Value :=
  if type ∈ instanceTypes then .ok (.boolean (value.typeName = type))
  else .error (.unsupportedType type)

/-! ### Calls -/

/-- The result of a native that reads nothing from outside. -/
def pureResult (native : Native) (arguments : List Value) : Except NativeFault Value :=
  match native, arguments with
  | .toText, value :: _ => .ok (.string value.text)
  | .parseText, [.string type, .string text] =>
    parseAs (Value.withoutQuotes type) (Value.withoutQuotes text)
  | .parseText, [_, _] => .error .notStrings
  | .isInstance, [.string type, value] => hasType (Value.withoutQuotes type) value
  | .isInstance, [_, _] => .error .typeNotString
  | _, _ => .error .argumentCount

/-- Calls a native. -/
def call (native : Native) (arguments : List Value) (inputs : Inputs) :
    Except NativeFault Value × Inputs :=
  match native with
  | .clock => (.ok (.int (inputs.clock inputs.ticks)), { inputs with ticks := inputs.ticks + 1 })
  | .input =>
    let (text, console) := inputs.console.readLine
    (.ok (.string text), { inputs with console })
  | _ => (native.pureResult arguments, inputs)

end Lox.Native
