import LogCensus.Decimal.Layout
import LogCensus.Json.Reader

/-!
# Compile-time constants

The constant value of an expression or of an attribute argument, its text in messages and its JSON
form. In JSON a constant carries no tag: its kind is the kind of the JSON value, and a number is an
integer exactly when it is written as one and fits a signed 64-bit word.
-/

namespace LogCensus

/-- A compile-time constant. -/
inductive Constant where
  | null
  | bool (value : Bool)
  | int (value : Int64)
  | float (value : Double)
  | string (value : String)
deriving DecidableEq

namespace Constant

/-- The text of a string constant. -/
def asString? : Constant → Option String
  | .string value => some value
  | _ => none

/-- The value of an integer constant. -/
def asInt? : Constant → Option Int64
  | .int value => some value
  | _ => none

/-- Whether the constant is null. -/
def isNull : Constant → Bool
  | .null => true
  | _ => false

/-- The constant as it is shown in a message. -/
def text : Constant → String
  | .null => "null"
  | .bool value => if value then "true" else "false"
  | .int value => toString value.toInt
  | .float value => Layout.message.text value
  | .string value => value

/-- The JSON form. Infinities and undefined numbers have none and are written as null. -/
def toJson : Constant → Json
  | .null => .null
  | .bool value => .bool value
  | .int value => .int value.toInt
  | .float value => if value.isFinite then .float value else .null
  | .string value => .string value

/-- Reads a constant. An integer too large for a signed word is the double nearest to it. -/
def ofJson? : Json → Option Constant
  | .null => some .null
  | .bool value => some (.bool value)
  | .int value =>
    if Int64.minValue.toInt ≤ value ∧ value ≤ Int64.maxValue.toInt then some (.int (.ofInt value))
    else some (.float (.ofInt value))
  | .float value => some (.float value)
  | .string value => some (.string value)
  | .unreadable => none
  | .array _ => none
  | .object _ => none

end Constant

end LogCensus
