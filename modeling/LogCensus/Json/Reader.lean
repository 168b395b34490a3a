import LogCensus.Json.Basic

/-!
# Reading records out of JSON values

A reader takes a value apart into a domain type, or refuses it. Readers of nested values also take
the number of levels of nesting that are left: an array or object needs one level, and its parts are
read with one level less.

A record is an object whose unknown members are ignored and whose known members occur once, or an
array of its fields in order, from which fields at the end may be missing.
-/

namespace LogCensus.Json

/-- A reader of values that may be nested at most so many levels deep. -/
abbrev Reader (α : Type) := Nat → Json → Option α

/-- Reads a value all of whose levels are allowed. -/
def Reader.run (reader : Reader α) (value : Json) : Option α :=
  reader value.depth value

/-- The number of levels of a text that is read, the outermost value included. -/
def textLevels : Nat := 127

/-! ## Scalars -/

/-- A string. -/
def string? : Json → Option String
  | .string value => some value
  | _ => none

/-- A truth value. -/
def bool? : Json → Option Bool
  | .bool value => some value
  | _ => none

/-- An integer. -/
def int? : Json → Option Int
  | .int value => some value
  | _ => none

/-- A natural number below a bound. -/
def natBelow? (bound : Nat) : Json → Option Nat
  | .int (.ofNat n) => if n < bound then some n else none
  | _ => none

/-- A natural number of 64 bits. -/
def word? (value : Json) : Option Nat :=
  natBelow? UInt64.size value

/-- A 32-bit word. -/
def uint32? (value : Json) : Option UInt32 :=
  (natBelow? UInt32.size value).map Nat.toUInt32

/-- A 64-bit word. -/
def uint64? (value : Json) : Option UInt64 :=
  (natBelow? UInt64.size value).map Nat.toUInt64

/-- A signed 64-bit word. -/
def int64? : Json → Option Int64
  | .int value =>
    if Int64.minValue.toInt ≤ value ∧ value ≤ Int64.maxValue.toInt then some (.ofInt value)
    else none
  | _ => none

/-! ## Lists and choices -/

/-- The items of an array. -/
def items? : Json → Option (List Json)
  | .array items => some items
  | _ => none

/-- An array whose items are scalars. -/
def listOf? (read : Json → Option α) (value : Json) : Option (List α) := do
  (← value.items?).mapM read

/-- An array of nested values: one level for the array, the rest for its items. -/
def Reader.list (item : Reader α) : Reader (List α)
  | levels + 1, .array items => items.mapM (item levels)
  | _, _ => none

/-- A scalar or absent value. -/
def nullable? (read : Json → Option α) : Json → Option (Option α)
  | .null => some none
  | value => (read value).map some

/-- One of a list of alternatives by its name; a name may also be the only key of an object, with a
value that holds nothing. -/
def choiceWith? (holdsNothing : Json → Bool) (name : α → String) (alternatives : List α) :
    Json → Option α
  | .string text => alternatives.find? fun alternative => name alternative == text
  | .object [(text, value)] =>
    if holdsNothing value then alternatives.find? fun alternative => name alternative == text
    else none
  | _ => none

/-- One of a list of alternatives by its name, or by an object that maps its name to a null. -/
def choice? (name : α → String) (alternatives : List α) : Json → Option α :=
  choiceWith? (· matches .null) name alternatives

/-- One of a list of alternatives inside a tagged record: an object that maps its name to an empty
object is good, too. -/
def taggedChoice? (name : α → String) (alternatives : List α) : Json → Option α :=
  choiceWith? (fun value => value matches .null | .object []) name alternatives

/-- The position of an alternative, given by its name or by the position itself. -/
def position? (names : List String) : Json → Option Nat
  | .string text => names.findIdx? (· == text)
  | .int (.ofNat n) => if n < names.length then some n else none
  | _ => none

/-! ## Records -/

/-- The known fields of a record. -/
structure Fields where
  entries : List (String × Json)

/-- The known fields among the members of an object; none when one of them is repeated. -/
def knownMembers? (names : List String) (members : List (String × Json)) : Option Fields :=
  let known := members.filter fun (key, _) => names.contains key
  if (known.map Prod.fst).Nodup then some ⟨known⟩ else none

/-- The fields of a record with the given field names in order. -/
def fields? (names : List String) : Json → Option Fields
  | .object members => knownMembers? names members
  | .array items => if items.length ≤ names.length then some ⟨names.zip items⟩ else none
  | _ => none

/-- The tag of a tagged record under `key`, and the value that holds its other fields. A tagged
record is an object with one such member, or an array that starts with the tag. -/
def tagged? (key : String) : Json → Option (Json × Json)
  | .object members =>
    match members.filter fun (name, _) => name == key with
    | [(_, tag)] => some (tag, .object (members.filter fun (name, _) => name != key))
    | _ => none
  | .array (tag :: rest) => some (tag, .array rest)
  | _ => none

namespace Fields

/-- The value of a field, if the field is present. -/
def get? (fields : Fields) (name : String) : Option Json :=
  fields.entries.lookup name

/-- A field that must be present. -/
def required (fields : Fields) (name : String) (read : Json → Option α) : Option α := do
  read (← fields.get? name)

/-- A field that may be missing or null. -/
def optional (fields : Fields) (name : String) (read : Json → Option α) : Option (Option α) :=
  match fields.get? name with
  | none => some none
  | some value => nullable? read value

/-- A field that has a default when it is missing. A null is not missing. -/
def defaulted (fields : Fields) (name : String) (default : α) (read : Json → Option α) :
    Option α :=
  match fields.get? name with
  | none => some default
  | some value => read value

end Fields

end LogCensus.Json
