import LogCensus.Decimal.Double

/-!
# JSON values

A JSON value, with integers and doubles kept apart. One constructor stands for what is well formed
as text but denotes no value; such a literal may be skipped, and nothing reads it.

* `Json.depth`: how deeply arrays and objects are nested.
* `Json.fits`: the value can be read with a given number of levels left.
-/

namespace LogCensus

/-- A JSON value. -/
inductive Json where
  | null
  | bool (value : Bool)
  /-- A number written without fraction and exponent that fits a 64-bit word. -/
  | int (value : Int)
  /-- Any other number. -/
  | float (value : Double)
  /-- A number beyond every double, a string with half of a surrogate pair, or an object with such
  a string as a key. -/
  | unreadable
  | string (value : String)
  | array (items : List Json)
  /-- The members in the order of the text; a key may be repeated. -/
  | object (members : List (String × Json))

namespace Json

mutual
/-- The nesting depth: no array or object is `0`, an empty one is `1`. -/
def depth : Json → Nat
  | .array items => depthItems items + 1
  | .object members => depthMembers members + 1
  | _ => 0
/-- The greatest depth among the items of an array. -/
def depthItems : List Json → Nat
  | [] => 0
  | item :: rest => max item.depth (depthItems rest)
/-- The greatest depth among the members of an object. -/
def depthMembers : List (String × Json) → Nat
  | [] => 0
  | (_, value) :: rest => max value.depth (depthMembers rest)
end

/-- Whether every part of the value can be read when `levels` more levels of nesting are allowed. -/
def fits : Nat → Json → Bool
  | _, .unreadable => false
  | 0, .array _ => false
  | 0, .object _ => false
  | levels + 1, .array items => items.all (fits levels)
  | levels + 1, .object members => members.all fun (_, value) => fits levels value
  | _, _ => true

/-- The text of an optional value. -/
def ofOption (encode : α → Json) : Option α → Json
  | none => .null
  | some value => encode value

/-- The array of the encoded items. -/
def ofList (encode : α → Json) (items : List α) : Json :=
  .array (items.map encode)

/-- A natural number. -/
def ofNat (n : Nat) : Json :=
  .int n

/-- A member that is left out when its value is absent. -/
def member? (key : String) (encode : α → Json) : Option α → List (String × Json)
  | none => []
  | some value => [(key, encode value)]

end Json

end LogCensus
