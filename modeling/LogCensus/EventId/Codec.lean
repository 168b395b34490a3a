import LogCensus.EventId

/-!
# Event identifiers in JSON

Identifiers and their halves are tagged records: the member `kind` names the alternative, and the
other members hold its parts. The alternative of a half, which stands inside an identifier, may also
be given by its position; that of an identifier is always a name.
-/

namespace LogCensus

open Json

namespace ReferenceKind

/-- The JSON form of a kind of reference. -/
def toJson (kind : ReferenceKind) : Json :=
  .string kind.name

/-- Reads a kind of reference, which is always part of a tagged record. -/
def ofJson? : Json → Option ReferenceKind :=
  taggedChoice? name all

end ReferenceKind

namespace EventPart

/-- The JSON form of one half. -/
def toJson : EventPart → Json
  | .missing => .object [("kind", .string "missing")]
  | .constant value => .object [("kind", .string "constant"), ("value", value.toJson)]
  | .reference kind name =>
    .object [("kind", .string "ref"), ("reference", kind.toJson), ("name", .string name)]

/-- Reads one half. -/
def ofJson? (value : Json) : Option EventPart := do
  let (tag, parts) ← value.tagged? "kind"
  match ← position? ["missing", "constant", "ref"] tag with
  | 0 =>
    let _ ← parts.fields? []
    return .missing
  | 1 =>
    let fields ← parts.fields? ["value"]
    return .constant (← fields.required "value" Constant.ofJson?)
  | _ =>
    let fields ← parts.fields? ["reference", "name"]
    return .reference (← fields.required "reference" ReferenceKind.ofJson?)
      (← fields.required "name" string?)

end EventPart

namespace EventId

/-- The JSON form of an identifier. -/
def toJson : EventId → Json
  | .details id name =>
    .object [("kind", .string "details"), ("id", id.toJson), ("name", name.toJson)]
  | .reference kind name =>
    .object [("kind", .string "ref"), ("reference", kind.toJson), ("name", .string name)]

/-- Reads an identifier. -/
def ofJson? (value : Json) : Option EventId := do
  let (tag, parts) ← value.tagged? "kind"
  match ← tag.string? with
  | "details" =>
    let fields ← parts.fields? ["id", "name"]
    return .details (← fields.required "id" EventPart.ofJson?)
      (← fields.required "name" EventPart.ofJson?)
  | "ref" =>
    let fields ← parts.fields? ["reference", "name"]
    return .reference (← fields.required "reference" ReferenceKind.ofJson?)
      (← fields.required "name" string?)
  | _ => none

end EventId

end LogCensus
