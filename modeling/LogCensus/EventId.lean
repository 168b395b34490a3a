import LogCensus.Constant

/-!
# Event identifiers

The identifier attached to a logging call: an id and a name, each missing, constant or only known as
a reference; or a reference to a symbol that holds the whole identifier.
-/

namespace LogCensus

/-- What kind of symbol a value comes from. -/
inductive ReferenceKind where
  | localVariable
  | parameter
  | field
  | property
  | methodResult
  | other
deriving DecidableEq

namespace ReferenceKind

/-- All kinds of reference. -/
def all : List ReferenceKind :=
  [.localVariable, .parameter, .field, .property, .methodResult, .other]

/-- The name in JSON. -/
def name : ReferenceKind → String
  | .localVariable => "local"
  | .parameter => "parameter"
  | .field => "field"
  | .property => "property"
  | .methodResult => "methodResult"
  | .other => "other"

/-- The name in messages. -/
def text : ReferenceKind → String
  | .methodResult => "method result"
  | kind => kind.name

end ReferenceKind

/-- One half of an event identifier. -/
inductive EventPart where
  /-- Not given at the call. -/
  | missing
  | constant (value : Constant)
  /-- Given, but only as a reference. -/
  | reference (kind : ReferenceKind) (name : String)
deriving DecidableEq

namespace EventPart

/-- Whether the half is not given. -/
def isMissing : EventPart → Bool
  | .missing => true
  | _ => false

/-- The half as it is shown in a message. -/
def text : EventPart → String
  | .missing => "-"
  | .constant value => value.text
  | .reference _ name => name

end EventPart

/-- The identifier of a logging call. -/
inductive EventId where
  /-- Built at the call from an id and a name. -/
  | details (id name : EventPart)
  /-- Held by a symbol whose value is not visible. -/
  | reference (kind : ReferenceKind) (name : String)
deriving DecidableEq

/-- The identifier as it is shown in a message. -/
def EventId.text : EventId → String
  | .details id name => id.text ++ " (" ++ name.text ++ ")"
  | .reference kind name => kind.text ++ " " ++ name

end LogCensus
