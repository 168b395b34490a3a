import LogCensus.Operation
import LogCensus.Symbol.Codec

/-!
# Operations in JSON

An operation is one object: `type`, `constant`, the name of its shape under `kind`, and the parts of
the shape beside them. A shape with an unknown name is read as `other`; a name may also be given by
its position in the list of names. Which further members an object may hold depends on its kind, so
all members except `type` and `constant` are kept until the kind is known: they have to be readable
as a whole, unknown ones included.

* `Operation.toJson`: the JSON form.
* `Operation.read`: the reader.
-/

namespace LogCensus

open Json

/-! ## Writing -/

mutual
/-- The JSON form of an operation. -/
def Operation.toJson : Operation → Json
  | ⟨type, constant, shape⟩ =>
    .object
      (("type", .ofOption TypeRef.toJson type) ::
       ("constant", .ofOption Constant.toJson constant) :: shape.toMembers)
/-- The kind of a shape and its parts, as members of an object. -/
def Shape.toMembers : Shape → List (String × Json)
  | .literal => [("kind", .string "literal")]
  | .localReference name initializer =>
    [("kind", .string "localReference"), ("name", .string name),
     ("initializer", Operation.toJsonOption initializer)]
  | .parameterReference name =>
    [("kind", .string "parameterReference"), ("name", .string name)]
  | .fieldReference name initializer =>
    [("kind", .string "fieldReference"), ("name", .string name),
     ("initializer", Operation.toJsonOption initializer)]
  | .propertyReference name arguments =>
    [("kind", .string "propertyReference"), ("name", .string name),
     ("arguments", .array (Argument.toJsonList arguments))]
  | .invocation call => ("kind", .string "invocation") :: call.toMembers
  | .objectCreation creation => ("kind", .string "objectCreation") :: creation.toMembers
  | .arrayCreation elements =>
    [("kind", .string "arrayCreation"), ("elements", .array (Operation.toJsonList elements))]
  | .anonymousObjectCreation members =>
    [("kind", .string "anonymousObjectCreation"),
     ("members", .array (AnonymousMember.toJsonList members))]
  | .conversion operand => [("kind", .string "conversion"), ("operand", operand.toJson)]
  | .defaultValue => [("kind", .string "defaultValue")]
  | .assignment target value =>
    [("kind", .string "assignment"), ("target", target.toJson), ("value", value.toJson)]
  | .other => [("kind", .string "other")]
/-- The JSON form of an argument. -/
def Argument.toJson : Argument → Json
  | ⟨parameter, value⟩ =>
    .object [("parameter", .ofOption ParameterSymbol.toJson parameter), ("value", value.toJson)]
/-- The JSON form of a member of an anonymous object. -/
def AnonymousMember.toJson : AnonymousMember → Json
  | ⟨name, value⟩ => .object [("name", .string name), ("value", value.toJson)]
/-- The parts of a method call, as members of an object. -/
def Invocation.toMembers : Invocation → List (String × Json)
  | ⟨method, receiver, arguments⟩ =>
    [("method", method.toJson), ("instance", Operation.toJsonOption receiver),
     ("arguments", .array (Argument.toJsonList arguments))]
/-- The parts of a constructor call, as members of an object. -/
def ObjectCreation.toMembers : ObjectCreation → List (String × Json)
  | ⟨method, arguments, initializer⟩ =>
    [("constructor", .ofOption MethodRef.toJson method),
     ("arguments", .array (Argument.toJsonList arguments)),
     ("initializer", Operation.toJsonListOption initializer)]
/-- The JSON form of an optional operation. -/
def Operation.toJsonOption : Option Operation → Json
  | none => .null
  | some operation => operation.toJson
/-- The JSON forms of a list of operations. -/
def Operation.toJsonList : List Operation → List Json
  | [] => []
  | operation :: rest => operation.toJson :: Operation.toJsonList rest
/-- The JSON form of an optional list of operations. -/
def Operation.toJsonListOption : Option (List Operation) → Json
  | none => .null
  | some operations => .array (Operation.toJsonList operations)
/-- The JSON forms of a list of arguments. -/
def Argument.toJsonList : List Argument → List Json
  | [] => []
  | argument :: rest => argument.toJson :: Argument.toJsonList rest
/-- The JSON forms of a list of members. -/
def AnonymousMember.toJsonList : List AnonymousMember → List Json
  | [] => []
  | member :: rest => member.toJson :: AnonymousMember.toJsonList rest
end

/-- The JSON form of a method call that stands alone. -/
def Invocation.toJson (call : Invocation) : Json :=
  .object call.toMembers

/-! ## Reading

The parts of an operation are read by a given reader of operations; the reader of operations then
uses itself for the parts.
-/

/-- Reads an argument. -/
def Argument.readWith (operation : Reader Operation) : Reader Argument
  | 0, _ => none
  | levels + 1, value => do
    let fields ← value.fields? ["parameter", "value"]
    return {
      parameter := ← fields.optional "parameter" (ParameterSymbol.read levels)
      value := ← fields.required "value" (operation levels) }

/-- Reads a member of an anonymous object. -/
def AnonymousMember.readWith (operation : Reader Operation) : Reader AnonymousMember
  | 0, _ => none
  | levels + 1, value => do
    let fields ← value.fields? ["name", "value"]
    return {
      name := ← fields.required "name" string?
      value := ← fields.required "value" (operation levels) }

namespace Invocation

/-- The fields of a method call, in order. -/
def fieldNames : List String :=
  ["method", "instance", "arguments"]

/-- Reads the parts of a method call. -/
def ofFields? (operation : Reader Operation) (levels : Nat) (fields : Fields) :
    Option Invocation := do
  return {
    method := ← fields.required "method" (MethodRef.read levels)
    receiver := ← fields.optional "instance" (operation levels)
    arguments := ← fields.defaulted "arguments" []
      (Reader.list (Argument.readWith operation) levels) }

end Invocation

namespace ObjectCreation

/-- The fields of a constructor call, in order. -/
def fieldNames : List String :=
  ["constructor", "arguments", "initializer"]

/-- Reads the parts of a constructor call. -/
def ofFields? (operation : Reader Operation) (levels : Nat) (fields : Fields) :
    Option ObjectCreation := do
  return {
    method := ← fields.optional "constructor" (MethodRef.read levels)
    arguments := ← fields.defaulted "arguments" []
      (Reader.list (Argument.readWith operation) levels)
    initializer := ← fields.optional "initializer" (Reader.list operation levels) }

end ObjectCreation

namespace Shape

/-- The names of the described shapes, in order. -/
def kindNames : List String :=
  ["literal", "localReference", "parameterReference", "fieldReference", "propertyReference",
   "invocation", "objectCreation", "arrayCreation", "anonymousObjectCreation", "conversion",
   "defaultValue", "assignment"]

/-- The name of a shape, given as a text or as a position. -/
def kindName? : Json → Option String
  | .string name => some name
  | .int (.ofNat position) => some (kindNames[position]?.getD "other")
  | _ => none

/-- Reads the parts of the shape with the given name out of the members of an object. -/
def ofMembers? (operation : Reader Operation) (levels : Nat) (kind : String)
    (members : List (String × Json)) : Option Shape :=
  match kind with
  | "literal" => some .literal
  | "localReference" => do
    let fields ← knownMembers? ["name", "initializer"] members
    return .localReference (← fields.required "name" string?)
      (← fields.optional "initializer" (operation levels))
  | "parameterReference" => do
    let fields ← knownMembers? ["name"] members
    return .parameterReference (← fields.required "name" string?)
  | "fieldReference" => do
    let fields ← knownMembers? ["name", "initializer"] members
    return .fieldReference (← fields.required "name" string?)
      (← fields.optional "initializer" (operation levels))
  | "propertyReference" => do
    let fields ← knownMembers? ["name", "arguments"] members
    return .propertyReference (← fields.required "name" string?)
      (← fields.defaulted "arguments" [] (Reader.list (Argument.readWith operation) levels))
  | "invocation" => do
    let fields ← knownMembers? Invocation.fieldNames members
    return .invocation (← Invocation.ofFields? operation levels fields)
  | "objectCreation" => do
    let fields ← knownMembers? ObjectCreation.fieldNames members
    return .objectCreation (← ObjectCreation.ofFields? operation levels fields)
  | "arrayCreation" => do
    let fields ← knownMembers? ["elements"] members
    return .arrayCreation (← fields.defaulted "elements" [] (Reader.list operation levels))
  | "anonymousObjectCreation" => do
    let fields ← knownMembers? ["members"] members
    return .anonymousObjectCreation
      (← fields.defaulted "members" [] (Reader.list (AnonymousMember.readWith operation) levels))
  | "conversion" => do
    let fields ← knownMembers? ["operand"] members
    return .conversion (← fields.required "operand" (operation levels))
  | "defaultValue" => some .defaultValue
  | "assignment" => do
    let fields ← knownMembers? ["target", "value"] members
    return .assignment (← fields.required "target" (operation levels))
      (← fields.required "value" (operation levels))
  | _ => some .other

end Shape

namespace Operation

/-- Reads an operation whose parts are read by the given reader. -/
def readWith (operation : Reader Operation) : Reader Operation
  | levels + 1, .object members => do
    let own ← knownMembers? ["type", "constant", "kind"] members
    guard <| members.all fun (key, value) =>
      key == "type" || key == "constant" || value.fits levels
    let kind ← own.required "kind" Shape.kindName?
    return {
      type := ← own.optional "type" (TypeRef.read levels)
      constant := ← own.optional "constant" Constant.ofJson?
      shape := ← Shape.ofMembers? operation levels kind members }
  | _, _ => none

/-- Reads an operation with at most `fuel` operations inside each other. -/
def readWithin : Nat → Reader Operation
  | 0 => fun _ _ => none
  | fuel + 1 => readWith (readWithin fuel)

/-- Reads an operation. Operations inside each other take one level each, so the levels bound how
many there are. -/
def read : Reader Operation := fun levels =>
  readWithin levels levels

end Operation

/-- Reads an argument. -/
def Argument.read : Reader Argument :=
  Argument.readWith Operation.read

/-- Reads a method call that stands alone. -/
def Invocation.read : Reader Invocation
  | 0, _ => none
  | levels + 1, value => do
    Invocation.ofFields? Operation.read levels (← value.fields? Invocation.fieldNames)

end LogCensus
