import LogCensus.Symbol

/-!
# Symbols in JSON

The JSON forms of type references, attributes, parameters and methods, each with its reader. A
writer writes every field; a reader accepts a record from which the fields with a default are
missing.
-/

namespace LogCensus

open Json

namespace SymbolId

/-- The JSON form: the handle itself. -/
def toJson (id : SymbolId) : Json :=
  .int id.value.toNat

/-- Reads a handle. -/
def ofJson? (value : Json) : Option SymbolId :=
  (uint32? value).map SymbolId.mk

end SymbolId

namespace TypeRef

/-- The fields of a type reference, in order. -/
def fieldNames : List String :=
  ["symbol", "display", "typeArguments", "interfaces", "baseTypes", "elementType", "isAnonymous"]

mutual
/-- The JSON form of a type reference. -/
def toJson : TypeRef → Json
  | ⟨symbol, display, typeArguments, interfaces, baseTypes, elementType, isAnonymous⟩ =>
    .object
      [("symbol", .ofOption SymbolId.toJson symbol),
       ("display", .string display),
       ("typeArguments", .array (toJsonList typeArguments)),
       ("interfaces", .array (toJsonList interfaces)),
       ("baseTypes", .ofList SymbolId.toJson baseTypes),
       ("elementType", toJsonOption elementType),
       ("isAnonymous", .bool isAnonymous)]
/-- The JSON forms of a list of type references. -/
def toJsonList : List TypeRef → List Json
  | [] => []
  | type :: rest => type.toJson :: toJsonList rest
/-- The JSON form of an optional type reference. -/
def toJsonOption : Option TypeRef → Json
  | none => .null
  | some type => type.toJson
end

/-- Reads a type reference. -/
def read : Reader TypeRef
  | 0, _ => none
  | levels + 1, value => do
    let fields ← value.fields? fieldNames
    let list : Json → Option (List TypeRef) := fun items =>
      match levels with
      | 0 => none
      | below + 1 => items.items?.bind fun found => found.mapM (read below)
    return {
      symbol := ← fields.optional "symbol" SymbolId.ofJson?
      display := ← fields.required "display" string?
      typeArguments := ← fields.defaulted "typeArguments" [] list
      interfaces := ← fields.defaulted "interfaces" [] list
      baseTypes := ← fields.defaulted "baseTypes" []
        (Reader.list (fun _ => SymbolId.ofJson?) levels)
      elementType := ← fields.optional "elementType" (read levels)
      isAnonymous := ← fields.defaulted "isAnonymous" false bool? }

end TypeRef

namespace AttributeArgument

/-- The JSON form of an attribute argument. -/
def toJson (argument : AttributeArgument) : Json :=
  .object
    [("name", .string argument.name),
     ("type", .ofOption TypeRef.toJson argument.type),
     ("value", .ofOption Constant.toJson argument.value)]

/-- Reads an attribute argument. -/
def read : Reader AttributeArgument
  | 0, _ => none
  | levels + 1, value => do
    let fields ← value.fields? ["name", "type", "value"]
    return {
      name := ← fields.required "name" string?
      type := ← fields.optional "type" (TypeRef.read levels)
      value := ← fields.optional "value" Constant.ofJson? }

end AttributeArgument

namespace Attribute

/-- The JSON form of an attribute. -/
def toJson (applied : Attribute) : Json :=
  .object
    [("class", applied.type.toJson),
     ("constructorArguments", .ofList AttributeArgument.toJson applied.constructorArguments),
     ("namedArguments", .ofList AttributeArgument.toJson applied.namedArguments)]

/-- Reads an attribute. -/
def read : Reader Attribute
  | 0, _ => none
  | levels + 1, value => do
    let fields ← value.fields? ["class", "constructorArguments", "namedArguments"]
    let arguments := Reader.list AttributeArgument.read levels
    return {
      type := ← fields.required "class" SymbolId.ofJson?
      constructorArguments := ← fields.defaulted "constructorArguments" [] arguments
      namedArguments := ← fields.defaulted "namedArguments" [] arguments }

end Attribute

namespace ParameterSymbol

/-- The JSON form of a parameter. -/
def toJson (parameter : ParameterSymbol) : Json :=
  .object
    [("name", .string parameter.name),
     ("type", parameter.type.toJson),
     ("attributes", .ofList Attribute.toJson parameter.attributes)]

/-- Reads a parameter. -/
def read : Reader ParameterSymbol
  | 0, _ => none
  | levels + 1, value => do
    let fields ← value.fields? ["name", "type", "attributes"]
    return {
      name := ← fields.required "name" string?
      type := ← fields.required "type" (TypeRef.read levels)
      attributes := ← fields.defaulted "attributes" [] (Reader.list Attribute.read levels) }

end ParameterSymbol

namespace MethodRef

/-- The fields of a method, in order. -/
def fieldNames : List String :=
  ["symbol", "originalDefinition", "name", "containingType", "typeArguments", "parameters",
   "returnType"]

/-- The JSON form of a method. -/
def toJson (method : MethodRef) : Json :=
  .object
    [("symbol", method.symbol.toJson),
     ("originalDefinition", .ofOption SymbolId.toJson method.genericDefinition),
     ("name", .string method.name),
     ("containingType", .ofOption SymbolId.toJson method.containingType),
     ("typeArguments", .ofList TypeRef.toJson method.typeArguments),
     ("parameters", .ofList ParameterSymbol.toJson method.parameters),
     ("returnType", .ofOption TypeRef.toJson method.returnType)]

/-- Reads a method. -/
def read : Reader MethodRef
  | 0, _ => none
  | levels + 1, value => do
    let fields ← value.fields? fieldNames
    return {
      symbol := ← fields.required "symbol" SymbolId.ofJson?
      genericDefinition := ← fields.optional "originalDefinition" SymbolId.ofJson?
      name := ← fields.required "name" string?
      containingType := ← fields.optional "containingType" SymbolId.ofJson?
      typeArguments := ← fields.defaulted "typeArguments" [] (Reader.list TypeRef.read levels)
      parameters := ← fields.defaulted "parameters" [] (Reader.list ParameterSymbol.read levels)
      returnType := ← fields.optional "returnType" (TypeRef.read levels) }

end MethodRef

end LogCensus
