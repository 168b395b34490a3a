import LogCensus.Constant
import LogCensus.Text.Caseless

/-!
# Symbols

What a compiler front end says about types, methods, parameters and attributes. A symbol is an
opaque handle: two symbols are the same exactly when their handles are equal. Display texts are
carried along for reporting.
-/

namespace LogCensus

/-- The handle of a type or member within one compilation. -/
structure SymbolId where
  value : UInt32
deriving DecidableEq

/-- The static type of an expression, a parameter or a type argument. -/
structure TypeRef where
  /-- The type's definition, without its type arguments. -/
  symbol : Option SymbolId := none
  display : String
  typeArguments : List TypeRef := []
  /-- All implemented interfaces, inherited ones included. -/
  interfaces : List TypeRef := []
  /-- All base types, inherited ones included. -/
  baseTypes : List SymbolId := []
  /-- The type of the elements of an array. -/
  elementType : Option TypeRef := none
  isAnonymous : Bool := false

namespace TypeRef

/-! ## Equality -/

mutual
/-- Whether two type references agree in every part. -/
def same : TypeRef → TypeRef → Bool
  | ⟨symbol, display, typeArguments, interfaces, baseTypes, elementType, isAnonymous⟩,
    ⟨symbol', display', typeArguments', interfaces', baseTypes', elementType', isAnonymous'⟩ =>
    decide (symbol = symbol') && decide (display = display') &&
      sameList typeArguments typeArguments' && sameList interfaces interfaces' &&
      decide (baseTypes = baseTypes') && sameOption elementType elementType' &&
      decide (isAnonymous = isAnonymous')
/-- Whether two lists of type references agree. -/
def sameList : List TypeRef → List TypeRef → Bool
  | [], [] => true
  | type :: rest, type' :: rest' => same type type' && sameList rest rest'
  | _, _ => false
/-- Whether two optional type references agree. -/
def sameOption : Option TypeRef → Option TypeRef → Bool
  | none, none => true
  | some type, some type' => same type type'
  | _, _ => false
end

mutual
theorem same_iff : (left right : TypeRef) → (same left right = true ↔ left = right)
  | ⟨_, _, typeArguments, interfaces, _, elementType, _⟩,
    ⟨_, _, typeArguments', interfaces', _, elementType', _⟩ => by
    have arguments := sameList_iff typeArguments typeArguments'
    have implemented := sameList_iff interfaces interfaces'
    have element := sameOption_iff elementType elementType'
    simp only [same, Bool.and_eq_true, decide_eq_true_eq, arguments, implemented, element,
      TypeRef.mk.injEq, and_assoc]
theorem sameList_iff : (left right : List TypeRef) → (sameList left right = true ↔ left = right)
  | [], [] => by simp [sameList]
  | [], _ :: _ => by simp [sameList]
  | _ :: _, [] => by simp [sameList]
  | type :: rest, type' :: rest' => by
    have head := same_iff type type'
    have tail := sameList_iff rest rest'
    simp only [sameList, Bool.and_eq_true, head, tail, List.cons.injEq]
theorem sameOption_iff :
    (left right : Option TypeRef) → (sameOption left right = true ↔ left = right)
  | none, none => by simp [sameOption]
  | none, some _ => by simp [sameOption]
  | some _, none => by simp [sameOption]
  | some type, some type' => by
    have inner := same_iff type type'
    simp only [sameOption, inner, Option.some.injEq]
end

instance : DecidableEq TypeRef := fun left right =>
  decidable_of_iff (same left right = true) (same_iff left right)

/-! ## Relations between types -/

/-- Whether the type is the given one, derives from it or implements it. -/
def isOrInherits (type : TypeRef) (symbol : SymbolId) : Bool :=
  type.symbol == some symbol || type.baseTypes.contains symbol ||
    type.interfaces.any fun interface => interface.symbol == some symbol

/-- The type itself, then every interface it implements. -/
def selfAndInterfaces (type : TypeRef) : List TypeRef :=
  type :: type.interfaces

/-- The display text of the type, `object` when it has none. -/
def displayOrObject (type : TypeRef) : String :=
  if type.display.isEmpty then "object" else type.display

end TypeRef

/-- One argument of an attribute: a constructor parameter or a property, by its name. -/
structure AttributeArgument where
  name : String
  type : Option TypeRef := none
  value : Option Constant := none
deriving DecidableEq

/-- An attribute applied to a method or a parameter. -/
structure Attribute where
  /-- The class of the attribute. -/
  type : SymbolId
  constructorArguments : List AttributeArgument := []
  namedArguments : List AttributeArgument := []
deriving DecidableEq

/-- The argument with a name, in any case of ASCII letters; a named argument wins over a constructor
argument. -/
def Attribute.argument? (applied : Attribute) (name : String) : Option AttributeArgument :=
  let matching := fun argument : AttributeArgument => Text.eqIgnoringCase argument.name name
  applied.namedArguments.find? matching <|> applied.constructorArguments.find? matching

/-- A formal parameter of a method. -/
structure ParameterSymbol where
  name : String
  type : TypeRef
  attributes : List Attribute := []
deriving DecidableEq

/-- The target of a call, or a declared method. -/
structure MethodRef where
  symbol : SymbolId
  /-- The generic method that this one was constructed from. -/
  genericDefinition : Option SymbolId := none
  name : String
  containingType : Option SymbolId := none
  typeArguments : List TypeRef := []
  parameters : List ParameterSymbol := []
  returnType : Option TypeRef := none
deriving DecidableEq

/-- The method by which calls are recognised: the generic definition when there is one. -/
def MethodRef.definition (method : MethodRef) : SymbolId :=
  method.genericDefinition.getD method.symbol

end LogCensus
