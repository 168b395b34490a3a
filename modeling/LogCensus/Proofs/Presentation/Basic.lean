import LogCensus.Snapshot
import Mathlib.Logic.Function.Basic

/-!
# Presentations of a program

A front end may present one program in several ways: with other handles for its symbols, with other
display texts for its types, with more or fewer conversions around its values. A presentation is
such a change, carried out in every place of a snapshot. What the analysis reads off a snapshot
changes with it in a way that is said here for each part of the data.

* `Presentation`: the handles, and what is kept of display texts and conversions.
* `Operation.present`, `Operation.presentValue`: an expression, and an expression that stands as a
  value. Only the second may lose the conversions around it.
* `Operation.unwrap_presentValue`, `Operation.origin_presentValue`: what is read through
  conversions does not depend on their number.
-/

namespace LogCensus

/-- A change in how a snapshot presents a program. -/
structure Presentation where
  /-- The handle that takes the place of another one. -/
  handle : SymbolId → SymbolId
  handle_injective : Function.Injective handle
  /-- Whether the display texts of types stay; otherwise they become empty. -/
  keepsDisplays : Bool
  /-- Whether the conversions around values stay; otherwise the values stand by themselves. -/
  keepsConversions : Bool

namespace Presentation

variable (p : Presentation)

/-- The display text that takes the place of another one. -/
def display (text : String) : String :=
  if p.keepsDisplays then text else ""

/-- What is shown for a type in place of another text. -/
def shown (text : String) : String :=
  if p.keepsDisplays then text else "object"

theorem handle_eq_iff {left right : SymbolId} : p.handle left = p.handle right ↔ left = right :=
  p.handle_injective.eq_iff

theorem map_handle_eq_iff {left right : Option SymbolId} :
    left.map p.handle = right.map p.handle ↔ left = right :=
  (Option.map_injective p.handle_injective).eq_iff

theorem handle_beq (left right : SymbolId) :
    (p.handle left == p.handle right) = (left == right) := by
  rw [Bool.eq_iff_iff, beq_iff_eq, beq_iff_eq, p.handle_eq_iff]

theorem map_handle_beq (left right : Option SymbolId) :
    (left.map p.handle == right.map p.handle) = (left == right) := by
  rw [Bool.eq_iff_iff, beq_iff_eq, beq_iff_eq, p.map_handle_eq_iff]

theorem shown_of_keepsDisplays {p : Presentation} (hkeeps : p.keepsDisplays = true)
    (text : String) : p.shown text = text := by
  rw [shown, hkeeps, if_pos rfl]

end Presentation

/-! ## Types -/

mutual
/-- A type as it is presented. -/
def TypeRef.present (p : Presentation) : TypeRef → TypeRef
  | ⟨symbol, display, typeArguments, interfaces, baseTypes, elementType, isAnonymous⟩ =>
    ⟨symbol.map p.handle, p.display display, TypeRef.presentList p typeArguments,
      TypeRef.presentList p interfaces, baseTypes.map p.handle,
      TypeRef.presentOption p elementType, isAnonymous⟩
/-- Types as they are presented. -/
def TypeRef.presentList (p : Presentation) : List TypeRef → List TypeRef
  | [] => []
  | type :: rest => type.present p :: TypeRef.presentList p rest
/-- A type that may be absent, as it is presented. -/
def TypeRef.presentOption (p : Presentation) : Option TypeRef → Option TypeRef
  | none => none
  | some type => some (type.present p)
end

namespace TypeRef

variable (p : Presentation)

theorem presentList_eq (types : List TypeRef) : presentList p types = types.map (present p) := by
  induction types with
  | nil => rfl
  | cons type rest ih => rw [presentList, ih, List.map_cons]

theorem presentOption_eq (type : Option TypeRef) : presentOption p type = type.map (present p) := by
  cases type <;> rfl

@[simp] theorem symbol_present (type : TypeRef) :
    (type.present p).symbol = type.symbol.map p.handle := by
  cases type
  rfl

@[simp] theorem display_present (type : TypeRef) :
    (type.present p).display = p.display type.display := by
  cases type
  rfl

@[simp] theorem typeArguments_present (type : TypeRef) :
    (type.present p).typeArguments = type.typeArguments.map (present p) := by
  cases type
  exact presentList_eq p _

@[simp] theorem interfaces_present (type : TypeRef) :
    (type.present p).interfaces = type.interfaces.map (present p) := by
  cases type
  exact presentList_eq p _

@[simp] theorem baseTypes_present (type : TypeRef) :
    (type.present p).baseTypes = type.baseTypes.map p.handle := by
  cases type
  rfl

@[simp] theorem elementType_present (type : TypeRef) :
    (type.present p).elementType = type.elementType.map (present p) := by
  cases type
  exact presentOption_eq p _

@[simp] theorem displayOrObject_present (type : TypeRef) :
    (type.present p).displayOrObject = p.shown type.displayOrObject := by
  rw [displayOrObject, display_present, Presentation.display, Presentation.shown]
  cases p.keepsDisplays <;> rfl

mutual
/-- With the display texts kept, different types stay different. -/
theorem present_injective {p : Presentation} (hkeeps : p.keepsDisplays = true) :
    (left right : TypeRef) → left.present p = right.present p → left = right
  | ⟨_, _, typeArguments, interfaces, _, elementType, _⟩,
    ⟨_, _, typeArguments', interfaces', _, elementType', _⟩, h => by
    simp only [present, mk.injEq, Presentation.display, hkeeps, if_true,
      p.map_handle_eq_iff] at h
    obtain ⟨hsymbol, hdisplay, harguments, hinterfaces, hbases, helement, hanonymous⟩ := h
    rw [mk.injEq]
    exact ⟨hsymbol, hdisplay, presentList_injective hkeeps _ _ harguments,
      presentList_injective hkeeps _ _ hinterfaces,
      (List.map_inj_right fun _ _ => p.handle_eq_iff.mp).mp hbases,
      presentOption_injective hkeeps _ _ helement, hanonymous⟩
theorem presentList_injective {p : Presentation} (hkeeps : p.keepsDisplays = true) :
    (left right : List TypeRef) → presentList p left = presentList p right → left = right
  | [], [], _ => rfl
  | [], _ :: _, h => by cases h
  | _ :: _, [], h => by cases h
  | type :: rest, type' :: rest', h => by
    simp only [presentList, List.cons.injEq] at h
    rw [present_injective hkeeps type type' h.1, presentList_injective hkeeps rest rest' h.2]
theorem presentOption_injective {p : Presentation} (hkeeps : p.keepsDisplays = true) :
    (left right : Option TypeRef) → presentOption p left = presentOption p right → left = right
  | none, none, _ => rfl
  | none, some _, h => by cases h
  | some _, none, h => by cases h
  | some type, some type', h => by
    simp only [presentOption, Option.some.injEq] at h
    rw [present_injective hkeeps type type' h]
end

end TypeRef

/-! ## Methods and attributes -/

/-- An argument of an attribute as it is presented. -/
def AttributeArgument.present (p : Presentation) (argument : AttributeArgument) :
    AttributeArgument :=
  { argument with type := argument.type.map (TypeRef.present p) }

/-- An attribute as it is presented. -/
def Attribute.present (p : Presentation) (applied : Attribute) : Attribute where
  type := p.handle applied.type
  constructorArguments := applied.constructorArguments.map (AttributeArgument.present p)
  namedArguments := applied.namedArguments.map (AttributeArgument.present p)

/-- A formal parameter as it is presented. -/
def ParameterSymbol.present (p : Presentation) (parameter : ParameterSymbol) :
    ParameterSymbol where
  name := parameter.name
  type := parameter.type.present p
  attributes := parameter.attributes.map (Attribute.present p)

/-- A method as it is presented. -/
def MethodRef.present (p : Presentation) (method : MethodRef) : MethodRef where
  symbol := p.handle method.symbol
  genericDefinition := method.genericDefinition.map p.handle
  name := method.name
  containingType := method.containingType.map p.handle
  typeArguments := method.typeArguments.map (TypeRef.present p)
  parameters := method.parameters.map (ParameterSymbol.present p)
  returnType := method.returnType.map (TypeRef.present p)

@[simp] theorem MethodRef.definition_present (p : Presentation) (method : MethodRef) :
    (method.present p).definition = p.handle method.definition := by
  unfold MethodRef.definition MethodRef.present
  cases method.genericDefinition <;> rfl

/-- Attributes are found by their class. -/
theorem Attribute.find?_present (p : Presentation) (type : SymbolId)
    (attributes : List Attribute) :
    (attributes.map (Attribute.present p)).find? (fun applied => applied.type == p.handle type) =
      (attributes.find? fun applied => applied.type == type).map (Attribute.present p) := by
  have htest : (fun applied : Attribute => applied.type == p.handle type) ∘ Attribute.present p =
      fun applied => applied.type == type := by
    funext applied
    exact p.handle_beq applied.type type
  rw [List.find?_map, htest]

theorem Attribute.argument?_present (p : Presentation) (applied : Attribute) (name : String) :
    (applied.present p).argument? name =
      (applied.argument? name).map (AttributeArgument.present p) := by
  -- the arguments keep their names, so the same one is found
  have hfind : ∀ arguments : List AttributeArgument,
      (arguments.map (AttributeArgument.present p)).find?
          (fun argument => Text.eqIgnoringCase argument.name name) =
        (arguments.find? fun argument => Text.eqIgnoringCase argument.name name).map
          (AttributeArgument.present p) := fun _ => List.find?_map
  simp only [argument?, present, hfind]
  cases applied.namedArguments.find? fun argument => Text.eqIgnoringCase argument.name name <;> rfl

/-! ## Expressions -/

mutual
/-- An expression as it is presented. -/
def Operation.present (p : Presentation) : Operation → Operation
  | ⟨type, constant, shape⟩ => ⟨type.map (TypeRef.present p), constant, shape.present p⟩
/-- An expression as it is presented in the place of a value: an argument or receiver, an element of
an array, a member of an anonymous object, an assigned value, an index, a declared initializer. -/
def Operation.presentValue (p : Presentation) : Operation → Operation
  | ⟨type, constant, shape⟩ =>
    (shape.presentUnder? p).getD ⟨type.map (TypeRef.present p), constant, shape.present p⟩
/-- The value under a conversion that is not kept. -/
def Shape.presentUnder? (p : Presentation) : Shape → Option Operation
  | .conversion operand => if p.keepsConversions then none else some (operand.presentValue p)
  | _ => none
/-- The kind of an expression as it is presented. The target of an assignment and the items of an
initializer are no values. -/
def Shape.present (p : Presentation) : Shape → Shape
  | .literal => .literal
  | .localReference name initializer => .localReference name (Operation.presentOption p initializer)
  | .parameterReference name => .parameterReference name
  | .fieldReference name initializer => .fieldReference name (Operation.presentOption p initializer)
  | .propertyReference name arguments => .propertyReference name (Argument.presentList p arguments)
  | .invocation call => .invocation (call.present p)
  | .objectCreation creation => .objectCreation (creation.present p)
  | .arrayCreation elements => .arrayCreation (Operation.presentValues p elements)
  | .anonymousObjectCreation members =>
    .anonymousObjectCreation (AnonymousMember.presentList p members)
  | .conversion operand => .conversion (operand.presentValue p)
  | .defaultValue => .defaultValue
  | .assignment target value => .assignment (target.present p) (value.presentValue p)
  | .other => .other
/-- An argument as it is presented. -/
def Argument.present (p : Presentation) : Argument → Argument
  | ⟨parameter, value⟩ => ⟨parameter.map (ParameterSymbol.present p), value.presentValue p⟩
/-- A member of an anonymous object as it is presented. -/
def AnonymousMember.present (p : Presentation) : AnonymousMember → AnonymousMember
  | ⟨name, value⟩ => ⟨name, value.presentValue p⟩
/-- A method call as it is presented. -/
def Invocation.present (p : Presentation) : Invocation → Invocation
  | ⟨method, receiver, arguments⟩ =>
    ⟨method.present p, Operation.presentOption p receiver, Argument.presentList p arguments⟩
/-- A constructor call as it is presented. -/
def ObjectCreation.present (p : Presentation) : ObjectCreation → ObjectCreation
  | ⟨method, arguments, initializer⟩ =>
    ⟨method.map (MethodRef.present p), Argument.presentList p arguments,
      Operation.presentInitializer p initializer⟩
/-- A value that may be absent, as it is presented. -/
def Operation.presentOption (p : Presentation) : Option Operation → Option Operation
  | none => none
  | some value => some (value.presentValue p)
/-- Values as they are presented. -/
def Operation.presentValues (p : Presentation) : List Operation → List Operation
  | [] => []
  | value :: rest => value.presentValue p :: Operation.presentValues p rest
/-- The items of an initializer as they are presented. -/
def Operation.presentItems (p : Presentation) : List Operation → List Operation
  | [] => []
  | item :: rest => item.present p :: Operation.presentItems p rest
/-- An initializer that may be absent, as it is presented. -/
def Operation.presentInitializer (p : Presentation) :
    Option (List Operation) → Option (List Operation)
  | none => none
  | some items => some (Operation.presentItems p items)
/-- Arguments as they are presented. -/
def Argument.presentList (p : Presentation) : List Argument → List Argument
  | [] => []
  | argument :: rest => argument.present p :: Argument.presentList p rest
/-- Members of an anonymous object as they are presented. -/
def AnonymousMember.presentList (p : Presentation) : List AnonymousMember → List AnonymousMember
  | [] => []
  | member :: rest => member.present p :: AnonymousMember.presentList p rest
end

section

variable (p : Presentation)

theorem Operation.presentValues_eq (values : List Operation) :
    Operation.presentValues p values = values.map (Operation.presentValue p) := by
  induction values with
  | nil => rfl
  | cons value rest ih => rw [Operation.presentValues, ih, List.map_cons]

theorem Operation.presentItems_eq (items : List Operation) :
    Operation.presentItems p items = items.map (Operation.present p) := by
  induction items with
  | nil => rfl
  | cons item rest ih => rw [Operation.presentItems, ih, List.map_cons]

theorem Argument.presentList_eq (arguments : List Argument) :
    Argument.presentList p arguments = arguments.map (Argument.present p) := by
  induction arguments with
  | nil => rfl
  | cons argument rest ih => rw [Argument.presentList, ih, List.map_cons]

@[simp] theorem Argument.value_present (argument : Argument) :
    (argument.present p).value = argument.value.presentValue p := by
  cases argument
  rfl

@[simp] theorem Argument.parameter_present (argument : Argument) :
    (argument.present p).parameter = argument.parameter.map (ParameterSymbol.present p) := by
  cases argument
  rfl

@[simp] theorem Invocation.method_present (call : Invocation) :
    (call.present p).method = call.method.present p := by
  cases call
  rfl

@[simp] theorem Invocation.arguments_present (call : Invocation) :
    (call.present p).arguments = call.arguments.map (Argument.present p) := by
  cases call
  exact Argument.presentList_eq p _

@[simp] theorem ObjectCreation.arguments_present (creation : ObjectCreation) :
    (creation.present p).arguments = creation.arguments.map (Argument.present p) := by
  cases creation
  exact Argument.presentList_eq p _

@[simp] theorem Operation.type_present (operation : Operation) :
    (operation.present p).type = operation.type.map (TypeRef.present p) := by
  cases operation
  rfl

@[simp] theorem Operation.constant_present (operation : Operation) :
    (operation.present p).constant = operation.constant := by
  cases operation
  rfl

@[simp] theorem Operation.shape_present (operation : Operation) :
    (operation.present p).shape = operation.shape.present p := by
  cases operation
  rfl

@[simp] theorem Operation.typeDisplay_present (operation : Operation) :
    (operation.present p).typeDisplay = p.shown operation.typeDisplay := by
  rw [typeDisplay, typeDisplay, type_present]
  cases operation.type with
  | some type => exact TypeRef.displayOrObject_present p type
  | none =>
    rw [Presentation.shown]
    cases p.keepsDisplays <;> rfl

@[simp] theorem Operation.constantString?_present (operation : Operation) :
    (operation.present p).constantString? = operation.constantString? := by
  rw [constantString?, constant_present]
  rfl

@[simp] theorem Operation.referenceName?_present (operation : Operation) :
    (operation.present p).referenceName? = operation.referenceName? := by
  obtain ⟨type, constant, shape⟩ := operation
  cases shape with
  | invocation call => exact congrArg (some ·.name) (Invocation.method_present p call)
  | _ => rfl

theorem Argument.isBoundTo_present (argument : Argument) (test : TypeRef → Bool) :
    (argument.present p).isBoundTo test = argument.isBoundTo fun type => test (type.present p) := by
  rw [isBoundTo, isBoundTo, parameter_present, Option.any_map]
  rfl

end

/-! ## Reading through conversions and initializers -/

section

variable (p : Presentation)

theorem Operation.presentValue_conversion (type : Option TypeRef) (constant : Option Constant)
    (operand : Operation) :
    (⟨type, constant, .conversion operand⟩ : Operation).presentValue p =
      if p.keepsConversions then
        ⟨type.map (TypeRef.present p), constant, .conversion (operand.presentValue p)⟩
      else operand.presentValue p := by
  simp only [presentValue, Shape.presentUnder?, Shape.present]
  cases p.keepsConversions <;> rfl

/-- What is under the conversions of a value, however many of them are kept. -/
theorem Operation.unwrap_presentValue : (value : Operation) →
    (value.presentValue p).unwrap = value.unwrap.present p
  | ⟨type, constant, shape⟩ => by
    cases shape with
    | conversion operand =>
      rw [presentValue_conversion]
      split <;> exact unwrap_presentValue operand
    | _ => rfl

/-- What is behind conversions and visible initializers, however many conversions are kept. -/
theorem Operation.origin_presentValue : (value : Operation) →
    (value.presentValue p).origin = value.origin.present p
  | ⟨type, constant, shape⟩ => by
    cases shape with
    | conversion operand =>
      rw [presentValue_conversion]
      split <;> exact origin_presentValue operand
    | localReference name initializer =>
      cases initializer with
      | none => rfl
      | some initializer => exact origin_presentValue initializer
    | fieldReference name initializer =>
      cases initializer with
      | none => rfl
      | some initializer => exact origin_presentValue initializer
    | _ => rfl

end

/-! ## Files -/

/-- A call as it is presented. -/
def CallSite.present (p : Presentation) (site : CallSite) : CallSite where
  span := site.span
  invocation := site.invocation.present p

/-- A declared method as it is presented. -/
def MethodDeclaration.present (p : Presentation) (declaration : MethodDeclaration) :
    MethodDeclaration where
  span := declaration.span
  method := declaration.method.present p
  attributes := declaration.attributes.map (Attribute.present p)

/-- A source file as it is presented. -/
def SourceFile.present (p : Presentation) (file : SourceFile) : SourceFile where
  path := file.path
  callSites := file.callSites.map (CallSite.present p)
  methods := file.methods.map (MethodDeclaration.present p)

end LogCensus
