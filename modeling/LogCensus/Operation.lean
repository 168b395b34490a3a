import LogCensus.Symbol

/-!
# Operations

The front end's rendering of expressions. An operation is a node with an optional static type, an
optional constant value and a shape: what kind of construct it is, and its parts. Everything that is
extracted from a call is read off these trees.

* `Operation.unwrap`: the expression under any number of conversions.
* `Operation.origin`: the expression behind conversions and visible initializers.
-/

namespace LogCensus

mutual
/-- One expression. -/
structure Operation where
  type : Option TypeRef := none
  constant : Option Constant := none
  shape : Shape
/-- The kind of an expression, with its parts. -/
inductive Shape where
  /-- A literal such as `42`, `"text"` or `null`. -/
  | literal
  /-- A local variable, with its declared initializer when it is visible. -/
  | localReference (name : String) (initializer : Option Operation)
  /-- A parameter of the enclosing method. -/
  | parameterReference (name : String)
  /-- A field, with its declared initializer when it is visible. -/
  | fieldReference (name : String) (initializer : Option Operation)
  /-- A property, or an indexer with its index arguments. -/
  | propertyReference (name : String) (arguments : List Argument)
  | invocation (call : Invocation)
  | objectCreation (creation : ObjectCreation)
  /-- An array, also the implicit one of a variable number of arguments. -/
  | arrayCreation (elements : List Operation)
  | anonymousObjectCreation (members : List AnonymousMember)
  /-- A conversion to the type of the outer node. -/
  | conversion (operand : Operation)
  /-- The default value of a type. -/
  | defaultValue
  | assignment (target value : Operation)
  /-- A construct that the front end does not describe. -/
  | other
/-- An argument bound to a formal parameter. -/
structure Argument where
  parameter : Option ParameterSymbol := none
  value : Operation
/-- A member of an anonymous object. -/
structure AnonymousMember where
  name : String
  value : Operation
/-- A method call. -/
structure Invocation where
  method : MethodRef
  receiver : Option Operation := none
  arguments : List Argument := []
/-- A constructor call, with the items of its initializer when it has one. -/
structure ObjectCreation where
  method : Option MethodRef := none
  arguments : List Argument := []
  initializer : Option (List Operation) := none
end

mutual
/-- The expression under any number of conversions. -/
def Operation.unwrap : Operation → Operation
  | ⟨type, constant, shape⟩ => shape.innermost?.getD ⟨type, constant, shape⟩
/-- The expression under a conversion and all conversions below it. -/
def Shape.innermost? : Shape → Option Operation
  | .conversion operand => some operand.unwrap
  | _ => none
end

mutual
/-- The expression that a value stands for: under conversions, and behind locals and fields whose
initializer is visible. -/
def Operation.origin : Operation → Operation
  | ⟨type, constant, shape⟩ => shape.origin?.getD ⟨type, constant, shape⟩
/-- The expression behind a conversion or behind a visible initializer. -/
def Shape.origin? : Shape → Option Operation
  | .conversion operand => some operand.origin
  | .localReference _ initializer => Operation.originOption initializer
  | .fieldReference _ initializer => Operation.originOption initializer
  | _ => none
/-- The expression behind an initializer that may be absent. -/
def Operation.originOption : Option Operation → Option Operation
  | none => none
  | some initializer => some initializer.origin
end

namespace Operation

/-- The declared initializer behind a local or a field. -/
def initializer? (operation : Operation) : Option Operation :=
  match operation.shape with
  | .localReference _ initializer => initializer
  | .fieldReference _ initializer => initializer
  | _ => none

/-- The display text of the static type, `object` when there is none. -/
def typeDisplay (operation : Operation) : String :=
  operation.type.elim "object" TypeRef.displayOrObject

/-- The text of a constant string. -/
def constantString? (operation : Operation) : Option String :=
  operation.constant.bind Constant.asString?

/-- The name of the symbol that an expression refers to. -/
def referenceName? (operation : Operation) : Option String :=
  match operation.shape with
  | .localReference name _ => some name
  | .parameterReference name => some name
  | .fieldReference name _ => some name
  | .propertyReference name _ => some name
  | .invocation call => some call.method.name
  | _ => none

end Operation

/-- Whether the argument is bound to a parameter whose type passes a test. -/
def Argument.isBoundTo (argument : Argument) (test : TypeRef → Bool) : Bool :=
  argument.parameter.any fun parameter => test parameter.type

end LogCensus
