import LogCensus.EventId
import LogCensus.Operation
import LogCensus.WellKnown

/-!
# Resolution of event identifiers

Finds the argument of a call that is bound to an event identifier and says what is known about it. A
created identifier is read from its arguments, an integer converts to an identifier without a name,
and a symbol of identifier type is kept as a reference. A default value, a creation without
arguments and a constant zero without a name stand for no identifier.

* `EventId.resolveValue`: the identifier of one expression.
* `EventId.resolve`: the identifier of a call.
-/

namespace LogCensus

/-- What is known about an expression of identifier type. -/
inductive EventIdResolution where
  /-- The expression stands for no identifier. -/
  | absent
  | found (id : EventId)
  /-- The expression has identifier type, but refers to no symbol. -/
  | unresolvable (type : String)
deriving DecidableEq

namespace EventIdResolution

/-- The identifier, if one was found. -/
def eventId? : EventIdResolution → Option EventId
  | .found id => some id
  | _ => none

/-- What there is to say about a resolution. -/
def diagnostics : EventIdResolution → List Diagnostic
  | .unresolvable type => [.unresolvableEventId type]
  | _ => []

end EventIdResolution

/-- The kind of symbol that an expression refers to. -/
def Operation.referenceKind? (operation : Operation) : Option ReferenceKind :=
  match operation.shape with
  | .localReference _ _ => some .localVariable
  | .parameterReference _ => some .parameter
  | .fieldReference _ _ => some .field
  | .propertyReference _ _ => some .property
  | .invocation _ => some .methodResult
  | _ => none

/-- Whether an expression is the default value of its type. -/
def Operation.isDefaultValue (operation : Operation) : Bool :=
  match operation.shape with
  | .defaultValue => true
  | _ => false

namespace EventPart

/-- What an expression says as one half of an identifier. A null and a default value say nothing. -/
def ofOperation (value : Operation) : EventPart :=
  let inner := value.unwrap
  match inner.constant with
  | some known => if known.isNull then .missing else .constant known
  | none =>
    if inner.isDefaultValue then .missing
    else .reference (inner.referenceKind?.getD .other) (inner.referenceName?.getD inner.typeDisplay)

/-- Whether the half is the integer zero. -/
def isZero : EventPart → Bool
  | .constant value => value.asInt? == some 0
  | _ => false

end EventPart

namespace EventId

/-- The argument of a created identifier for a parameter: by the parameter's name, or by position
when no argument has a parameter. -/
def creationArgument? (arguments : List Argument) (name : String) (position : Nat) :
    Option Argument :=
  let named := arguments.find? fun argument =>
    argument.parameter.any fun parameter => Text.eqIgnoringCase parameter.name name
  match named with
  | some argument => some argument
  | none =>
    if arguments.any fun argument => argument.parameter.isSome then none
    else arguments[position]?

/-- One half of a created identifier. -/
def creationPart (arguments : List Argument) (name : String) (position : Nat) : EventPart :=
  (creationArgument? arguments name position).elim .missing fun argument =>
    .ofOperation argument.value

/-- The identifier with the given halves; zero without a name is no identifier. -/
def ofParts (id name : EventPart) : EventIdResolution :=
  if id.isZero && name.isMissing then .absent else .found (.details id name)

/-- The identifier of an expression that is neither a creation nor a default value. -/
def ofReference (table : WellKnown) (inner : Operation) : EventIdResolution :=
  if inner.type.any table.isEventId then
    match inner.referenceKind? with
    | some kind => .found (.reference kind (inner.referenceName?.getD ""))
    | none => .unresolvable inner.typeDisplay
  else
    -- an expression of another type, such as an integer, converts to an identifier
    let id := EventPart.ofOperation inner
    if id.isMissing then .absent else ofParts id .missing

/-- The identifier of an expression. -/
def resolveValue (table : WellKnown) (value : Operation) : EventIdResolution :=
  let inner := value.unwrap
  match inner.shape with
  | .objectCreation creation =>
    if creation.arguments.isEmpty then .absent
    else ofParts (creationPart creation.arguments "id" 0) (creationPart creation.arguments "name" 1)
  | .defaultValue => .absent
  | _ => ofReference table inner

/-- The identifier of a call: that of the first argument bound to a parameter of identifier type. -/
def resolve (table : WellKnown) (arguments : List Argument) : EventIdResolution :=
  let bound := arguments.find? fun argument => argument.isBoundTo table.isEventId
  bound.elim .absent fun argument => resolveValue table argument.value

end EventId

end LogCensus
