import LogCensus.Operation
import LogCensus.WellKnown

/-!
# Arguments of a logging call

Arguments are told apart by the types of the parameters they are bound to, never by position: the
template is bound to a string, the severity to the enumeration of severities, the values to an
array. The state of a generic call is bound to the method's type argument; when nothing is, it is
the first argument that is none of logger, severity, event identifier and exception.
-/

namespace LogCensus

namespace Argument

/-- Whether the argument is bound to an array, as the values of a formatted message are. -/
def isValueArray (argument : Argument) : Bool :=
  argument.isBoundTo fun type => type.elementType.isSome

/-- Whether the argument has a role of its own in a logging call. -/
def hasFrameworkRole (table : WellKnown) (argument : Argument) : Bool :=
  argument.isBoundTo fun type =>
    table.isLogger type || table.isLogLevel type || table.isEventId type || table.isException type

/-- The test that the state of a generic call passes first. -/
def isState (table : WellKnown) (method : MethodRef) (arguments : List Argument) :
    Argument → Bool :=
  match method.typeArguments with
  | [type] =>
    let hasStateType := fun argument : Argument => argument.isBoundTo fun bound => bound == type
    if arguments.any hasStateType then hasStateType
    else fun argument => !argument.hasFrameworkRole table
  | _ => fun argument => !argument.hasFrameworkRole table

end Argument

namespace Analysis

/-- The constant text of the first argument bound to a string. -/
def template? (table : WellKnown) (arguments : List Argument) : Option String := do
  let argument ← arguments.find? fun argument => argument.isBoundTo table.isString
  argument.value.unwrap.constantString?

/-- The constant severity of the first argument bound to a severity. -/
def severity? (table : WellKnown) (arguments : List Argument) : Option Severity := do
  let argument ← arguments.find? fun argument => argument.isBoundTo table.isLogLevel
  Severity.ofConstant? (← argument.value.unwrap.constant)

/-- The argument with the values of a formatted message. -/
def values? (arguments : List Argument) : Option Operation :=
  (arguments.find? Argument.isValueArray).map Argument.value

/-- The argument with the state of a generic call. -/
def state? (table : WellKnown) (method : MethodRef) (arguments : List Argument) :
    Option Operation :=
  (arguments.find? (Argument.isState table method arguments)).map Argument.value

end Analysis

end LogCensus
