import LogCensus.Operation
import LogCensus.Usage

/-!
# Outcomes of extraction

What a strategy makes of an argument: the parameters it found, whether it found all of them, and
whether it knew the shape of the argument at all. Also the parameter that a single value gives.
-/

namespace LogCensus

/-- The result of one strategy. -/
structure Outcome where
  strategy : Strategy
  parameters : List Parameter
  success : Bool
  /-- False only when the strategy does not know the shape of the argument. -/
  recognized : Bool
deriving DecidableEq

namespace Outcome

/-- A known shape, with the parameters found and whether they are all. -/
def found (strategy : Strategy) (parameters : List Parameter) (complete : Bool) : Outcome :=
  ⟨strategy, parameters, complete, true⟩

/-- A shape that the strategy does not know. -/
def unsupported (strategy : Strategy) : Outcome :=
  ⟨strategy, [], false, false⟩

/-- The report for the record. -/
def report (outcome : Outcome) : ExtractionReport :=
  ⟨some outcome.strategy, outcome.success⟩

end Outcome

/-- Where a value comes from, looking through conversions. A literal is a literal even when it is
constant; every other constant expression is a constant. -/
def Operation.provenance (value : Operation) : Provenance :=
  let inner := value.unwrap
  match inner.shape with
  | .literal => .literal
  | shape =>
    if inner.constant.isSome then .constant
    else match shape with
      | .localReference _ _ => .localReference
      | .parameterReference _ => .parameterReference
      | .fieldReference _ _ => .fieldReference
      | .propertyReference _ _ => .propertyReference
      | .invocation _ => .invocation
      | .objectCreation _ => .objectCreation
      | .arrayCreation _ => .collection
      | .anonymousObjectCreation _ => .anonymousObject
      | _ => .other

/-- The parameter of a value; its type is the one before any conversion. -/
def Parameter.ofValue (name : String) (value : Operation) : Parameter :=
  { name := name, type := value.unwrap.typeDisplay, kind := value.provenance }

end LogCensus
