import LogCensus.Analysis.Arguments
import LogCensus.Extraction.ArrayLiteral
import LogCensus.Extraction.State
import LogCensus.Template

/-!
# Content of a logging call

The template, the parameters and the extraction report of one call. They come from an array of
values, from a state object, or from the template alone.

* `StateReading.ofState`: what a state object says.
* `Content.ofValues`, `Content.ofState`, `Content.ofTemplate`: the content in each case.
-/

namespace LogCensus

/-- The placeholders of a template that may be absent. -/
def placeholders (template : Option String) : List String :=
  template.elim [] Template.parse

/-- What a state object says. -/
inductive StateReading where
  /-- A strategy knows its shape. -/
  | values (outcome : Outcome)
  /-- A constant text, which is the template itself. -/
  | text (template : String)
  /-- Nothing is known but the type. -/
  | unknown (type : String)
deriving DecidableEq

namespace StateReading

/-- Reads a state object: first by the strategies, then as a constant text. -/
def ofState (table : WellKnown) (state : Operation) : StateReading :=
  match Outcome.ofState? table state with
  | some outcome => .values outcome
  | none =>
    match state.unwrap.constantString? with
    | some template => .text template
    | none => .unknown state.typeDisplay

/-- The parameters that a state carries. -/
def parameters : StateReading → List Parameter
  | .values outcome => outcome.parameters
  | _ => []

/-- The report on a state. A constant text supplies no values, so it is complete only without
placeholders. -/
def report : StateReading → ExtractionReport
  | .values outcome => outcome.report
  | .text template => ⟨some .templateOnly, (Template.parse template).isEmpty⟩
  | .unknown _ => ⟨none, false⟩

/-- The template that a state is itself. -/
def template? : StateReading → Option String
  | .text template => some template
  | _ => none

/-- What there is to say about the state of a scope. -/
def diagnostics : StateReading → List Diagnostic
  | .unknown type => [.unrecognizedScopeState type]
  | _ => []

end StateReading

/-- The content of one call. -/
structure Content where
  template : Option String := none
  parameters : List Parameter := []
  extraction : Option ExtractionReport := none
deriving DecidableEq

namespace Content

/-- The content of a strategy's outcome. -/
def ofOutcome (template : Option String) (outcome : Outcome) : Content :=
  ⟨template, outcome.parameters, some outcome.report⟩

/-- The content of a template and an array of values. -/
def ofValues (template : Option String) (values : Operation) : Content :=
  ofOutcome template (ArrayLiteral.extract values (placeholders template))

/-- The content of a template without values: a failure when values are expected. -/
def ofTemplate (template : Option String) : Content :=
  ⟨template, [], if (placeholders template).isEmpty then none else some ⟨none, false⟩⟩

/-- The content of a state object; a constant text replaces the template. -/
def ofState (template : Option String) (reading : StateReading) : Content :=
  ⟨reading.template? <|> template, reading.parameters, some reading.report⟩

/-- The record of a call with the given content. -/
def record (content : Content) (kind : CallKind) (methodName : String)
    (severity : Option Severity) (eventId : Option EventId) (location : Location) : UsageRecord :=
  { kind := kind
    methodName := methodName
    messageTemplate := content.template
    severity := severity
    eventId := eventId
    parameters := content.parameters
    extraction := content.extraction
    location := location }

end Content

end LogCensus
