import LogCensus.Analysis.Content
import LogCensus.EventId.Resolve

/-!
# Calls of log methods

The methods that write one message: those of the extension class, with a template and an array of
values, and the method of the logger itself, whose state carries the values.
-/

namespace LogCensus.LogCall

/-- Whether a method belongs to the logger itself and not to the extension class. -/
def takesState (table : WellKnown) (method : MethodRef) : Bool :=
  table.logger.isSome && method.containingType == table.logger

/-- The severity of a call: implied by the method, else given as an argument. -/
def severity? (table : WellKnown) (source : SeveritySource) (arguments : List Argument) :
    Option Severity :=
  source.severity?.or (Analysis.severity? table arguments)

/-- The content of a call: from an array of values, else from the state, else from the template. -/
def content (table : WellKnown) (call : Invocation) : Content :=
  let template := Analysis.template? table call.arguments
  -- any argument bound to an array is taken for the values, also a state that is an array
  match Analysis.values? call.arguments with
  | some values => .ofValues template values
  | none =>
    let state :=
      if takesState table call.method then
        Analysis.state? table call.method call.arguments
      else none
    match state with
    | some state => .ofState template (.ofState table state)
    | none => .ofTemplate template

/-- The record of a call; none when it calls no log method. -/
def record? (table : WellKnown) (path : String) (site : CallSite) : Option UsageRecord :=
  let call := site.invocation
  (table.severitySource? call.method.definition).map fun source =>
    (content table call).record .logMethod call.method.name (severity? table source call.arguments)
      (EventId.resolve table call.arguments).eventId? (.ofSpan path site.span)

/-- The records of a file. -/
def records (table : WellKnown) (file : SourceFile) : List UsageRecord :=
  file.callSites.filterMap (record? table file.path)

/-- What there is to say about one call. -/
def siteDiagnostics (table : WellKnown) (site : CallSite) : List Diagnostic :=
  if (table.severitySource? site.invocation.method.definition).isSome then
    (EventId.resolve table site.invocation.arguments).diagnostics
  else []

/-- What there is to say about a file. -/
def diagnostics (table : WellKnown) (file : SourceFile) : List Diagnostic :=
  if table.logMethods.isEmpty then [.noLogMethods file.path]
  else file.callSites.flatMap (siteDiagnostics table)

end LogCensus.LogCall
