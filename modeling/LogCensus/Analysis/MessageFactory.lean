import LogCensus.Analysis.Content
import LogCensus.EventId.Resolve
import LogCensus.Extraction.TypeArguments

/-!
# Calls of the message factory

Delegates that write a message or start a scope, built once from a template. The type arguments of
the call say the types of the values. A delegate that starts a scope has neither severity nor event
identifier.
-/

namespace LogCensus.MessageFactory

/-- Whether a call builds a delegate that starts a scope. -/
def buildsScope (table : WellKnown) (call : Invocation) : Bool :=
  table.defineScopeMethods.contains call.method.definition

/-- Whether a call builds a delegate that writes a message. -/
def buildsMessage (table : WellKnown) (call : Invocation) : Bool :=
  table.defineMethods.contains call.method.definition

/-- The content of a call of the factory. -/
def content (table : WellKnown) (call : Invocation) : Content :=
  let template := Analysis.template? table call.arguments
  .ofOutcome template (TypeArguments.extract call.method (placeholders template))

/-- The record of a call; none when it does not call the factory. -/
def record? (table : WellKnown) (path : String) (site : CallSite) : Option UsageRecord :=
  let call := site.invocation
  let location := Location.ofSpan path site.span
  if buildsScope table call then
    some ((content table call).record .messageDefine call.method.name none none location)
  else if buildsMessage table call then
    some ((content table call).record .messageDefine call.method.name
      (Analysis.severity? table call.arguments)
      (EventId.resolve table call.arguments).eventId? location)
  else none

/-- The records of a file. -/
def records (table : WellKnown) (file : SourceFile) : List UsageRecord :=
  file.callSites.filterMap (record? table file.path)

/-- What there is to say about one call. -/
def siteDiagnostics (table : WellKnown) (site : CallSite) : List Diagnostic :=
  let call := site.invocation
  if !buildsScope table call && buildsMessage table call then
    (EventId.resolve table call.arguments).diagnostics
  else []

/-- What there is to say about a file. -/
def diagnostics (table : WellKnown) (file : SourceFile) : List Diagnostic :=
  if table.loggerMessage.isNone then [.noMessageFactory file.path]
  else file.callSites.flatMap (siteDiagnostics table)

end LogCensus.MessageFactory
