import LogCensus.Analysis.Content

/-!
# Starts of scopes

A scope attaches values to every message inside it. The logger itself takes a state object; the
extension class takes a template and an array of values.
-/

namespace LogCensus.Scope

/-- Whether a call starts a scope with a state object. -/
def startsWithState (table : WellKnown) (call : Invocation) : Bool :=
  table.scopeMethods.contains call.method.definition

/-- Whether a call starts a scope with a template. -/
def startsWithTemplate (table : WellKnown) (call : Invocation) : Bool :=
  table.scopeExtensionMethods.contains call.method.definition

/-- What the state of a call says; none when the call has no state. -/
def reading? (table : WellKnown) (call : Invocation) : Option StateReading :=
  (Analysis.state? table call.method call.arguments).map (.ofState table)

/-- The content of a call with a state object. -/
def stateContent (table : WellKnown) (call : Invocation) : Content :=
  (reading? table call).elim {} (.ofState none)

/-- The content of a call with a template. -/
def templateContent (table : WellKnown) (call : Invocation) : Content :=
  let template := Analysis.template? table call.arguments
  match Analysis.values? call.arguments with
  | some values => .ofValues template values
  | none => .ofTemplate template

/-- The content of a call; none when it starts no scope. -/
def content? (table : WellKnown) (call : Invocation) : Option Content :=
  if startsWithState table call then some (stateContent table call)
  else if startsWithTemplate table call then some (templateContent table call)
  else none

/-- The record of a call; none when it starts no scope. A scope has neither severity nor event
identifier. -/
def record? (table : WellKnown) (path : String) (site : CallSite) : Option UsageRecord :=
  (content? table site.invocation).map fun content =>
    content.record .beginScope site.invocation.method.name none none (.ofSpan path site.span)

/-- The records of a file. -/
def records (table : WellKnown) (file : SourceFile) : List UsageRecord :=
  file.callSites.filterMap (record? table file.path)

/-- What there is to say about one call. -/
def siteDiagnostics (table : WellKnown) (site : CallSite) : List Diagnostic :=
  if startsWithState table site.invocation then
    (reading? table site.invocation).elim [] StateReading.diagnostics
  else []

/-- What there is to say about a file. -/
def diagnostics (table : WellKnown) (file : SourceFile) : List Diagnostic :=
  if table.scopeMethods.isEmpty && table.scopeExtensionMethods.isEmpty then
    [.noScopeMethods file.path]
  else file.callSites.flatMap (siteDiagnostics table)

end LogCensus.Scope
