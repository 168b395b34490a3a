import LogCensus.Analysis.Content
import LogCensus.Extraction.MethodSignature

/-!
# Declared message methods

Methods declared with the message attribute, whose body is generated. The attribute gives template,
severity and event identifier; the formal parameters carry the values.
-/

namespace LogCensus.MessageMethod

/-- The constant of an argument of the attribute. -/
def constant? (applied : Attribute) (name : String) : Option Constant := do
  (← applied.argument? name).value

/-- One half of an event identifier from a constant; null says nothing. -/
def eventPart : Option Constant → EventPart
  | some value => if value.isNull then .missing else .constant value
  | none => .missing

/-- The event identifier of the attribute; none when it gives neither half. -/
def eventId? (applied : Attribute) : Option EventId :=
  match constant? applied "eventId", constant? applied "eventName" with
  | none, none => none
  | id, name => some (.details (eventPart id) (eventPart name))

/-- The template of the attribute. -/
def template? (applied : Attribute) : Option String := do
  (← constant? applied "message").asString?

/-- The severity of the attribute. -/
def severity? (applied : Attribute) : Option Severity := do
  Severity.ofConstant? (← constant? applied "level")

/-- The first message attribute of a declaration. -/
def applied? (table : WellKnown) (declaration : MethodDeclaration) : Option Attribute := do
  let type ← table.loggerMessageAttribute
  declaration.attributes.find? fun applied => applied.type == type

/-- The record of a declaration; none when it has no message attribute. -/
def record? (table : WellKnown) (path : String) (declaration : MethodDeclaration) :
    Option UsageRecord :=
  (applied? table declaration).map fun applied =>
    let template := template? applied
    let outcome := MethodSignature.extract table declaration.method (placeholders template)
    (Content.ofOutcome template outcome).record .messageAttribute declaration.method.name
      (severity? applied) (eventId? applied) (.ofSpan path declaration.span)

/-- The records of a file. -/
def records (table : WellKnown) (file : SourceFile) : List UsageRecord :=
  file.methods.filterMap (record? table file.path)

/-- What there is to say about a file. -/
def diagnostics (table : WellKnown) (file : SourceFile) : List Diagnostic :=
  if table.loggerMessageAttribute.isNone then [.noMessageAttribute file.path] else []

end LogCensus.MessageMethod
