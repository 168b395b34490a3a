import LogCensus.EventId.Codec
import LogCensus.Usage

/-!
# Usage records in JSON

The JSON forms of usage records and their parts, and their readers. A template, severity, event id,
report or tag that is absent is left out; the strategy of a report is written as null instead.
-/

namespace LogCensus

open Json

namespace CallKind

/-- The JSON form of a kind of call. -/
def toJson (kind : CallKind) : Json :=
  .string kind.name

/-- Reads a kind of call. -/
def ofJson? : Json → Option CallKind :=
  choice? name all

end CallKind

namespace Provenance

/-- The JSON form of a provenance. -/
def toJson (kind : Provenance) : Json :=
  .string kind.name

/-- Reads a provenance. -/
def ofJson? : Json → Option Provenance :=
  choice? name all

end Provenance

namespace Strategy

/-- The JSON form of a strategy. -/
def toJson (strategy : Strategy) : Json :=
  .string strategy.name

/-- Reads a strategy. -/
def ofJson? : Json → Option Strategy :=
  choice? name all

end Strategy

namespace Parameter

/-- The JSON form of a parameter. -/
def toJson (parameter : Parameter) : Json :=
  .object
    ([("name", .string parameter.name),
      ("type", .string parameter.type),
      ("kind", parameter.kind.toJson)] ++
     member? "customTagName" .string parameter.customTagName)

/-- Reads a parameter. -/
def ofJson? (value : Json) : Option Parameter := do
  let fields ← value.fields? ["name", "type", "kind", "customTagName"]
  return {
    name := ← fields.required "name" string?
    type := ← fields.required "type" string?
    kind := ← fields.required "kind" Provenance.ofJson?
    customTagName := ← fields.optional "customTagName" string? }

end Parameter

namespace ExtractionReport

/-- The JSON form of a report. -/
def toJson (report : ExtractionReport) : Json :=
  .object
    [("strategy", .ofOption Strategy.toJson report.strategy), ("success", .bool report.success)]

/-- Reads a report. -/
def ofJson? (value : Json) : Option ExtractionReport := do
  let fields ← value.fields? ["strategy", "success"]
  return {
    strategy := ← fields.optional "strategy" Strategy.ofJson?
    success := ← fields.required "success" bool? }

end ExtractionReport

namespace Location

/-- The JSON form of a place. -/
def toJson (location : Location) : Json :=
  .object
    [("filePath", .string location.filePath),
     ("startLine", .int location.startLine.toNat),
     ("endLine", .int location.endLine.toNat)]

/-- Reads a place. -/
def ofJson? (value : Json) : Option Location := do
  let fields ← value.fields? ["filePath", "startLine", "endLine"]
  return {
    filePath := ← fields.required "filePath" string?
    startLine := ← fields.required "startLine" uint64?
    endLine := ← fields.required "endLine" uint64? }

end Location

namespace UsageRecord

/-- The fields of a usage record, in order. -/
def fieldNames : List String :=
  ["methodType", "methodName", "messageTemplate", "logLevel", "eventId", "messageParameters",
   "extraction", "location"]

/-- The JSON form of a usage record. -/
def toJson (record : UsageRecord) : Json :=
  .object
    ([("methodType", record.kind.toJson), ("methodName", .string record.methodName)] ++
     member? "messageTemplate" .string record.messageTemplate ++
     member? "logLevel" Severity.toJson record.severity ++
     member? "eventId" EventId.toJson record.eventId ++
     [("messageParameters", .ofList Parameter.toJson record.parameters)] ++
     member? "extraction" ExtractionReport.toJson record.extraction ++
     [("location", record.location.toJson)])

/-- Reads a usage record. -/
def ofJson? (value : Json) : Option UsageRecord := do
  let fields ← value.fields? fieldNames
  return {
    kind := ← fields.required "methodType" CallKind.ofJson?
    methodName := ← fields.required "methodName" string?
    messageTemplate := ← fields.optional "messageTemplate" string?
    severity := ← fields.optional "logLevel" Severity.ofJson?
    eventId := ← fields.optional "eventId" EventId.ofJson?
    parameters := ← fields.required "messageParameters" (listOf? Parameter.ofJson?)
    extraction := ← fields.optional "extraction" ExtractionReport.ofJson?
    location := ← fields.required "location" Location.ofJson? }

end UsageRecord

end LogCensus
