import LogCensus.Proofs.Symbol.Storage
import LogCensus.Usage.Codec

/-!
# Stored usage records

Usage records written to JSON and read back. A record can always be read back, whatever it leaves
out; only a constant that is no finite number has no JSON form and comes back as null.

* `constants`: the constants in an event identifier.
* `ofJson?_toJson`: what is written for `x` is read as `x.written`.
* `written_eq_self_iff`: nothing is lost when all constants have a JSON form.
* `UsageRecord.storage_lossless_iff`: which records come back as they are.
-/

namespace LogCensus

open Json

/-! ## Names -/

theorem CallKind.ofJson?_toJson (kind : CallKind) : ofJson? kind.toJson = some kind := by
  cases kind <;> rfl

theorem Provenance.ofJson?_toJson (kind : Provenance) : ofJson? kind.toJson = some kind := by
  cases kind <;> rfl

theorem Severity.ofJson?_toJson (severity : Severity) :
    ofJson? severity.toJson = some severity := by
  cases severity <;> rfl

theorem ReferenceKind.ofJson?_toJson (kind : ReferenceKind) :
    ofJson? kind.toJson = some kind := by
  cases kind <;> rfl

/-! ## Constants -/

namespace Constant

/-- The constant that comes back: null in place of one that has no JSON form. -/
def written : Constant → Constant
  | .float value => if value.isFinite then .float value else .null
  | constant => constant

theorem written_eq_self_iff {constant : Constant} :
    constant.written = constant ↔ constant.IsFinite := by
  cases constant with
  | float value =>
    rw [written, IsFinite]
    cases value.isFinite <;> simp
  | _ => exact iff_of_true rfl trivial

/-- A constant that is not finite is read as the null that is written for it. -/
theorem ofJson?_toJson_eq_written (constant : Constant) :
    ofJson? constant.toJson = some constant.written := by
  by_cases hfinite : constant.IsFinite
  · rw [ofJson?_toJson hfinite, written_eq_self_iff.mpr hfinite]
  · cases constant with
    | float value =>
      rw [IsFinite] at hfinite
      rw [toJson, written, if_neg hfinite, if_neg hfinite]
      rfl
    | _ => exact absurd trivial hfinite

end Constant

/-! ## Event identifiers -/

namespace EventPart

/-- The constant that the half is, if it is one. -/
def constants : EventPart → List Constant
  | .constant value => [value]
  | _ => []

/-- The half that comes back. -/
def written : EventPart → EventPart
  | .constant value => .constant value.written
  | part => part

theorem written_eq_self_iff {part : EventPart} :
    part.written = part ↔ ∀ constant ∈ part.constants, constant.IsFinite := by
  cases part with
  | constant value =>
    rw [written, constants, constant.injEq, Constant.written_eq_self_iff, List.forall_mem_singleton]
  | _ => exact iff_of_true rfl (List.forall_mem_nil _)

theorem ofJson?_toJson (part : EventPart) : ofJson? part.toJson = some part.written := by
  cases part with
  | missing => rfl
  | constant value =>
    show (do return .constant (← Constant.ofJson? value.toJson)) = some (constant value.written)
    rw [value.ofJson?_toJson_eq_written]
    rfl
  | reference kind name =>
    show (do return .reference (← ReferenceKind.ofJson? kind.toJson) name) =
      some (reference kind name)
    rw [kind.ofJson?_toJson]
    rfl

end EventPart

namespace EventId

/-- The constants in both halves. -/
def constants : EventId → List Constant
  | .details id name => id.constants ++ name.constants
  | .reference _ _ => []

/-- The identifier that comes back. -/
def written : EventId → EventId
  | .details id name => .details id.written name.written
  | .reference kind name => .reference kind name

theorem written_eq_self_iff {eventId : EventId} :
    eventId.written = eventId ↔ ∀ constant ∈ eventId.constants, constant.IsFinite := by
  cases eventId with
  | details id name =>
    rw [written, constants, details.injEq, EventPart.written_eq_self_iff,
      EventPart.written_eq_self_iff, List.forall_mem_append]
  | reference kind name => exact iff_of_true rfl (List.forall_mem_nil _)

theorem toJson_ne_null (eventId : EventId) : eventId.toJson ≠ .null := by
  cases eventId <;> exact nofun

theorem ofJson?_toJson (eventId : EventId) : ofJson? eventId.toJson = some eventId.written := by
  cases eventId with
  | details id name =>
    show (do return .details (← EventPart.ofJson? id.toJson) (← EventPart.ofJson? name.toJson)) =
      some (details id.written name.written)
    rw [id.ofJson?_toJson, name.ofJson?_toJson]
    rfl
  | reference kind name =>
    show (do return .reference (← ReferenceKind.ofJson? kind.toJson) name) =
      some (reference kind name)
    rw [kind.ofJson?_toJson]
    rfl

end EventId

/-! ## Parts of a record -/

/-- A tag name that is left out is none. -/
theorem Parameter.ofJson?_toJson (parameter : Parameter) :
    ofJson? parameter.toJson = some parameter := by
  obtain ⟨name, type, kind, customTagName⟩ := parameter
  have hread : ofJson? (toJson ⟨name, type, kind, customTagName⟩) =
      (Provenance.ofJson? kind.toJson).bind fun kind => some ⟨name, type, kind, customTagName⟩ := by
    cases customTagName <;> rfl
  rw [hread, kind.ofJson?_toJson, Option.bind_some]

/-- A strategy that is null is none. -/
theorem ExtractionReport.ofJson?_toJson (report : ExtractionReport) :
    ofJson? report.toJson = some report := by
  obtain ⟨strategy, success⟩ := report
  cases strategy with
  | none => rfl
  | some strategy => cases strategy <;> rfl

theorem Location.ofJson?_toJson (location : Location) :
    ofJson? location.toJson = some location := by
  obtain ⟨filePath, startLine, endLine⟩ := location
  show (do
    return ({
      filePath := filePath
      startLine := ← uint64? (.int startLine.toNat)
      endLine := ← uint64? (.int endLine.toNat) } : Location)) = _
  rw [uint64?_toNat, uint64?_toNat]
  rfl

/-! ## Records -/

namespace UsageRecord

/-- The constants in the event identifier, if there is one. -/
def constants (record : UsageRecord) : List Constant :=
  record.eventId.elim [] EventId.constants

/-- The record that comes back. -/
def written (record : UsageRecord) : UsageRecord :=
  { record with eventId := record.eventId.map EventId.written }

theorem written_eq_self_iff {record : UsageRecord} :
    record.written = record ↔ ∀ constant ∈ record.constants, constant.IsFinite := by
  obtain ⟨kind, methodName, template, severity, eventId, parameters, extraction, location⟩ := record
  cases eventId with
  | none => exact iff_of_true rfl (List.forall_mem_nil _)
  | some eventId => simp [written, constants, EventId.written_eq_self_iff]

/-- The members that are written for a record. -/
def members (record : UsageRecord) : List (String × Json) :=
  [("methodType", record.kind.toJson), ("methodName", .string record.methodName)] ++
    member? "messageTemplate" .string record.messageTemplate ++
    member? "logLevel" Severity.toJson record.severity ++
    member? "eventId" EventId.toJson record.eventId ++
    [("messageParameters", .ofList Parameter.toJson record.parameters)] ++
    member? "extraction" ExtractionReport.toJson record.extraction ++
    [("location", record.location.toJson)]

/-- The members are fields of a record, in order and none of them twice. -/
theorem fields?_toJson (record : UsageRecord) :
    record.toJson.fields? fieldNames = some ⟨record.members⟩ := by
  refine fields?_object_of_sublist ?_ (by decide)
  simp only [List.map_append]
  have hhead := List.Sublist.refl ["methodType", "methodName"]
  have htemplate := keys_member?_sublist "messageTemplate" Json.string record.messageTemplate
  have hseverity := keys_member?_sublist "logLevel" Severity.toJson record.severity
  have heventId := keys_member?_sublist "eventId" EventId.toJson record.eventId
  have hparameters := List.Sublist.refl ["messageParameters"]
  have hextraction := keys_member?_sublist "extraction" ExtractionReport.toJson record.extraction
  have hlocation := List.Sublist.refl ["location"]
  exact (((((hhead.append htemplate).append hseverity).append heventId).append hparameters).append
    hextraction).append hlocation

/-- The value of a field is that of the member with its name. -/
theorem get?_members (record : UsageRecord) :
    let fields : Fields := ⟨record.members⟩
    fields.get? "methodType" = some record.kind.toJson ∧
    fields.get? "methodName" = some (.string record.methodName) ∧
    fields.get? "messageTemplate" = record.messageTemplate.map .string ∧
    fields.get? "logLevel" = record.severity.map Severity.toJson ∧
    fields.get? "eventId" = record.eventId.map EventId.toJson ∧
    fields.get? "messageParameters" = some (.ofList Parameter.toJson record.parameters) ∧
    fields.get? "extraction" = record.extraction.map ExtractionReport.toJson ∧
    fields.get? "location" = some record.location.toJson := by
  simp [Fields.get?, members, List.lookup_append, List.lookup_cons, lookup_member?]

/-- Every record is read back, with a null for each constant that has no JSON form. -/
theorem ofJson?_toJson (record : UsageRecord) : ofJson? record.toJson = some record.written := by
  let fields : Fields := ⟨record.members⟩
  obtain ⟨hkind, hname, htemplate, hseverity, heventId, hparameters, hextraction, hlocation⟩ :=
    record.get?_members
  have hkind : fields.required "methodType" CallKind.ofJson? = some record.kind :=
    Fields.required_eq_some hkind record.kind.ofJson?_toJson
  have hname : fields.required "methodName" string? = some record.methodName :=
    Fields.required_eq_some hname rfl
  have htemplate : fields.optional "messageTemplate" string? = some record.messageTemplate :=
    Fields.optional_eq_self htemplate (fun _ => nofun) fun _ => rfl
  have hseverity : fields.optional "logLevel" Severity.ofJson? = some record.severity :=
    Fields.optional_eq_self hseverity (fun _ => nofun) Severity.ofJson?_toJson
  have heventId : fields.optional "eventId" EventId.ofJson? =
      some (record.eventId.map EventId.written) :=
    Fields.optional_eq_some heventId EventId.toJson_ne_null EventId.ofJson?_toJson
  have hparameters : fields.required "messageParameters" (listOf? Parameter.ofJson?) =
      some record.parameters :=
    Fields.required_eq_some hparameters (listOf?_ofList Parameter.ofJson?_toJson _)
  have hextraction : fields.optional "extraction" ExtractionReport.ofJson? =
      some record.extraction :=
    Fields.optional_eq_self hextraction (fun _ => nofun) ExtractionReport.ofJson?_toJson
  have hlocation : fields.required "location" Location.ofJson? = some record.location :=
    Fields.required_eq_some hlocation record.location.ofJson?_toJson
  rw [ofJson?, fields?_toJson]
  show (do
    return ({
      kind := ← fields.required "methodType" CallKind.ofJson?
      methodName := ← fields.required "methodName" string?
      messageTemplate := ← fields.optional "messageTemplate" string?
      severity := ← fields.optional "logLevel" Severity.ofJson?
      eventId := ← fields.optional "eventId" EventId.ofJson?
      parameters := ← fields.required "messageParameters" (listOf? Parameter.ofJson?)
      extraction := ← fields.optional "extraction" ExtractionReport.ofJson?
      location := ← fields.required "location" Location.ofJson? } : UsageRecord)) = _
  rw [hkind, hname, htemplate, hseverity, heventId, hparameters, hextraction, hlocation]
  rfl

/-- A usage record comes back from its JSON form as it is exactly when its constants have JSON
forms, which only infinities and undefined numbers have not. Whatever the record has or leaves out
otherwise, nothing of it is lost. -/
theorem storage_lossless_iff (record : UsageRecord) :
    ofJson? record.toJson = some record ↔ ∀ constant ∈ record.constants, constant.IsFinite := by
  rw [ofJson?_toJson, Option.some.injEq, written_eq_self_iff]

end UsageRecord

end LogCensus
