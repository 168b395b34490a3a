import LogCensus.Proofs.Presentation.Records
import Mathlib.Data.List.Forall2

/-!
# What display texts decide

Display texts are there to be shown. The types that matter are told apart by handles, with one
exception: the state of a generic call is the argument whose type equals the type argument of the
method, and types are equal only if their display texts are. A change of display texts therefore
leaves what is recognised and how it is described as they are, and leaves what is read from the
values of a call as it is if it leaves these comparisons alone. It may make them come out
differently, and then another argument may be taken for the state.

* `UsageRecord.SameOutline`, `UsageRecord.SameButDisplays`: what two records have in common.
* `CallSite.stateBindings`: the comparisons that decide the state of a call.
* `CallSite.callsLogger`: the calls that are described by their state.
* `displays_affect_state_only`: the records of files that differ in display texts alone.
-/

namespace LogCensus

/-- The same program without display texts. -/
def Presentation.withoutDisplays : Presentation where
  handle := id
  handle_injective := Function.injective_id
  keepsDisplays := false
  keepsConversions := true

/-- A file without the display texts of its types, at any depth. -/
def SourceFile.withoutDisplays (file : SourceFile) : SourceFile :=
  file.present .withoutDisplays

/-- Which arguments of a call are bound to the type that its method is constructed for. -/
def CallSite.stateBindings (site : CallSite) : List Bool :=
  Analysis.stateBindings site.invocation.method site.invocation.arguments

def CallSite.state? (table : WellKnown) (site : CallSite) : Option Operation :=
  Analysis.state? table site.invocation.method site.invocation.arguments

/-- Whether a call is one of the logger itself, which is described by its state. -/
def CallSite.callsLogger (table : WellKnown) (site : CallSite) : Bool :=
  Scope.startsWithState table site.invocation ||
    LogCall.takesState table site.invocation.method &&
      (Analysis.values? site.invocation.arguments).isNone

/-- Whether a record is that of a log call or of the start of a scope. -/
def CallSite.Gives (table : WellKnown) (path : String) (site : CallSite) (record : UsageRecord) :
    Prop :=
  LogCall.record? table path site = some record ∨ Scope.record? table path site = some record

/-- For each call of a file, which arguments are bound to the type of the state. -/
def SourceFile.stateBindings (file : SourceFile) : List (List Bool) :=
  file.callSites.map CallSite.stateBindings

/-! ## Records that are alike -/

/-- Two halves of identifiers are alike if they are equal or both named by a type. -/
inductive EventPart.Alike : EventPart → EventPart → Prop
  | refl (part : EventPart) : Alike part part
  | typed (name name' : String) : Alike (.reference .other name) (.reference .other name')

inductive EventId.Alike : EventId → EventId → Prop
  | details {id id' name name' : EventPart} (hid : id.Alike id') (hname : name.Alike name') :
      Alike (.details id name) (.details id' name')
  | reference (kind : ReferenceKind) (name : String) :
      Alike (.reference kind name) (.reference kind name)

/-- Two records that say the same about the call, apart from what is read from its values. -/
structure UsageRecord.SameOutline (record record' : UsageRecord) : Prop where
  kind_eq : record.kind = record'.kind
  methodName_eq : record.methodName = record'.methodName
  severity_eq : record.severity = record'.severity
  eventId_alike : Option.Rel EventId.Alike record.eventId record'.eventId
  location_eq : record.location = record'.location

/-- Two records that differ at most in the texts of types. -/
structure UsageRecord.SameButDisplays (record record' : UsageRecord) : Prop
    extends SameOutline record record' where
  messageTemplate_eq : record.messageTemplate = record'.messageTemplate
  extraction_eq : record.extraction = record'.extraction
  parameters_eq :
    record.parameters.map (fun parameter =>
        (parameter.name, parameter.kind, parameter.customTagName)) =
      record'.parameters.map fun parameter =>
        (parameter.name, parameter.kind, parameter.customTagName)

theorem rel_of_map_eq {α β : Type} {f : α → β} {related : α → α → Prop}
    (hrelated : ∀ a b, f a = f b → related a b) {left right : Option α}
    (h : left.map f = right.map f) : Option.Rel related left right := by
  cases left with
  | none =>
    cases right with
    | none => exact .none
    | some b => cases h
  | some a =>
    cases right with
    | none => cases h
    | some b => exact .some (hrelated a b (Option.some.inj h))

theorem forall₂_of_map_eq {α β : Type} {f : α → β} {left right : List α}
    (h : left.map f = right.map f) : List.Forall₂ (fun a b => f a = f b) left right := by
  rw [← List.forall₂_eq_eq_eq] at h
  exact List.forall₂_map_right_iff.mp (List.forall₂_map_left_iff.mp h)

section

variable {p : Presentation}

/-- Only a half that is named by a type may be presented as another one is. -/
theorem EventPart.alike_of_present_eq {part part' : EventPart}
    (h : part.present p = part'.present p) : part.Alike part' := by
  have hplain : ∀ part : EventPart, (∃ name, part = .reference .other name) ∨
      part.present p = part := by
    intro part
    cases part with
    | reference kind name =>
      cases kind with
      | other => exact .inl ⟨name, rfl⟩
      | _ => exact .inr rfl
    | _ => exact .inr rfl
  have hother : ∀ {part : EventPart} {name : String},
      part.present p = .reference .other name → ∃ name', part = .reference .other name' := by
    intro part name hpart
    rcases hplain part with htyped | hplain
    · exact htyped
    · exact ⟨name, hplain.symm.trans hpart⟩
  rcases hplain part with ⟨name, rfl⟩ | hleft
  · obtain ⟨name', rfl⟩ := hother h.symm
    exact .typed name name'
  · rcases hplain part' with ⟨name', rfl⟩ | hright
    · obtain ⟨name, rfl⟩ := hother h
      exact .typed name name'
    · rw [hleft, hright] at h
      rw [h]
      exact .refl part'

theorem EventId.alike_of_present_eq {eventId eventId' : EventId}
    (h : eventId.present p = eventId'.present p) : eventId.Alike eventId' := by
  cases eventId with
  | details id name =>
    cases eventId' with
    | details id' name' =>
      simp only [present, details.injEq] at h
      exact .details (EventPart.alike_of_present_eq h.1) (EventPart.alike_of_present_eq h.2)
    | reference kind' name' => cases h
  | reference kind name =>
    cases eventId' with
    | details id' name' => cases h
    | reference kind' name' =>
      cases h
      exact .reference kind name

end

namespace UsageRecord

/-- A record without what is read from the values of the call. -/
def outline (record : UsageRecord) : UsageRecord :=
  { record with messageTemplate := none, parameters := [], extraction := none }

variable {p : Presentation} {record record' : UsageRecord}

theorem sameOutline_of_outline_eq (h : (record.present p).outline = (record'.present p).outline) :
    record.SameOutline record' where
  kind_eq := by injection h
  methodName_eq := by injection h
  severity_eq := by injection h
  eventId_alike := rel_of_map_eq (fun _ _ => EventId.alike_of_present_eq) (congrArg eventId h)
  location_eq := by injection h

theorem sameButDisplays_of_present_eq (h : record.present p = record'.present p) :
    record.SameButDisplays record' where
  toSameOutline := sameOutline_of_outline_eq (congrArg outline h)
  messageTemplate_eq := by injection h
  extraction_eq := by injection h
  parameters_eq := by
    have hparameters := congrArg (fun record : UsageRecord => record.parameters.map fun parameter =>
      (parameter.name, parameter.kind, parameter.customTagName)) h
    simp only [present, List.map_map] at hparameters
    exact hparameters

end UsageRecord

/-! ## Calls and files that are presented alike -/

theorem CallSite.callsLogger_present (p : Presentation) (table : WellKnown) (site : CallSite) :
    (site.present p).callsLogger (table.present p) = site.callsLogger table := by
  have hscope : Scope.startsWithState (table.present p) (site.invocation.present p) =
      Scope.startsWithState table site.invocation :=
    site.invocation.contains_definition_present p table.scopeMethods
  simp only [callsLogger, CallSite.present, hscope, Invocation.method_present,
    Invocation.arguments_present, LogCall.takesState_present, Analysis.values?_present,
    Option.isNone_map]

/-- A way of making the record of a call that has a part in it for the state of the call: the record
of a presented call is the presented record, the outline of the record does not depend on the state,
and only the record of a call of the logger itself does. -/
structure ReadsState (p : Presentation)
    (read? : WellKnown → CallSite → Option Operation → Option UsageRecord) : Prop where
  read?_present : ∀ table site state,
    read? (table.present p) (site.present p) (state.map (Operation.presentValue p)) =
      (read? table site state).map (UsageRecord.present p)
  outline_read? : ∀ table site state,
    (read? table site state).map UsageRecord.outline =
      (read? table site none).map UsageRecord.outline
  read?_of_not_callsLogger : ∀ table site state, site.callsLogger table = false →
    read? table site state = read? table site none

theorem LogCall.readsState (p : Presentation) (path : String) :
    ReadsState p fun table => recordWith? table path where
  read?_present table site state := recordWith?_present p table path site state
  outline_read? table site state := by
    simp only [recordWith?, Option.map_map]
    rfl
  read?_of_not_callsLogger table site state hother := by
    simp only [CallSite.callsLogger, Bool.or_eq_false_iff, Bool.and_eq_false_iff] at hother
    simp only [recordWith?, contentWith]
    rcases hother.2 with htakes | hvalues
    · simp only [htakes, Bool.false_eq_true, if_false]
    · obtain ⟨values, hvalues⟩ :=
        Option.isSome_iff_exists.mp (Option.isNone_eq_false_iff.mp hvalues)
      simp only [hvalues]

theorem Scope.readsState (p : Presentation) (path : String) :
    ReadsState p fun table => recordWith? table path where
  read?_present table site state := recordWith?_present p table path site state
  outline_read? table site state := by
    -- whether there is a content is decided by the method of the call
    simp only [recordWith?, contentWith?, Option.map_map]
    split
    · rfl
    · rfl
  read?_of_not_callsLogger table site state hother := by
    simp only [CallSite.callsLogger, Bool.or_eq_false_iff] at hother
    simp only [recordWith?, contentWith?, hother.1, Bool.false_eq_true, if_false]

namespace ReadsState

variable {p : Presentation} {read? : WellKnown → CallSite → Option Operation → Option UsageRecord}
  {site site' : CallSite}

theorem sameOutline (h : ReadsState p read?) (table : WellKnown)
    (hsite : site.present p = site'.present p) (state state' : Option Operation) :
    Option.Rel UsageRecord.SameOutline (read? table site state) (read? table site' state') := by
  have houtline : ∀ site state,
      (read? table site state).map (UsageRecord.outline ∘ .present p) =
        (read? (table.present p) (site.present p) none).map UsageRecord.outline := by
    intro site state
    rw [← Option.map_map, ← h.read?_present, h.outline_read?]
  apply rel_of_map_eq fun _ _ => UsageRecord.sameOutline_of_outline_eq
  exact ((houtline site state).trans (by rw [hsite])).trans (houtline site' state').symm

/-- A call and, for one of the logger itself, the comparisons of types in it determine the record up
to display texts. -/
theorem sameButDisplays (h : ReadsState p read?) (table : WellKnown)
    (hsite : site.present p = site'.present p)
    (hbindings : site.callsLogger table = true → site.stateBindings = site'.stateBindings) :
    Option.Rel UsageRecord.SameButDisplays (read? table site (site.state? table))
      (read? table site' (site'.state? table)) := by
  apply rel_of_map_eq fun _ _ => UsageRecord.sameButDisplays_of_present_eq (p := p)
  rw [← h.read?_present, ← h.read?_present, hsite]
  by_cases hlogger : site.callsLogger table = true
  · have hstate : ∀ site : CallSite,
        (site.state? table).map (Operation.presentValue p) =
          Analysis.stateWith? (table.present p) (site.present p).invocation.arguments
            site.stateBindings := by
      intro site
      rw [CallSite.present, Invocation.arguments_present, Analysis.stateWith?_present,
        CallSite.stateBindings, ← Analysis.state?_eq, CallSite.state?]
    rw [hstate, hstate, hsite, hbindings hlogger]
  · rw [← CallSite.callsLogger_present p, hsite, Bool.not_eq_true] at hlogger
    rw [h.read?_of_not_callsLogger _ _ _ hlogger, ← h.read?_of_not_callsLogger _ _ _ hlogger]

end ReadsState

section

variable {p : Presentation} {table : WellKnown} {file file' : SourceFile}

/-- The records of files that are presented alike are related, one to one and in order, if records
that are presented alike are, and those of calls with a state. -/
theorem forall₂_analyzeFile {related : UsageRecord → UsageRecord → Prop}
    {alike : CallSite → CallSite → Prop} (hsame : file.present p = file'.present p)
    (hsites : List.Forall₂ alike file.callSites file'.callSites)
    (halike : ∀ site site', alike site site' → site.present p = site'.present p)
    (hrelated : ∀ record record', record.present p = record'.present p → related record record')
    (hlog : ∀ site site', alike site site' → Option.Rel related
      (LogCall.record? table file.path site) (LogCall.record? table file'.path site'))
    (hscope : ∀ site site', alike site site' → Option.Rel related
      (Scope.record? table file.path site) (Scope.record? table file'.path site')) :
    List.Forall₂ related (analyzeFile Analyzer.all table file)
      (analyzeFile Analyzer.all table file') := by
  have hpath : file.path = file'.path := by injection hsame
  have hmethods : file.methods.map (MethodDeclaration.present p) =
      file'.methods.map (MethodDeclaration.present p) := by injection hsame
  rw [analyzeFile_all, analyzeFile_all]
  simp only [LogCall.records, MessageMethod.records, MessageFactory.records, Scope.records]
  refine List.rel_append (List.rel_append (List.rel_append ?_ ?_) ?_) ?_
  · exact List.rel_filterMap hlog hsites
  · refine List.rel_filterMap ?_ (forall₂_of_map_eq hmethods)
    intro declaration declaration' hdeclaration
    apply rel_of_map_eq hrelated
    rw [hpath, ← MessageMethod.record?_present, hdeclaration, MessageMethod.record?_present]
  · refine List.rel_filterMap ?_ hsites
    intro site site' hsite
    apply rel_of_map_eq hrelated
    rw [hpath, ← MessageFactory.record?_present, halike site site' hsite,
      MessageFactory.record?_present]
  · exact List.rel_filterMap hscope hsites

/-- Two records of calls that go together agree but for display texts, unless the calls are of the
logger itself and different arguments in them are bound to the type of the state. -/
def SameUnlessStateDiffers (table : WellKnown) (file file' : SourceFile)
    (record record' : UsageRecord) : Prop :=
  record.SameButDisplays record' ∨
    ∃ site site', (site, site') ∈ file.callSites.zip file'.callSites ∧
      site.callsLogger table = true ∧ site.stateBindings ≠ site'.stateBindings ∧
      site.Gives table file.path record ∧ site'.Gives table file'.path record'

theorem ReadsState.sameUnlessStateDiffers
    {read? : WellKnown → CallSite → Option Operation → Option UsageRecord}
    (h : ReadsState p read?) {site site' : CallSite} (hsite : site.present p = site'.present p)
    (hzip : (site, site') ∈ file.callSites.zip file'.callSites)
    (hgives : ∀ record, read? table site (site.state? table) = some record →
      site.Gives table file.path record)
    (hgives' : ∀ record, read? table site' (site'.state? table) = some record →
      site'.Gives table file'.path record) :
    Option.Rel (fun record record' => record.SameOutline record' ∧
        SameUnlessStateDiffers table file file' record record')
      (read? table site (site.state? table)) (read? table site' (site'.state? table)) := by
  by_cases hbindings : site.callsLogger table = true → site.stateBindings = site'.stateBindings
  · have hsame := h.sameButDisplays table hsite hbindings
    generalize read? table site (site.state? table) = left at hsame
    generalize read? table site' (site'.state? table) = right at hsame
    cases hsame with
    | some hrecord => exact .some ⟨hrecord.toSameOutline, .inl hrecord⟩
    | none => exact .none
  · obtain ⟨hlogger, hne⟩ := Classical.not_imp.mp hbindings
    have hsame := h.sameOutline table hsite (site.state? table) (site'.state? table)
    generalize read? table site (site.state? table) = left at hsame hgives
    generalize read? table site' (site'.state? table) = right at hsame hgives'
    cases hsame with
    | some hrecord =>
      exact .some ⟨hrecord, .inr ⟨site, site', hzip, hlogger, hne, hgives _ rfl, hgives' _ rfl⟩⟩
    | none => exact .none

/-- The records of files that are presented alike go together one by one. -/
theorem forall₂_sameUnlessStateDiffers (hsame : file.present p = file'.present p) :
    List.Forall₂ (fun record record' => record.SameOutline record' ∧
        SameUnlessStateDiffers table file file' record record')
      (analyzeFile Analyzer.all table file) (analyzeFile Analyzer.all table file') := by
  have hpath : file.path = file'.path := by injection hsame
  have hsites : List.Forall₂ (fun site site' : CallSite => site.present p = site'.present p)
      file.callSites file'.callSites := forall₂_of_map_eq (by injection hsame)
  -- each call is known together with the one that it goes with
  have hzipped : List.Forall₂ (fun site site' : CallSite =>
      site.present p = site'.present p ∧ (site, site') ∈ file.callSites.zip file'.callSites)
      file.callSites file'.callSites :=
    List.forall₂_iff_zip.mpr ⟨hsites.length_eq, fun hmem =>
      ⟨(List.forall₂_iff_zip.mp hsites).2 hmem, hmem⟩⟩
  refine forall₂_analyzeFile hsame hzipped (fun _ _ hsite => hsite.1) ?_ ?_ ?_
  · intro record record' hrecord
    have hbut := UsageRecord.sameButDisplays_of_present_eq hrecord
    exact ⟨hbut.toSameOutline, .inl hbut⟩
  · rintro site site' ⟨hsite, hzip⟩
    rw [hpath]
    exact (LogCall.readsState p file'.path).sameUnlessStateDiffers hsite hzip
      (fun record hrecord => .inl (hpath ▸ hrecord)) (fun record hrecord => .inl hrecord)
  · rintro site site' ⟨hsite, hzip⟩
    rw [hpath]
    exact (Scope.readsState p file'.path).sameUnlessStateDiffers hsite hzip
      (fun record hrecord => .inr (hpath ▸ hrecord)) (fun record hrecord => .inr hrecord)

/-- Files in which the same arguments are bound to the types of states differ in display texts
alone. -/
theorem SameUnlessStateDiffers.sameButDisplays {record record' : UsageRecord}
    (h : SameUnlessStateDiffers table file file' record record')
    (hbindings : file.stateBindings = file'.stateBindings) : record.SameButDisplays record' := by
  rcases h with hsame | ⟨site, site', hzip, -, hne, -⟩
  · exact hsame
  · have hall := forall₂_of_map_eq hbindings
    exact absurd ((List.forall₂_iff_zip.mp hall).2 hzip) hne

end

/-- Display texts decide nothing but which argument is the state of a call of the logger itself.
Files that are the same without display texts have the same number of records, in the same order and
with the same kinds, method names, severities, places and identifiers, up to names that are types. A
record differs from its companion in the texts of types at most, unless the two are those of calls
of the logger in which different arguments are bound to the type that the method is constructed for.
So nothing else differs in files without such a pair of calls. -/
theorem displays_affect_state_only (table : WellKnown) (file file' : SourceFile)
    (hsame : file.withoutDisplays = file'.withoutDisplays) :
    List.Forall₂ UsageRecord.SameOutline (analyzeFile Analyzer.all table file)
      (analyzeFile Analyzer.all table file') ∧
    List.Forall₂ (SameUnlessStateDiffers table file file') (analyzeFile Analyzer.all table file)
      (analyzeFile Analyzer.all table file') ∧
    (file.stateBindings = file'.stateBindings →
      List.Forall₂ UsageRecord.SameButDisplays (analyzeFile Analyzer.all table file)
        (analyzeFile Analyzer.all table file')) := by
  have hall : List.Forall₂ (fun record record' => record.SameOutline record' ∧
      SameUnlessStateDiffers table file file' record record')
      (analyzeFile Analyzer.all table file) (analyzeFile Analyzer.all table file') :=
    forall₂_sameUnlessStateDiffers hsame
  exact ⟨hall.imp fun _ _ h => h.1, hall.imp fun _ _ h => h.2, fun hbindings =>
    hall.imp fun _ _ h => h.2.sameButDisplays hbindings⟩

/-- A log call that passes its formatter before its state, with the texts of the type that the
method is constructed for and of the type that the state is bound to. -/
def formatterFirst (constructed bound : String) : SourceFile where
  path := "User.cs"
  callSites :=
    [{ span := ⟨3, 3⟩
       invocation :=
        { method := { symbol := ⟨90⟩, genericDefinition := some ⟨11⟩, name := "Log"
                      containingType := some ⟨1⟩
                      typeArguments := [{ display := constructed, isAnonymous := true }] }
          arguments :=
            [argumentOf { display := "Func" } { shape := .parameterReference "formatter" },
             argumentOf { display := bound, isAnonymous := true }
              { shape := .anonymousObjectCreation [⟨"UserId", { shape := .literal }⟩] }] } }]

/-- Two texts of one type, changed together, make no difference; changed apart, they make the
formatter the state. -/
theorem displays_affect_state_only_formatterFirst :
    let records := fun constructed bound => analyzeFile Analyzer.all
      (WellKnown.resolve smallCompilation) (formatterFirst constructed bound)
    ((formatterFirst "Login" "Login").withoutDisplays =
        (formatterFirst "User" "User").withoutDisplays ∧
      List.Forall₂ UsageRecord.SameButDisplays (records "Login" "Login") (records "User" "User")) ∧
    (formatterFirst "Login" "Login").withoutDisplays =
        (formatterFirst "User" "Login").withoutDisplays ∧
      List.Forall₂ UsageRecord.SameOutline (records "Login" "Login") (records "User" "Login") ∧
      ¬ List.Forall₂ UsageRecord.SameButDisplays (records "Login" "Login")
        (records "User" "Login") := by
  intro records
  have htogether : (formatterFirst "Login" "Login").withoutDisplays =
      (formatterFirst "User" "User").withoutDisplays := rfl
  have hapart : (formatterFirst "Login" "Login").withoutDisplays =
      (formatterFirst "User" "Login").withoutDisplays := rfl
  have hdiffer : ((records "Login" "Login").map (·.extraction) =
      [some ⟨some .anonymousObject, true⟩]) ∧
        (records "User" "Login").map (·.extraction) = [some ⟨none, false⟩] := by decide
  refine ⟨⟨htogether, ?_⟩, hapart, ?_, ?_⟩
  · exact (displays_affect_state_only _ _ _ htogether).2.2 (by decide)
  · exact (displays_affect_state_only _ _ _ hapart).1
  · intro hall
    have hextraction : List.Forall₂ (· = ·) ((records "Login" "Login").map (·.extraction))
        ((records "User" "Login").map (·.extraction)) :=
      List.forall₂_map_left_iff.mpr
        (List.forall₂_map_right_iff.mpr (hall.imp fun _ _ hrecords => hrecords.extraction_eq))
    rw [List.forall₂_eq_eq_eq, hdiffer.1, hdiffer.2] at hextraction
    cases hextraction

end LogCensus
