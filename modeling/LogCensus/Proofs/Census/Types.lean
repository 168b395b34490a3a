import LogCensus.Proofs.Analysis.Records
import LogCensus.Proofs.Census.Division
import LogCensus.Proofs.Extraction.Origins
import LogCensus.Proofs.Summary.Inconsistencies
import LogCensus.Proofs.Summary.Ranking

/-!
# The types in a census

A record keeps the parameters of its strategy, a run the records of its files, and a summary the
types of its parameters. None of them makes up a type, so what holds of the types of all parameters
that a strategy makes holds of all types in a census.

* `Content.Found.arise`: the parameters of a record have an origin.
* `Summary.mentions_iff`: a summary mentions the types of its parameters, and no others.
* `types_nonempty`: no type in a census is the empty text.
-/

namespace LogCensus

/-! ## Records -/

/-- The values of a state have an origin; a text and an unknown state have none. -/
theorem StateReading.arise_ofState (table : WellKnown) (state : Operation) :
    Arise (StateReading.ofState table state).parameters := by
  unfold ofState
  split
  · next hfound => exact Outcome.arise_ofState hfound
  · split
    · exact arise_nil
    · exact arise_nil

/-- However the content of a record was found, its parameters have an origin. -/
theorem Content.Found.arise {table : WellKnown} {content : Content} (h : content.Found table) :
    Arise content.parameters := by
  cases h with
  | values template values => exact ArrayLiteral.arise_extract values _
  | state template state => exact StateReading.arise_ofState table state
  | template template => exact arise_nil
  | signature template method => exact MethodSignature.arise_extract table method _
  | typeArguments template method => exact TypeArguments.arise_extract method _
  | nothing => exact arise_nil

/-! ## Runs -/

/-- A run makes up no records. -/
theorem exists_file_of_mem_gather {projects : List Snapshot} {workers : Nat} {cancelled : Bool}
    {record : UsageRecord} (hmem : record ∈ (gather projects workers cancelled).records) :
    ∃ project ∈ projects, ∃ file ∈ project.files,
      record ∈ analyzeFile Analyzer.all (WellKnown.resolve project.compilation) file := by
  cases cancelled with
  | false =>
    have hrecord := (gather_perm projects workers).mem_iff.mp hmem
    simpa only [recordsInOrder, List.mem_flatMap] using hrecord
  | true =>
    rw [gather, gatherWith_eq] at hmem
    cases hmem

theorem arise_of_mem_gather {projects : List Snapshot} {workers : Nat} {cancelled : Bool}
    {record : UsageRecord} (hmem : record ∈ (gather projects workers cancelled).records) :
    Arise record.parameters := by
  obtain ⟨project, -, file, -, hrecord⟩ := exists_file_of_mem_gather hmem
  exact (describes_of_mem_analyzeFile hrecord).2.arise

/-! ## Summaries -/

/-- The places where a summary has a type: with a name, in a report, and for a listed name. -/
inductive Summary.Mentions (summary : Summary) (type : String) : Prop
  | ofName (name : String) (types : List String) (hentry : (name, types) ∈ summary.typesByName)
      (htype : type ∈ types)
  | inReport (finding : Inconsistency) (hfinding : finding ∈ summary.inconsistencies)
      (htype : type ∈ finding.types)
  | asMainType (entry : CommonName) (hentry : entry ∈ summary.commonNames)
      (htype : type = entry.mainType)

/-- A summary mentions the types of the parameters, and no others. -/
theorem Summary.mentions_iff {records : List UsageRecord} {top : Nat} {type : String} :
    (summarize records top).Mentions type ↔
      ∃ parameter ∈ parametersOf records, parameter.type = type := by
  have hused : ∀ {name}, type ∈ (typeCounts records name).keys →
      ∃ parameter ∈ parametersOf records, parameter.type = type := by
    intro name hkey
    obtain ⟨parameter, hmem, -, htype⟩ := mem_keys_typeCounts.mp hkey
    exact ⟨parameter, hmem, htype⟩
  constructor
  · rintro (⟨name, types, hentry, htype⟩ | ⟨finding, hfinding, htype⟩ | ⟨entry, hentry, rfl⟩)
    · rw [(mem_typesByName_iff.mp hentry).2] at htype
      exact hused htype
    · rw [(mem_inconsistencies_iff.mp hfinding).2.1] at htype
      exact hused htype
    · obtain ⟨hname, heq⟩ := mem_ranking_iff.mp (List.mem_of_mem_take hentry)
      have hmain := isMainType_commonName (mem_namesUsed.mpr hname)
      rw [← heq] at hmain
      exact hused (usesWith_pos_iff.mp hmain.used)
  · rintro ⟨parameter, hmem, rfl⟩
    have hname : parameter.name ∈ (parametersOf records).map Parameter.name :=
      List.mem_map_of_mem hmem
    exact .ofName parameter.name _ (mem_typesByName_iff.mpr ⟨hname, rfl⟩)
      (mem_keys_typeCounts.mpr ⟨parameter, hmem, rfl, rfl⟩)

/-! ## Censuses -/

/-- No type in a census is the empty text, whatever the types in the projects are displayed as:
neither that of a parameter of a record nor one that the summary mentions. -/
theorem types_nonempty (projects : List Snapshot) (options : CensusOptions) (cancelled : Bool) :
    let result := census projects options cancelled
    (∀ record ∈ result.records, ∀ parameter ∈ record.parameters, parameter.type ≠ "") ∧
    (∀ type, result.summary.Mentions type → type ≠ "") := by
  intro result
  have hrecords : ∀ record ∈ result.records, ∀ parameter ∈ record.parameters,
      parameter.type ≠ "" := by
    intro record hrecord parameter hparameter
    exact (arise_of_mem_gather hrecord parameter hparameter).type_ne
  refine ⟨hrecords, ?_⟩
  intro type hmentions
  obtain ⟨parameter, hmem, rfl⟩ := Summary.mentions_iff.mp hmentions
  obtain ⟨record, hrecord, hparameter⟩ := List.mem_flatMap.mp hmem
  exact hrecords record hrecord parameter hparameter

end LogCensus
