import LogCensus.Proofs.Census.Division
import LogCensus.Proofs.Summary.Balance
import LogCensus.Proofs.Summary.Inconsistencies
import LogCensus.Proofs.Summary.Order
import LogCensus.Report

/-!
# The report and the summary

The text of a report counts the uses of an inconsistent name again, with a loop of its own that also
remembers where a type was used first. Without the places, its counts are those of the summary. The
first place is that of the first record that uses the name with the type; in the records of a run,
which are ordered by place, no record that does so lies before it.

* `Report.counts_occurrencesByType`: the uses without their places.
* `Report.first_occurrencesByType`: the place that is shown.
* `Report.IsLineOf`, `Report.forall₂_typeLines`: the lines of a block, one for each type.
* `report_agrees_with_summary`: what the block of an inconsistent name shows.
-/

namespace LogCensus

/-- Whether a record uses a name with a type. -/
def UsageRecord.uses (name type : String) (record : UsageRecord) : Bool :=
  record.parameters.any fun parameter => parameter.name = name ∧ parameter.type = type

namespace Report

theorem typesOf_eq (name : String) (record : UsageRecord) :
    typesOf name record = typesUsed record.parameters name := rfl

theorem mem_typesOf_iff {name type : String} {record : UsageRecord} :
    type ∈ typesOf name record ↔ record.uses name type := by
  simp only [typesOf_eq, mem_typesUsed, UsageRecord.uses, List.any_eq_true, decide_eq_true_eq]

/-- Adds the uses of a name in records to those found so far. -/
def addRecords (name : String) (found : SortedMap String Occurrences)
    (records : List UsageRecord) : SortedMap String Occurrences :=
  records.foldl (fun found record =>
    (typesOf name record).foldl (fun found type => addOccurrence found record.location type) found)
    found

/-! ## Counts -/

variable (found : SortedMap String Occurrences) (location : Location)

theorem counts_addOccurrence (type : String) :
    (addOccurrence found location type).mapValues Occurrences.count =
      (found.mapValues Occurrences.count).update type 0 (· + 1) := by
  apply SortedMap.mapValues_update
  · rfl
  · intro known
    rfl

theorem counts_foldl_addOccurrence (types : List String) :
    (types.foldl (fun found type => addOccurrence found location type) found).mapValues
      Occurrences.count = (found.mapValues Occurrences.count).countAll types := by
  induction types generalizing found with
  | nil => rfl
  | cons type types ih =>
    rw [List.foldl_cons, ih, counts_addOccurrence]
    rfl

theorem counts_addRecords (name : String) (records : List UsageRecord) :
    (addRecords name found records).mapValues Occurrences.count =
      (found.mapValues Occurrences.count).countAll (typesUsed (parametersOf records) name) := by
  induction records generalizing found with
  | nil => rfl
  | cons record records ih =>
    have hused : typesUsed (parametersOf (record :: records)) name =
        typesOf name record ++ typesUsed (parametersOf records) name := by
      simp only [typesUsed, parametersOf_cons, List.filter_append, List.map_append]
      rfl
    rw [hused, SortedMap.countAll_append, ← counts_foldl_addOccurrence found record.location]
    exact ih _

/-- Without the places, the uses of a name are the counts of its types. -/
theorem counts_occurrencesByType (records : List UsageRecord) (name : String) :
    (occurrencesByType records name).mapValues Occurrences.count = typeCounts records name :=
  counts_addRecords .empty name records

/-! ## Places -/

/-- Only the first use of a type sets its place. -/
theorem first_addOccurrence (type other : String) :
    ((addOccurrence found location type).get? other).map Occurrences.first =
      ((found.get? other).map Occurrences.first).or
        (if other = type then some location else none) := by
  rw [addOccurrence, SortedMap.get?_update]
  by_cases hother : other = type
  · subst hother
    cases found.get? other <;> simp
  · simp [hother]

theorem first_foldl_addOccurrence (types : List String) (other : String) :
    ((types.foldl (fun found type => addOccurrence found location type) found).get? other).map
      Occurrences.first =
      ((found.get? other).map Occurrences.first).or
        (if other ∈ types then some location else none) := by
  induction types generalizing found with
  | nil => simp
  | cons type types ih =>
    rw [List.foldl_cons, ih, first_addOccurrence, Option.or_assoc]
    congr 1
    by_cases hother : other = type
    · simp [hother]
    · simp [hother]

theorem first_addRecords (name type : String) (records : List UsageRecord) :
    ((addRecords name found records).get? type).map Occurrences.first =
      ((found.get? type).map Occurrences.first).or
        ((records.find? (UsageRecord.uses name type)).map UsageRecord.location) := by
  induction records generalizing found with
  | nil => simp [addRecords]
  | cons record records ih =>
    show ((addRecords name _ records).get? type).map Occurrences.first = _
    rw [ih, first_foldl_addOccurrence, Option.or_assoc, List.find?_cons]
    simp only [mem_typesOf_iff]
    cases record.uses name type with
    | false => simp
    | true => simp

/-- The place shown for a type is that of the first record that uses it. -/
theorem first_occurrencesByType (records : List UsageRecord) (name type : String) :
    ((occurrencesByType records name).get? type).map Occurrences.first =
      (records.find? (UsageRecord.uses name type)).map UsageRecord.location := by
  have hfirst := first_addRecords .empty name type records
  exact hfirst

end Report

/-! ## Records in order -/

/-- Among ordered items, the first one with a property stands before all others with it. -/
theorem rel_of_find?_eq_some {α : Type} {r : α → α → Prop} (hrefl : ∀ item, r item item)
    {p : α → Bool} {items : List α} (hordered : items.Pairwise r) {first : α}
    (hfirst : items.find? p = some first) {item : α} (hitem : item ∈ items) (hp : p item) :
    r first item := by
  induction items with
  | nil => exact absurd hitem List.not_mem_nil
  | cons head items ih =>
    obtain ⟨hhead, hrest⟩ := List.pairwise_cons.mp hordered
    rw [List.find?_cons] at hfirst
    split at hfirst
    · cases hfirst
      rcases List.mem_cons.mp hitem with rfl | hmem
      · exact hrefl _
      · exact hhead item hmem
    · next hnot =>
      rcases List.mem_cons.mp hitem with rfl | hmem
      · rw [hp] at hnot
        exact nomatch hnot
      · exact ih hrest hfirst hmem

/-- Records in the order of their keys are in the order of their places. -/
theorem UsageRecord.location_le_of_key_le {left right : UsageRecord} (hkey : left.key ≤ right.key) :
    (compare left.location right.location).isLE := by
  have hle := (le_iff left right).mpr hkey
  rw [le, compareKey] at hle
  cases hplace : compare left.location right.location with
  | lt => rfl
  | eq => rfl
  | gt =>
    rw [hplace] at hle
    exact nomatch hle

theorem gather_ordered (projects : List Snapshot) (workers : Nat) (cancelled : Bool) :
    (gather projects workers cancelled).records.Pairwise fun left right =>
      (compare left.location right.location).isLE := by
  rw [gather, gatherWith_eq]
  cases cancelled with
  | true => exact List.Pairwise.nil
  | false => exact (sortRecords_stable _).ordered.imp UsageRecord.location_le_of_key_le

/-! ## Both groupings agree -/

theorem Report.keys_occurrencesByType (records : List UsageRecord) (name : String) :
    (occurrencesByType records name).keys = (typeCounts records name).keys := by
  rw [← counts_occurrencesByType, SortedMap.keys_mapValues]

/-- What is shown for a type of a name: the number of its uses, and the place of its first one. -/
theorem Report.get?_occurrencesByType {records : List UsageRecord} {name type : String}
    (htype : type ∈ (typeCounts records name).keys) :
    ∃ record, records.find? (UsageRecord.uses name type) = some record ∧
      (occurrencesByType records name).get? type =
        some ⟨(parametersOf records).countP fun parameter =>
          parameter.name = name ∧ parameter.type = type, record.location⟩ := by
  have hcount := SortedMap.get?_mapValues Occurrences.count (occurrencesByType records name) type
  rw [counts_occurrencesByType, get?_typeCounts htype] at hcount
  have hfirst := first_occurrencesByType records name type
  cases hfound : (occurrencesByType records name).get? type with
  | none =>
    rw [hfound] at hcount
    exact nomatch hcount
  | some found =>
    rw [hfound, Option.map_some] at hcount hfirst
    obtain ⟨record, hrecord, hplace⟩ := Option.map_eq_some_iff.mp hfirst.symm
    refine ⟨record, hrecord, ?_⟩
    rw [hplace, Option.some.inj hcount]

/-- What a line of the block of a name shows for one of its types: the type, filled up to the common
columns, the place of its first use, with lines counted from one, and the number of its uses. -/
def Report.IsLineOf (measure : String → Nat) (palette : Text.Palette) (columns : Nat)
    (records : List UsageRecord) (name type line : String) : Prop :=
  ∃ record, records.find? (UsageRecord.uses name type) = some record ∧
    line = "  " ++ palette.paint [.blue] "=" ++ " " ++
      (type ++ String.ofList (List.replicate (columns - measure type) ' ')) ++ "  " ++
      (record.location.filePath ++ ":" ++ toString (record.location.startLine + 1).toNat) ++ " (" ++
      (toString (usesWith records name type) ++ " " ++
        if usesWith records name type = 1 then "usage" else "usages") ++ ")\n"

/-- No type of a name is skipped: its line is there, and shows its uses. -/
theorem Report.exists_typeLine? (measure : String → Nat) (palette : Text.Palette) (columns : Nat)
    {records : List UsageRecord} {name type : String}
    (htype : type ∈ (typeCounts records name).keys) :
    ∃ line, typeLine? measure palette (occurrencesByType records name) columns type = some line ∧
      IsLineOf measure palette columns records name type line := by
  obtain ⟨record, hrecord, hfound⟩ := get?_occurrencesByType htype
  rw [typeLine?, hfound]
  exact ⟨_, rfl, record, hrecord, rfl⟩

theorem Report.forall₂_typeLines (measure : String → Nat) (palette : Text.Palette) (columns : Nat)
    {records : List UsageRecord} {name : String} {types : List String}
    (htypes : ∀ type ∈ types, type ∈ (typeCounts records name).keys) :
    List.Forall₂ (IsLineOf measure palette columns records name) types
      (types.filterMap (typeLine? measure palette (occurrencesByType records name) columns)) := by
  induction types with
  | nil => exact .nil
  | cons type types ih =>
    obtain ⟨htype, hrest⟩ := List.forall_mem_cons.mp htypes
    obtain ⟨line, hline, hshown⟩ := exists_typeLine? measure palette columns htype
    rw [List.filterMap_cons_some hline]
    exact .cons hshown (ih hrest)

/-- A ranking of all names has the name of every parameter. -/
theorem exists_commonName {records : List UsageRecord} {parameter : Parameter}
    (hmem : parameter ∈ parametersOf records) {top : Nat}
    (htop : (summarize records top).uniqueNames ≤ top) :
    ∃ entry ∈ (summarize records top).commonNames, entry.name = parameter.name := by
  have hall : (summarize records top).commonNames =
      Summary.ranking (Tally.ofRecords records).types := by
    apply List.take_of_length_le
    rwa [Summary.length_ranking, ← uniqueNames_summarize]
  refine ⟨Summary.commonName parameter.name (typeCounts records parameter.name), ?_, rfl⟩
  rw [hall, Summary.mem_ranking_iff]
  exact ⟨List.mem_map_of_mem hmem, rfl⟩

/-- The kind of issue that a summary finds, as it is shown. -/
theorem Report.issueText_typeMismatch : issueText [.typeMismatch] = "type-mismatch" := by
  decide +kernel

/-- The text of a report agrees with the summary. It starts with the blocks of the names that the
summary finds, in their order. A block names what it is about, and then has one line for each of the
name's types, in order, and an empty line: none is left out, since the uses counted again are those
of the same types. A line shows how many parameters have the name and the type, and the place of the
first record that uses them; in the records of a run, no record that does so lies before that place.
The numbers add up to the count by which the name is ranked, in a ranking of any length, and a
ranking of all names has the name. The lines are aligned by display width, but what they show does
not depend on the measure. -/
theorem report_agrees_with_summary (records : List UsageRecord) (top : Nat)
    (finding : Inconsistency) (hfinding : finding ∈ (summarize records top).inconsistencies) :
    let uses := Report.occurrencesByType records finding.name
    uses.keys = finding.types ∧
    (∀ type ∈ finding.types, ∃ record,
      records.find? (UsageRecord.uses finding.name type) = some record ∧
      uses.get? type = some ⟨(parametersOf records).countP fun parameter =>
        parameter.name = finding.name ∧ parameter.type = type, record.location⟩ ∧
      (∀ projects workers cancelled, records = (gather projects workers cancelled).records →
        ∀ other ∈ records, other.uses finding.name type →
          (compare record.location other.location).isLE)) ∧
    (∀ measure palette, ∃ lines,
      Report.findingBlock measure palette records finding =
        palette.paint [.bold, .yellow] "warning" ++ ": parameter \"" ++ finding.name ++
          "\" is logged with " ++ toString finding.types.length ++ " different types  " ++
          palette.paint [.dimmed, .cyan] "type-mismatch" ++ "\n" ++ String.join lines ++ "\n" ∧
      List.Forall₂ (Report.IsLineOf measure palette ((finding.types.map measure).foldl max 0)
        records finding.name) finding.types lines) ∧
    (∀ palette cancelled counts,
      let census : Census := ⟨records, summarize records top, cancelled⟩
      Report.text palette census counts = Report.textWith Text.width palette census counts ∧
      ∀ measure, ∃ rest, Report.textWith measure palette census counts =
        String.join (census.summary.inconsistencies.map
          (Report.findingBlock measure palette records)) ++ rest) ∧
    (∀ top', ∀ entry ∈ (summarize records top').commonNames, entry.name = finding.name →
      (finding.types.map (usesWith records finding.name)).sum = entry.count) ∧
    (∀ top', (summarize records top').uniqueNames ≤ top' →
      ∃ entry ∈ (summarize records top').commonNames, entry.name = finding.name) := by
  intro uses
  obtain ⟨hsize, htypes, hissues⟩ := mem_inconsistencies_iff.mp hfinding
  refine ⟨?_, ?_, ?_, ?_, ?_, ?_⟩
  · rw [htypes]
    exact Report.keys_occurrencesByType records finding.name
  · intro type htype
    rw [htypes] at htype
    obtain ⟨record, hrecord, hfound⟩ := Report.get?_occurrencesByType htype
    refine ⟨record, hrecord, hfound, ?_⟩
    rintro projects workers cancelled rfl other hother huses
    have hordered := gather_ordered projects workers cancelled
    refine rel_of_find?_eq_some ?_ hordered hrecord hother huses
    intro item
    exact UsageRecord.location_le_of_key_le (le_refl item.key)
  · intro measure palette
    refine ⟨_, ?_, Report.forall₂_typeLines measure palette _ fun type htype => htypes ▸ htype⟩
    rw [Report.findingBlock, hissues, Report.issueText_typeMismatch]
    rfl
  · intro palette cancelled counts census
    refine ⟨rfl, fun measure => ?_⟩
    simp only [Report.textWith, String.append_assoc]
    exact ⟨_, rfl⟩
  · intro top' entry hentry hname
    obtain ⟨-, heq⟩ := Summary.mem_ranking_iff.mp (List.mem_of_mem_take hentry)
    rw [htypes, sum_usesWith, heq, hname, Summary.count_commonName]
  · intro top' htop
    obtain ⟨parameter, hmem, -, -, hname, -⟩ := (one_lt_size_typeCounts_iff _ _).mp hsize
    exact hname ▸ exists_commonName hmem htop

/-- A file that starts a scope with an anonymous object, whose member has the given type. -/
def scopeFile (path type : String) : SourceFile where
  path := path
  callSites :=
    [{ span := ⟨3, 3⟩
       invocation :=
        { method := { symbol := ⟨90⟩, genericDefinition := some ⟨12⟩, name := "BeginScope" }
          arguments :=
            [{ parameter := none
               value :=
                { shape := .anonymousObjectCreation
                    [⟨"Id", { type := some { display := type }, shape := .literal }⟩] } }] } }]

/-- A project whose files disagree about a type. -/
def scopeProject : Snapshot where
  compilation := smallCompilation
  files := [scopeFile "Mail.cs" "long", scopeFile "Login.cs" "int", scopeFile "Audit.cs" "long"]

theorem report_agrees_with_summary_scopeProject :
    let records := (gather [scopeProject] 2 false).records
    let finding : Inconsistency := ⟨"Id", ["int", "long"], [.typeMismatch]⟩
    finding ∈ (summarize records 1).inconsistencies ∧
      (∃ lines, lines.length = 2 ∧ Report.findingBlock String.length .plain records finding =
        "warning: parameter \"Id\" is logged with 2 different types  type-mismatch\n" ++
          String.join lines ++ "\n") ∧
      ∃ found, (Report.occurrencesByType records "Id").get? "long" = some found ∧
        found.count = 2 ∧
        ∀ other ∈ records, other.uses "Id" "long" →
          (compare found.first other.location).isLE := by
  intro records finding
  have hperm := gather_perm [scopeProject] 2
  have hfinding : finding ∈ (summarize records 1).inconsistencies := by
    rw [summarize_perm hperm]
    decide
  obtain ⟨-, htypes, hblock, -⟩ := report_agrees_with_summary records 1 finding hfinding
  refine ⟨hfinding, ?_, ?_⟩
  · obtain ⟨lines, hblock, hlines⟩ := hblock String.length .plain
    have hheader : "warning" ++ ": parameter \"" ++ "Id" ++ "\" is logged with " ++ toString 2 ++
        " different types  " ++ "type-mismatch" ++ "\n" =
          "warning: parameter \"Id\" is logged with 2 different types  type-mismatch\n" := by
      decide
    exact ⟨lines, hlines.length_eq.symm,
      hblock.trans (congrArg (· ++ String.join lines ++ "\n") hheader)⟩
  · obtain ⟨record, -, hfound, hleast⟩ := htypes "long" (by decide)
    exact ⟨_, hfound, ((hperm.flatMap_right _).countP_eq _).trans (by decide),
      hleast [scopeProject] 2 false rfl⟩

end LogCensus
