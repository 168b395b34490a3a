import LogCensus.Proofs.Census.Merging
import LogCensus.Proofs.Summary.Inconsistencies
import LogCensus.Proofs.Summary.Order

/-!
# Summaries of merged runs

The summary of merged records can be told from the summaries of both sides, apart from the ranking:
numbers add up, and the types of a name are those of both sides. So a name that is reported for one
side is reported for both together, with at least the same types.

* `lookup_usagesByKind`, `lookup_typesByName`: what a summary has for a kind and for a name.
* `exists_inconsistency_of_subset`: more parameters leave no report out.
* `summary_of_merge`: the summary of merged records.
-/

namespace LogCensus

/-! ## The fields of a summary -/

section

variable (records : List UsageRecord) (top : Nat)

theorem totalParameters_summarize :
    (summarize records top).totalParameters = (parametersOf records).length := by
  rw [summarize, Tally.ofRecords_eq]
  rfl

theorem failedExtractions_summarize :
    (summarize records top).failedExtractions = records.countP UsageRecord.extractionFailed := by
  rw [summarize, Tally.ofRecords_eq]
  rfl

/-- The records of each kind are counted. -/
theorem lookup_usagesByKind (kind : CallKind) :
    SortedMap.lookup kind (summarize records top).usagesByKind =
      (SortedMap.empty.countAll (records.map UsageRecord.kind)).get? kind := by
  rw [summarize, Tally.ofRecords_eq]
  rfl

theorem typesByName_ascending : Ascending (summarize records top).typesByName :=
  ((Tally.ofRecords records).types.mapValues SortedMap.keys).ascending

/-- A name that is used has its types, and no other name has any. -/
theorem lookup_typesByName (name : String) :
    SortedMap.lookup name (summarize records top).typesByName =
      if typesUsed (parametersOf records) name = [] then none
      else some (typeCounts records name).keys := by
  show ((Tally.ofRecords records).types.mapValues SortedMap.keys).get? name = _
  rw [SortedMap.get?_mapValues, Tally.ofRecords_eq, Tally.get?_countUses]
  split
  · rfl
  · rfl

end

/-! ## Records of two sides -/

section

variable (left right : List UsageRecord)

theorem parametersOf_append :
    parametersOf (left ++ right) = parametersOf left ++ parametersOf right :=
  List.flatMap_append

theorem typesUsed_append (first second : List Parameter) (name : String) :
    typesUsed (first ++ second) name = typesUsed first name ++ typesUsed second name := by
  simp only [typesUsed, List.filter_append, List.map_append]

/-- The types of a name that is used on either side are those of both sides. -/
theorem lookup_typesByName_append (top : Nat) (name : String) :
    SortedMap.lookup name (summarize (left ++ right) top).typesByName =
      Option.merge (fun types types' => sortedDistinct (types ++ types'))
        (SortedMap.lookup name (summarize left top).typesByName)
        (SortedMap.lookup name (summarize right top).typesByName) := by
  simp only [lookup_typesByName, typeCounts, parametersOf_append, typesUsed_append,
    List.append_eq_nil_iff]
  by_cases hleft : typesUsed (parametersOf left) name = []
  · by_cases hright : typesUsed (parametersOf right) name = []
    · simp only [hleft, hright, and_self, if_true, Option.merge]
    · simp only [hleft, hright, and_false, if_true, if_false, List.nil_append, Option.merge]
  · by_cases hright : typesUsed (parametersOf right) name = []
    · simp only [hleft, hright, false_and, if_true, if_false, List.append_nil, Option.merge]
    · simp only [hleft, hright, and_self, if_false, SortedMap.keys_countAll_append, Option.merge]

end

/-! ## Reports -/

/-- A name that is reported stays reported, with its types, when parameters are added. -/
theorem exists_inconsistency_of_subset {records records' : List UsageRecord} {top : Nat}
    (hsubset : parametersOf records ⊆ parametersOf records') {finding : Inconsistency}
    (hfinding : finding ∈ (summarize records top).inconsistencies) :
    ∃ finding' ∈ (summarize records' top).inconsistencies,
      finding'.name = finding.name ∧ finding.types ⊆ finding'.types := by
  obtain ⟨hsize, htypes, -⟩ := mem_inconsistencies_iff.mp hfinding
  obtain ⟨parameter, hmem, other, hother, hconflict⟩ :=
    (one_lt_size_typeCounts_iff _ _).mp hsize
  have hsize' : 1 < (typeCounts records' finding.name).size :=
    (one_lt_size_typeCounts_iff _ _).mpr
      ⟨parameter, hsubset hmem, other, hsubset hother, hconflict⟩
  refine ⟨⟨finding.name, (typeCounts records' finding.name).keys, [.typeMismatch]⟩,
    mem_inconsistencies_iff.mpr ⟨hsize', rfl, rfl⟩, rfl, ?_⟩
  intro type htype
  rw [htypes] at htype
  obtain ⟨user, huser, hname, htype⟩ := mem_keys_typeCounts.mp htype
  exact mem_keys_typeCounts.mpr ⟨user, hsubset huser, hname, htype⟩

/-! ## Merged records -/

/-- The summary of merged records is made of the summaries of both sides: the numbers of records, of
parameters and of failures add up; the records of each kind add up; a name has the types of both
sides, ascending and each once, and is listed when one side lists it. A name that is reported for
one side is reported for both together, with at least the types it had. -/
theorem summary_of_merge (left right : List UsageRecord) (top : Nat) :
    let merged := summarize (merge left right) top
    let ofLeft := summarize left top
    let ofRight := summarize right top
    merged.totalUsages = ofLeft.totalUsages + ofRight.totalUsages ∧
    merged.totalParameters = ofLeft.totalParameters + ofRight.totalParameters ∧
    merged.failedExtractions = ofLeft.failedExtractions + ofRight.failedExtractions ∧
    Ascending merged.usagesByKind ∧
    (∀ kind, SortedMap.lookup kind merged.usagesByKind =
      Option.merge (· + ·) (SortedMap.lookup kind ofLeft.usagesByKind)
        (SortedMap.lookup kind ofRight.usagesByKind)) ∧
    Ascending merged.typesByName ∧
    (∀ name, SortedMap.lookup name merged.typesByName =
      Option.merge (fun types types' => sortedDistinct (types ++ types'))
        (SortedMap.lookup name ofLeft.typesByName)
        (SortedMap.lookup name ofRight.typesByName)) ∧
    (∀ finding, finding ∈ ofLeft.inconsistencies ∨ finding ∈ ofRight.inconsistencies →
      ∃ finding' ∈ merged.inconsistencies,
        finding'.name = finding.name ∧ finding.types ⊆ finding'.types) := by
  intro merged ofLeft ofRight
  -- sorting the records of both sides is not seen in their summary
  have hmerged : merged = summarize (left ++ right) top :=
    summarize_perm (merge_perm left right) top
  rw [hmerged]
  refine ⟨List.length_append, ?_, ?_, SortedMap.ascending _, ?_, typesByName_ascending _ _, ?_, ?_⟩
  · simp only [ofLeft, ofRight, totalParameters_summarize, parametersOf_append, List.length_append]
  · simp only [ofLeft, ofRight, failedExtractions_summarize, List.countP_append]
  · intro kind
    simp only [ofLeft, ofRight, lookup_usagesByKind, List.map_append]
    exact SortedMap.get?_countAll_append _ _ kind
  · exact lookup_typesByName_append left right top
  · intro finding hfinding
    rcases hfinding with hleft | hright
    · apply exists_inconsistency_of_subset _ hleft
      rw [parametersOf_append]
      exact List.subset_append_left _ _
    · apply exists_inconsistency_of_subset _ hright
      rw [parametersOf_append]
      exact List.subset_append_right _ _

end LogCensus
