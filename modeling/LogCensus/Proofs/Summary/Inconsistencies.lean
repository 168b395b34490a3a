import LogCensus.Proofs.Summary.Tally
import LogCensus.Summary.Codec
import Mathlib.Data.List.Nodup

/-!
# Inconsistent names

A name is reported when it is used with two types, in one record or in two, and then with all its
types. What is reported depends neither on the length of the ranking nor on the number of uses.

* `Parameter.Conflicts`: two uses of one name with different types.
* `mem_inconsistencies_iff`: what a summary reports.
* `inconsistencies_sound_and_complete`: the report and the types of all names.
-/

namespace LogCensus

/-- Two uses of one name with different types. -/
def Parameter.Conflicts (parameter other : Parameter) : Prop :=
  parameter.name = other.name ∧ parameter.type ≠ other.type

/-- A name has more than one type when two of its uses differ. -/
theorem one_lt_size_typeCounts_iff (records : List UsageRecord) (name : String) :
    1 < (typeCounts records name).size ↔
      ∃ parameter ∈ parametersOf records, ∃ other ∈ parametersOf records,
        parameter.name = name ∧ parameter.Conflicts other := by
  simp only [SortedMap.one_lt_size_iff, mem_keys_typeCounts]
  constructor
  · rintro ⟨_, ⟨parameter, hmem, hname, rfl⟩, _, ⟨other, hother, hsame, rfl⟩, hne⟩
    exact ⟨parameter, hmem, other, hother, hname, hname.trans hsame.symm, hne⟩
  · rintro ⟨parameter, hmem, other, hother, hname, hsame, hne⟩
    exact ⟨parameter.type, ⟨parameter, hmem, hname, rfl⟩, other.type,
      ⟨other, hother, hsame.symm.trans hname, rfl⟩, hne⟩

/-! ## What is reported -/

variable {records : List UsageRecord} {top : Nat}

/-- A name with more than one type is reported, with all its types. -/
theorem mem_inconsistencies_iff {finding : Inconsistency} :
    finding ∈ (summarize records top).inconsistencies ↔
      1 < (typeCounts records finding.name).size ∧
        finding.types = (typeCounts records finding.name).keys ∧
        finding.issues = [.typeMismatch] := by
  simp only [summarize, Summary.ofTally, List.mem_filterMap, Prod.exists, Tally.mem_types_iff,
    Summary.inconsistency?, Option.ite_none_right_eq_some, Option.some.injEq]
  constructor
  · rintro ⟨name, _, ⟨-, rfl⟩, hsize, rfl⟩
    exact ⟨hsize, rfl, rfl⟩
  · rintro ⟨hsize, htypes, hissues⟩
    obtain ⟨parameter, hmem, -, -, hname, -⟩ := (one_lt_size_typeCounts_iff _ _).mp hsize
    refine ⟨finding.name, _, ⟨List.mem_map.mpr ⟨parameter, hmem, hname⟩, rfl⟩, hsize, ?_⟩
    rw [← htypes, ← hissues]

/-- Reported names ascend. -/
theorem names_inconsistencies_ascending :
    ((summarize records top).inconsistencies.map Inconsistency.name).Pairwise (· < ·) := by
  rw [List.pairwise_map]
  apply List.Pairwise.filterMap _ _ (Tally.ofRecords records).types.ascending
  rintro ⟨name, types⟩ ⟨name', types'⟩ hlt finding hfinding finding' hfinding'
  simp only [Summary.inconsistency?, Option.ite_none_right_eq_some, Option.some.injEq]
    at hfinding hfinding'
  obtain ⟨-, rfl⟩ := hfinding
  obtain ⟨-, rfl⟩ := hfinding'
  exact compare_lt_iff_lt.mp hlt

/-- The types of all names are those of the tally. -/
theorem mem_typesByName_iff {name : String} {types : List String} :
    (name, types) ∈ (summarize records top).typesByName ↔
      name ∈ (parametersOf records).map Parameter.name ∧
        types = (typeCounts records name).keys := by
  simp only [summarize, Summary.ofTally, List.mem_map (α := String × SortedMap String Nat),
    Prod.exists, Tally.mem_types_iff, Prod.mk.injEq]
  constructor
  · rintro ⟨name, _, ⟨hname, rfl⟩, rfl, rfl⟩
    exact ⟨hname, rfl⟩
  · rintro ⟨hname, rfl⟩
    exact ⟨name, _, ⟨hname, rfl⟩, rfl, rfl⟩

/-- The report of a summary is sound and complete. A name is reported exactly when two parameters
with that name have different types, and then once; reported names ascend. A report lists the types
used with its name, ascending and each once, written together with the name; they are also the types
that the summary gives for the name among those of all names. None of this depends on the length of
the ranking. -/
theorem inconsistencies_sound_and_complete (records : List UsageRecord) (top : Nat) :
    let summary := summarize records top
    let names := summary.inconsistencies.map Inconsistency.name
    (∀ name, name ∈ names ↔
      ∃ parameter ∈ parametersOf records, ∃ other ∈ parametersOf records,
        parameter.name = name ∧ parameter.Conflicts other) ∧
    names.Pairwise (· < ·) ∧ (∀ name ∈ names, names.count name = 1) ∧
    (∀ finding ∈ summary.inconsistencies,
      (∀ type, type ∈ finding.types ↔
        ∃ parameter ∈ parametersOf records,
          parameter.name = finding.name ∧ parameter.type = type) ∧
      finding.types.Pairwise (· < ·) ∧
      finding.toJson = .object
        [("name", .string finding.name),
         ("types", .array (finding.types.map fun type =>
            .object [("name", .string finding.name), ("type", .string type)])),
         ("issueKinds", .array [.string "typeMismatch"])] ∧
      (finding.name, finding.types) ∈ summary.typesByName) ∧
    (summary.typesByName.map Prod.fst).Pairwise (· < ·) ∧
    (∀ name, name ∈ summary.typesByName.map Prod.fst ↔
      name ∈ (parametersOf records).map Parameter.name) ∧
    (∀ top', (summarize records top').inconsistencies = summary.inconsistencies ∧
      (summarize records top').typesByName = summary.typesByName) := by
  intro summary names
  have hascending : names.Pairwise (· < ·) := names_inconsistencies_ascending
  refine ⟨?_, hascending, ?_, ?_, ?_, ?_, fun _ => ⟨rfl, rfl⟩⟩
  · intro name
    rw [← one_lt_size_typeCounts_iff, List.mem_map]
    constructor
    · rintro ⟨finding, hfinding, rfl⟩
      exact (mem_inconsistencies_iff.mp hfinding).1
    · intro hsize
      exact ⟨⟨name, (typeCounts records name).keys, [.typeMismatch]⟩,
        mem_inconsistencies_iff.mpr ⟨hsize, rfl, rfl⟩, rfl⟩
  · intro name hname
    exact List.count_eq_one_of_mem (hascending.imp ne_of_lt) hname
  · intro finding hfinding
    obtain ⟨hsize, htypes, hissues⟩ := mem_inconsistencies_iff.mp hfinding
    obtain ⟨parameter, hmem, -, -, hname, -⟩ := (one_lt_size_typeCounts_iff _ _).mp hsize
    refine ⟨?_, ?_, ?_, ?_⟩
    · intro type
      rw [htypes, mem_keys_typeCounts]
    · rw [htypes]
      exact keys_typeCounts_ascending _ _
    · rw [Inconsistency.toJson, hissues]
      rfl
    · exact mem_typesByName_iff.mpr ⟨List.mem_map.mpr ⟨parameter, hmem, hname⟩, htypes⟩
  · rw [List.pairwise_map]
    apply List.pairwise_map.mpr
    exact (Tally.ofRecords records).types.ascending.imp fun hlt => compare_lt_iff_lt.mp hlt
  · intro name
    rw [List.mem_map]
    constructor
    · rintro ⟨⟨name, types⟩, hentry, rfl⟩
      exact (mem_typesByName_iff.mp hentry).1
    · intro hname
      exact ⟨(name, _), mem_typesByName_iff.mpr ⟨hname, rfl⟩, rfl⟩

end LogCensus
