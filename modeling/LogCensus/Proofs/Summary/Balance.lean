import LogCensus.Proofs.Summary.Merging
import LogCensus.Proofs.Summary.Ranking
import Mathlib.Algebra.BigOperators.Group.List.Lemmas
import Mathlib.Algebra.GroupWithZero.Nat

/-!
# The totals of a summary

A summary counts the same records and parameters in several ways: all together, by kind, by name and
by type. Each way divides them into parts without overlap, so the parts of each add up to the same
total. The list of common names is the one part that may be cut, and it adds up exactly when it is
not.

* `sum_count_of_nodup`: the counts of distinct items add up to the length of a list.
* `sum_usesOf`, `sum_usesWith`: the uses of all names, and of all types of a name.
* `sum_counts_commonNames_iff`: when the listed names make up all parameters.
* `totals_balance`: all totals of a summary.
-/

namespace LogCensus

/-! ## Counts of distinct items -/

/-- Counted once for each distinct item, the items of a list are all counted. -/
theorem sum_count_of_nodup {α : Type} [DecidableEq α] {distinct items : List α}
    (hnodup : distinct.Nodup) (hmem : ∀ item, item ∈ distinct ↔ item ∈ items) :
    (distinct.map fun item => items.count item).sum = items.length := by
  have hperm : distinct.Perm items.dedup := by
    rw [List.perm_ext_iff_of_nodup hnodup items.nodup_dedup]
    intro item
    rw [hmem, List.mem_dedup]
  rw [(hperm.map _).sum_eq, List.sum_map_count_dedup_eq_length]

/-- Positive numbers from the front of a list add up to all of them only when none is left out. -/
theorem sum_take_eq_iff {numbers : List Nat} (hpositive : ∀ number ∈ numbers, 0 < number)
    (count : Nat) : (numbers.take count).sum = numbers.sum ↔ numbers.length ≤ count := by
  constructor
  · intro hsum
    by_contra hshort
    have hlt : count < numbers.length := by omega
    have hleft := hpositive numbers[count] (List.getElem_mem hlt)
    have hsplit := congrArg List.sum (List.take_append_drop count numbers)
    rw [List.sum_append, List.drop_eq_getElem_cons hlt, List.sum_cons] at hsplit
    omega
  · intro hle
    rw [List.take_of_length_le hle]

/-- The entries of counted items: each item that occurs, with the number of its occurrences. -/
theorem SortedMap.mem_entries_countAll {α : Type} [Ord α] [Std.TransOrd α] [Std.LawfulEqOrd α]
    [DecidableEq α] {items : List α} {item : α} {count : Nat} :
    (item, count) ∈ (empty.countAll items).entries ↔ item ∈ items ∧ count = items.count item := by
  rw [mem_entries_iff, get?_countAll]
  by_cases hitem : item ∈ items
  · have hnone : (empty : SortedMap α Nat).get? item = none := rfl
    simp only [hitem, if_true, hnone, Option.getD_none, Nat.zero_add, Option.some.injEq, true_and]
    exact eq_comm
  · rw [if_neg hitem]
    simp only [hitem, false_and, iff_false]
    exact nofun

variable (records : List UsageRecord)

/-! ## Parameters by record, by name and by type -/

theorem length_parametersOf :
    (parametersOf records).length = (records.map fun record => record.parameters.length).sum :=
  List.length_flatMap

theorem usesOf_eq_count (name : String) :
    usesOf records name = ((parametersOf records).map Parameter.name).count name := by
  rw [usesOf, List.count, List.countP_map]
  apply List.countP_congr
  intro parameter _
  simp

/-- The uses of all names are all parameters. -/
theorem sum_usesOf :
    ((namesUsed records).map (usesOf records)).sum = (parametersOf records).length := by
  have hsum := sum_count_of_nodup (nodup_namesUsed records) fun _ => mem_namesUsed
  simp only [← usesOf_eq_count, List.length_map] at hsum
  exact hsum

/-- The uses of a name with all of its types are all uses of the name. -/
theorem sum_usesWith (name : String) :
    ((typeCounts records name).keys.map (usesWith records name)).sum = usesOf records name := by
  have hsum := sum_count_of_nodup (typeCounts records name).nodup_keys
    fun type => SortedMap.mem_keys_countAll (typesUsed (parametersOf records) name) type
  simp only [count_typesUsed] at hsum
  rw [usesOf, List.countP_eq_length_filter, ← List.length_map Parameter.type]
  exact hsum

/-! ## The listed names -/

namespace Summary

theorem length_ranking :
    (ranking (Tally.ofRecords records).types).length = (namesUsed records).length := by
  rw [← (names_ranking_perm records).length_eq, List.length_map]

theorem map_count_ranking :
    (ranking (Tally.ofRecords records).types).map CommonName.count =
      ((ranking (Tally.ofRecords records).types).map CommonName.name).map (usesOf records) := by
  rw [List.map_map]
  apply List.map_congr_left
  intro entry hentry
  rw [(mem_ranking_iff.mp hentry).2, count_commonName]
  rfl

/-- The ranking of all names counts all parameters. -/
theorem sum_counts_ranking :
    ((ranking (Tally.ofRecords records).types).map CommonName.count).sum =
      (parametersOf records).length := by
  rw [map_count_ranking, ((names_ranking_perm records).map _).sum_eq, sum_usesOf]

theorem count_pos_of_mem_ranking :
    ∀ count ∈ (ranking (Tally.ofRecords records).types).map CommonName.count, 0 < count := by
  rw [map_count_ranking, List.forall_mem_map]
  intro name hname
  obtain ⟨parameter, hmem, hused⟩ :=
    List.mem_map.mp (mem_namesUsed.mp ((names_ranking_perm records).mem_iff.mp hname))
  rw [usesOf, List.countP_pos_iff]
  exact ⟨parameter, hmem, by simpa using hused⟩

end Summary

/-- The listed names make up all parameters exactly when no name is cut off. -/
theorem sum_counts_commonNames_iff (top : Nat) :
    ((summarize records top).commonNames.map CommonName.count).sum = (parametersOf records).length ↔
      (namesUsed records).length ≤ top := by
  have hlisted : (summarize records top).commonNames =
      (Summary.ranking (Tally.ofRecords records).types).take top := rfl
  rw [hlisted, List.map_take, ← Summary.sum_counts_ranking, ← Summary.length_ranking,
    sum_take_eq_iff (Summary.count_pos_of_mem_ranking records), List.length_map]

/-! ## Names with types -/

variable (top : Nat)

/-- The names of the types by name are the names that are used, each once. -/
theorem names_typesByName_perm :
    ((summarize records top).typesByName.map Prod.fst).Perm (namesUsed records) := by
  have hnodup : ((summarize records top).typesByName.map Prod.fst).Nodup :=
    List.pairwise_map.mpr ((typesByName_ascending records top).imp SortedMap.ne_of_compare_eq_lt)
  rw [List.perm_ext_iff_of_nodup hnodup (nodup_namesUsed records)]
  intro name
  rw [List.mem_map, mem_namesUsed]
  constructor
  · rintro ⟨⟨name, types⟩, hentry, rfl⟩
    exact (mem_typesByName_iff.mp hentry).1
  · intro hname
    exact ⟨(name, _), mem_typesByName_iff.mpr ⟨hname, rfl⟩, rfl⟩

theorem uniqueNames_summarize :
    (summarize records top).uniqueNames = (namesUsed records).length := by
  rw [← (names_typesByName_perm records top).length_eq, List.length_map]
  exact (List.length_map _).symm

/-! ## Records by kind -/

theorem usagesByKind_eq :
    (summarize records top).usagesByKind =
      (SortedMap.empty.countAll (records.map UsageRecord.kind)).entries := by
  rw [summarize, Tally.ofRecords_eq]
  rfl

theorem mem_usagesByKind_iff {kind : CallKind} {count : Nat} :
    (kind, count) ∈ (summarize records top).usagesByKind ↔
      kind ∈ records.map UsageRecord.kind ∧ count = (records.map UsageRecord.kind).count kind := by
  rw [usagesByKind_eq, SortedMap.mem_entries_countAll]

/-- The records of all kinds are all records. -/
theorem sum_usagesByKind :
    ((summarize records top).usagesByKind.map Prod.snd).sum = records.length := by
  have hsum := sum_count_of_nodup
    (SortedMap.nodup_keys (SortedMap.empty.countAll (records.map UsageRecord.kind)))
    fun kind => SortedMap.mem_keys_countAll (records.map UsageRecord.kind) kind
  rw [List.length_map] at hsum
  rw [← hsum, SortedMap.keys, ← usagesByKind_eq records top, List.map_map]
  congr 1
  apply List.map_congr_left
  rintro ⟨kind, count⟩ hentry
  exact ((mem_usagesByKind_iff records top).mp hentry).2

/-! ## All totals -/

theorem UsageRecord.extractionFailed_iff {record : UsageRecord} :
    record.extractionFailed = true ↔ ∃ report ∈ record.extraction, report.success = false := by
  simp only [UsageRecord.extractionFailed, Option.any_eq_true, Option.mem_def, Bool.not_eq_true']

/-- The totals of a summary balance. The number of parameters is that of all records together, and
that of all names together, where the uses of a name are those with its types; the listed names make
it up exactly when no name is cut off. The unique names are those that have types. The kinds are
those of some record, and their numbers make up all records. The failures are the records with a
report without success. -/
theorem totals_balance (records : List UsageRecord) (top : Nat) :
    let summary := summarize records top
    summary.totalParameters = (records.map fun record => record.parameters.length).sum ∧
    summary.totalParameters = ((namesUsed records).map (usesOf records)).sum ∧
    (∀ name types, (name, types) ∈ summary.typesByName →
      (types.map (usesWith records name)).sum = usesOf records name) ∧
    ((summary.commonNames.map CommonName.count).sum = summary.totalParameters ↔
      summary.uniqueNames ≤ top) ∧
    summary.uniqueNames = summary.typesByName.length ∧
    (summary.typesByName.map Prod.fst).Perm (namesUsed records) ∧
    (summary.usagesByKind.map Prod.fst).Nodup ∧
    (∀ kind, kind ∈ summary.usagesByKind.map Prod.fst ↔ ∃ record ∈ records, record.kind = kind) ∧
    (∀ kind count, (kind, count) ∈ summary.usagesByKind →
      0 < count ∧ count = records.countP fun record => record.kind = kind) ∧
    (summary.usagesByKind.map Prod.snd).sum = summary.totalUsages ∧
    summary.totalUsages = records.length ∧
    summary.failedExtractions =
      records.countP fun record => ∃ report ∈ record.extraction, report.success = false := by
  intro summary
  have hparameters : summary.totalParameters = (parametersOf records).length :=
    totalParameters_summarize records top
  have hunique : summary.uniqueNames = (namesUsed records).length :=
    uniqueNames_summarize records top
  have hnames := names_typesByName_perm records top
  refine ⟨?_, ?_, ?_, ?_, ?_, hnames, ?_, ?_, ?_, ?_, rfl, ?_⟩
  · rw [hparameters, length_parametersOf]
  · rw [hparameters, sum_usesOf]
  · intro name types hentry
    rw [(mem_typesByName_iff.mp hentry).2, sum_usesWith]
  · rw [hparameters, hunique, sum_counts_commonNames_iff]
  · rw [hunique, ← hnames.length_eq, List.length_map]
  · exact SortedMap.nodup_keys _
  · intro kind
    rw [← List.mem_map, usagesByKind_eq]
    exact SortedMap.mem_keys_countAll _ _
  · intro kind count hentry
    obtain ⟨hkind, rfl⟩ := (mem_usagesByKind_iff records top).mp hentry
    refine ⟨List.count_pos_iff.mpr hkind, ?_⟩
    rw [List.count, List.countP_map]
    apply List.countP_congr
    intro record _
    simp
  · exact sum_usagesByKind records top
  · rw [failedExtractions_summarize]
    apply List.countP_congr
    intro record _
    rw [UsageRecord.extractionFailed_iff, decide_eq_true_iff]

end LogCensus
