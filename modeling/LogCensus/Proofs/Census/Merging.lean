import LogCensus.Proofs.Census.Division

/-!
# Merged runs

The records of several runs may be merged step by step, with any brackets, and are then those of one
run over all the projects: among records with the same key, each merge keeps those on its left
before those on its right, and the brackets do not change which records stand on the left. The two
sides of a merge may not be exchanged: two records with the same key change places.

* `Merging`: runs with the brackets of their merges.
* `merging_equals_one_run`: what merged runs amount to.
* `merge_comm_iff`: when the two sides of a merge may be exchanged.
-/

namespace LogCensus

/-! ## What a merge does -/

theorem merge_perm (left right : List UsageRecord) : (merge left right).Perm (left ++ right) :=
  List.mergeSort_perm _ _

/-- In a merge, the records with a key are those on the left before those on the right. -/
theorem recordsWithKey_merge (k : UsageRecord.Key) (left right : List UsageRecord) :
    recordsWithKey k (merge left right) = recordsWithKey k left ++ recordsWithKey k right := by
  rw [merge, recordsWithKey_sortRecords, recordsWithKey_append]

/-- Sorting the sides of a merge beforehand is not seen in the result. -/
theorem merge_sortRecords (left right : List UsageRecord) :
    merge (sortRecords left) (sortRecords right) = merge left right := by
  unfold merge
  rw [sortRecords_eq_iff]
  intro k
  simp only [recordsWithKey_append, recordsWithKey_sortRecords]

theorem merge_assoc (first second third : List UsageRecord) :
    merge (merge first second) third = merge first (merge second third) := by
  show sortRecords (merge first second ++ third) = sortRecords (first ++ merge second third)
  rw [sortRecords_eq_iff]
  intro k
  simp only [recordsWithKey_append, recordsWithKey_merge, List.append_assoc]

/-- Merging with no records leaves a list in the stable order of its keys. -/
theorem merge_nil_stable (records : List UsageRecord) :
    StableSortOf UsageRecord.key records (merge records []) := by
  rw [merge, List.append_nil]
  exact sortRecords_stable records

theorem nil_merge_stable (records : List UsageRecord) :
    StableSortOf UsageRecord.key records (merge [] records) :=
  sortRecords_stable records

/-! ## Brackets -/

/-- Runs, each with its own number of workers, and the brackets in which their records are
merged. -/
inductive Merging where
  | run (projects : List Snapshot) (workers : Nat)
  | join (left right : Merging)

namespace Merging

/-- The projects of each run, from left to right. -/
def runs : Merging → List (List Snapshot)
  | .run projects _ => [projects]
  | .join left right => left.runs ++ right.runs

/-- The records of the runs, merged as the brackets say. -/
def records : Merging → List UsageRecord
  | .run projects workers => (gather projects workers false).records
  | .join left right => merge left.records right.records

/-- Every bracketing gives the sorted records of all runs in order. -/
theorem records_eq (merging : Merging) :
    merging.records = sortRecords (recordsInOrder Analyzer.all merging.runs.flatten) := by
  induction merging with
  | run projects workers =>
    simp only [records, runs, gather, gatherWith_eq, List.flatten_singleton, Bool.false_eq_true,
      if_false]
  | join left right ihLeft ihRight =>
    show merge left.records right.records = _
    rw [ihLeft, ihRight, merge_sortRecords, merge, runs, List.flatten_append]
    simp only [recordsInOrder, List.flatMap_append]

end Merging

/-- Merging the records of runs, with any brackets, gives the records of one run over all their
projects: also when paths, places or whole records are repeated. Merging is associative on arbitrary
lists of records, and merging a list with no records is its stable sort. -/
theorem merging_equals_one_run :
    (∀ (merging : Merging) (workers : Nat),
      merging.records = (gather merging.runs.flatten workers false).records) ∧
    (∀ first second third : List UsageRecord,
      merge (merge first second) third = merge first (merge second third)) ∧
    (∀ records : List UsageRecord,
      StableSortOf UsageRecord.key records (merge records []) ∧
        StableSortOf UsageRecord.key records (merge [] records)) := by
  refine ⟨?_, merge_assoc, fun records => ⟨merge_nil_stable records, nil_merge_stable records⟩⟩
  intro merging workers
  rw [merging.records_eq, gather, gatherWith_eq]
  rfl

/-! ## Exchanging the sides -/

/-- The two sides of a merge may be exchanged exactly when, for each key, it does not matter which
side's records with that key come first. In any case the same records come out, and their keys in
the same order. -/
theorem merge_comm_iff (left right : List UsageRecord) :
    (merge left right = merge right left ↔
      ∀ k, recordsWithKey k left ++ recordsWithKey k right =
        recordsWithKey k right ++ recordsWithKey k left) ∧
    (merge left right).Perm (merge right left) ∧
    (merge left right).map UsageRecord.key = (merge right left).map UsageRecord.key := by
  have hperm : (merge left right).Perm (merge right left) :=
    (merge_perm left right).trans (List.perm_append_comm.trans (merge_perm right left).symm)
  refine ⟨?_, hperm, ?_⟩
  · simp only [merge, sortRecords_eq_iff, recordsWithKey_append]
  · -- the keys of both lists ascend, so having the same keys they have them in the same order
    have hleft := List.pairwise_map.mpr (sortRecords_stable (left ++ right)).ordered
    have hright := List.pairwise_map.mpr (sortRecords_stable (right ++ left)).ordered
    exact (hperm.map UsageRecord.key).eq_of_pairwise (fun _ _ _ _ => le_antisymm) hleft hright

/-- A call in a file that two projects share, where the type of the logged value depends on the
project. -/
def sharedUse (type : String) : UsageRecord where
  kind := .logMethod
  methodName := "LogInformation"
  parameters := [{ name := "Id", type := type, kind := .localReference }]
  location := ⟨"Shared.cs", 3, 3⟩

/-- Two runs that report the same call differently: merged in either order, the left one's record
comes first. -/
theorem merge_not_comm_sharedUse :
    ¬ ∀ left right : List UsageRecord, merge left right = merge right left := by
  intro hcomm
  have hfilter := sortRecords_eq_iff.mp (hcomm [sharedUse "int"] [sharedUse "long"])
    (sharedUse "int").key
  exact absurd hfilter (by decide)

end LogCensus
