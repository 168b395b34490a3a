import LogCensus.Proofs.Analysis.Recognition
import LogCensus.Proofs.Census.Order

/-!
# Divided work

The work of a run may be cut into contiguous pieces in any way, and the batches of the pieces may be
put together in any bracketing, with empty pieces anywhere: the result is that of one worker who
goes through the files in order. What a run returns is therefore fixed by the projects alone.

* `Plan.work`: the files of a plan, in order.
* `Batch.ofPlan_eq`: the batch of a plan is the batch of its files, whatever the plan.
* `gatherWith_eq`: the outcome of a run.
* `gathering_unaffected_by_division`: what the records of a run are.
-/

namespace LogCensus

/-- The files of a plan, in order. -/
def Plan.work : Plan → List WorkItem
  | .piece work => work
  | .join left right => left.work ++ right.work

namespace Plan

/-- Dividing work evenly neither loses nor reorders a file. -/
theorem work_evenly (pieces : Nat) (work : List WorkItem) : (evenly pieces work).work = work := by
  fun_induction evenly pieces work with
  | case1 work => rfl
  | case2 work => rfl
  | case3 pieces work size ih =>
    show work.take size ++ (evenly (pieces + 1) (work.drop size)).work = work
    rw [ih, List.take_append_drop]

end Plan

/-! ## Batches -/

namespace Batch

/-- The records of files in order, or none of them when the run was cancelled before it began. -/
def ofWork (analyzers : List Analyzer) (cancelled : Bool) (work : List WorkItem) : Batch where
  records :=
    if cancelled then [] else work.flatMap fun item => analyzeFile analyzers item.table item.file
  skipped := cancelled && !work.isEmpty

theorem merge_assoc (first second third : Batch) :
    (first.merge second).merge third = first.merge (second.merge third) := by
  simp only [merge, List.append_assoc, Bool.or_assoc]

theorem empty_merge (batch : Batch) : merge {} batch = batch := rfl

variable (analyzers : List Analyzer) (cancelled : Bool)

theorem merge_ofWork_nil (batch : Batch) :
    batch.merge (ofWork analyzers cancelled []) = batch := by
  simp only [merge, ofWork, List.flatMap_nil, ite_self, List.append_nil, List.isEmpty_nil,
    Bool.not_true, Bool.and_false, Bool.or_false]

/-- One step of a worker: adding a file is merging with the batch of that file. -/
theorem add_eq_merge (batch : Batch) (item : WorkItem) :
    batch.add analyzers cancelled item = batch.merge (ofWork analyzers cancelled [item]) := by
  cases cancelled with
  | false => simp [add, merge, ofWork]
  | true => simp [add, merge, ofWork]

theorem ofWork_append (left right : List WorkItem) :
    ofWork analyzers cancelled (left ++ right) =
      (ofWork analyzers cancelled left).merge (ofWork analyzers cancelled right) := by
  cases cancelled with
  | false => simp [merge, ofWork]
  | true => cases left <;> cases right <;> simp [merge, ofWork]

/-- All steps of a worker: going through a piece is merging with the batch of the piece. -/
theorem foldl_add_eq (work : List WorkItem) (batch : Batch) :
    work.foldl (add analyzers cancelled) batch =
      batch.merge (ofWork analyzers cancelled work) := by
  induction work generalizing batch with
  | nil => exact (merge_ofWork_nil analyzers cancelled batch).symm
  | cons item work ih =>
    rw [List.foldl_cons, ih, add_eq_merge, merge_assoc, ← ofWork_append, List.singleton_append]

/-- The batch of a plan depends on its files only. -/
theorem ofPlan_eq (plan : Plan) :
    ofPlan analyzers cancelled plan = ofWork analyzers cancelled plan.work := by
  induction plan with
  | piece work => exact (foldl_add_eq analyzers cancelled work {}).trans (empty_merge _)
  | join left right ihLeft ihRight =>
    show merge (ofPlan analyzers cancelled left) (ofPlan analyzers cancelled right) = _
    rw [ihLeft, ihRight, ← ofWork_append]
    rfl

end Batch

/-! ## Runs -/

/-- The records of all projects, file by file and each file with the symbols of its own project. -/
def recordsInOrder (analyzers : List Analyzer) (projects : List Snapshot) : List UsageRecord :=
  projects.flatMap fun project =>
    project.files.flatMap (analyzeFile analyzers (WellKnown.resolve project.compilation))

theorem flatMap_workItems (analyzers : List Analyzer) (projects : List Snapshot) :
    (workItems projects).flatMap (fun item => analyzeFile analyzers item.table item.file) =
      recordsInOrder analyzers projects := by
  simp only [workItems, List.flatMap_assoc, Snapshot.workItems, List.flatMap_map, recordsInOrder]

theorem isEmpty_workItems (projects : List Snapshot) :
    (workItems projects).isEmpty = projects.all fun project => project.files.isEmpty := by
  rw [Bool.eq_iff_iff]
  simp only [List.isEmpty_iff, workItems, List.flatMap_eq_nil_iff, Snapshot.workItems,
    List.map_eq_nil_iff, List.all_eq_true]

/-- The outcome of a run, however its work is divided. -/
theorem ofBatch_ofPlan (analyzers : List Analyzer) (projects : List Snapshot) (cancelled : Bool)
    {plan : Plan} (hplan : plan.work = workItems projects) :
    Gathered.ofBatch (.ofPlan analyzers cancelled plan) =
      ⟨if cancelled then [] else sortRecords (recordsInOrder analyzers projects),
        cancelled && projects.any fun project => !project.files.isEmpty⟩ := by
  rw [Batch.ofPlan_eq, hplan, List.any_eq_not_all_not]
  simp only [Gathered.ofBatch, Batch.ofWork, flatMap_workItems, isEmpty_workItems, Bool.not_not]
  cases cancelled with
  | false => rfl
  | true => simp [sortRecords]

/-- The outcome of a run is the same for every number of workers. -/
theorem gatherWith_eq (analyzers : List Analyzer) (projects : List Snapshot) (workers : Nat)
    (cancelled : Bool) :
    gatherWith analyzers projects workers cancelled =
      ⟨if cancelled then [] else sortRecords (recordsInOrder analyzers projects),
        cancelled && projects.any fun project => !project.files.isEmpty⟩ :=
  ofBatch_ofPlan analyzers projects cancelled (Plan.work_evenly _ _)

/-- A run that is not cancelled returns the records of all files, in some order. -/
theorem gather_perm (projects : List Snapshot) (workers : Nat) :
    (gather projects workers false).records.Perm (recordsInOrder Analyzer.all projects) := by
  rw [gather, gatherWith_eq]
  exact List.mergeSort_perm _ _

/-- The division of the work is invisible. Whatever contiguous pieces the files of the projects are
cut into and however the pieces are put together, the outcome is the same as for any number of
workers. A run that is not cancelled says so and returns the stable sort of the records of all files
in order, with no record lost or added; one that is cancelled before it begins returns no records,
and says that it was cancelled exactly when there was a file to analyze. -/
theorem gathering_unaffected_by_division (analyzers : List Analyzer) (projects : List Snapshot)
    (plan : Plan) (hplan : plan.work = workItems projects) :
    let run := fun cancelled => Gathered.ofBatch (.ofPlan analyzers cancelled plan)
    (∀ workers cancelled, gatherWith analyzers projects workers cancelled = run cancelled) ∧
    (run false).cancelled = false ∧
    (∀ records, StableSortOf UsageRecord.key (recordsInOrder analyzers projects) records ↔
      records = (run false).records) ∧
    (run false).records.Perm (recordsInOrder analyzers projects) ∧
    (run true).records = [] ∧
    ((run true).cancelled = true ↔ ∃ project ∈ projects, project.files ≠ []) := by
  intro run
  have hrun : ∀ cancelled, run cancelled = _ := fun cancelled =>
    ofBatch_ofPlan analyzers projects cancelled hplan
  have hsorted : (run false).records = sortRecords (recordsInOrder analyzers projects) := by
    rw [hrun]
    rfl
  refine ⟨?_, ?_, ?_, ?_, ?_, ?_⟩
  · intro workers cancelled
    rw [gatherWith_eq, hrun]
  · rw [hrun]
    rfl
  · intro records
    rw [hsorted]
    constructor
    · intro hstable
      exact hstable.unique (sortRecords_stable _)
    · rintro rfl
      exact sortRecords_stable _
  · rw [hsorted]
    exact List.mergeSort_perm _ _
  · rw [hrun]
    rfl
  · rw [hrun]
    simp

/-- A project with two files that have the same records at the same places. -/
def smallProject : Snapshot where
  name := "Users"
  compilation := smallCompilation
  files := [smallFile, smallFile]

/-- A plan with an empty piece, which takes the two files apart. -/
def smallPlan : Plan :=
  let table := WellKnown.resolve smallCompilation
  .join (.join (.piece []) (.piece [⟨table, smallFile⟩])) (.piece [⟨table, smallFile⟩])

theorem gathering_unaffected_by_division_smallPlan :
    smallPlan.work = workItems [smallProject] ∧
      gatherWith Analyzer.all [smallProject] 2 false =
        .ofBatch (.ofPlan Analyzer.all false smallPlan) ∧
      (Gathered.ofBatch (.ofPlan Analyzer.all true smallPlan)).cancelled = true := by
  have hplan : smallPlan.work = workItems [smallProject] := rfl
  obtain ⟨hworkers, -, -, -, -, hcancelled⟩ :=
    gathering_unaffected_by_division Analyzer.all [smallProject] smallPlan hplan
  refine ⟨hplan, hworkers 2 false, hcancelled.mpr ?_⟩
  exact ⟨smallProject, List.mem_cons_self, List.cons_ne_nil _ _⟩

end LogCensus
