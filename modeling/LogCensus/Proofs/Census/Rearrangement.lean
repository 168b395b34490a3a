import LogCensus.Proofs.Census.Division
import LogCensus.Proofs.Reordering

/-!
# The order of files and projects

Records of different files have different keys, because the path is a part of the key; records of
one file stay together and in order wherever the file stands. So, as long as no two files share a
path, a census is the same for every order of the projects and of the files in them, also where a
file has several records with one key.

* `Rearranged`: the same projects in another order, each with its files in another order.
* `census_unaffected_by_order`: the census of rearranged projects.
-/

namespace LogCensus

/-! ## Records of different files -/

/-- The records with a key are found among the items whose records may have it. -/
theorem recordsWithKey_flatMap {α : Type} (path : α → String) {records : α → List UsageRecord}
    (hpath : ∀ item, ∀ record ∈ records item, record.location.filePath = path item)
    (k : UsageRecord.Key) (items : List α) :
    recordsWithKey k (items.flatMap records) =
      recordsWithKey k ((items.filter fun item => path item = (ofLex k).1).flatMap records) := by
  induction items with
  | nil => rfl
  | cons item items ih =>
    by_cases hitem : path item = (ofLex k).1
    · rw [List.filter_cons_of_pos (by simpa using hitem), List.flatMap_cons, List.flatMap_cons,
        recordsWithKey_append, recordsWithKey_append, ih]
    · -- the path is a part of the key, so a record with another path has another key
      have hnone : recordsWithKey k (records item) = [] := by
        rw [recordsWithKey, List.filter_eq_nil_iff]
        intro record hrecord hkey
        have hkey : record.key = k := of_decide_eq_true hkey
        apply hitem
        rw [← hkey, ← hpath item record hrecord]
        rfl
      rw [List.filter_cons_of_neg (by simpa using hitem), List.flatMap_cons, recordsWithKey_append,
        hnone, List.nil_append, ih]

/-- Blocks of records from different files may be put in any order before they are sorted. -/
theorem sortRecords_flatMap_perm {α : Type} (path : α → String) {records : α → List UsageRecord}
    (hpath : ∀ item, ∀ record ∈ records item, record.location.filePath = path item)
    {items items' : List α} (hperm : items.Perm items') (hpaths : (items.map path).Nodup) :
    sortRecords (items.flatMap records) = sortRecords (items'.flatMap records) := by
  rw [sortRecords_eq_iff]
  intro k
  rw [recordsWithKey_flatMap path hpath, recordsWithKey_flatMap path hpath k items',
    filter_label_eq_of_perm hperm hpaths]

/-! ## Rearranged projects -/

/-- The same project with its files in another order. -/
structure Snapshot.SameButFileOrder (project project' : Snapshot) : Prop where
  name_eq : project.name = project'.name
  compilation_eq : project.compilation = project'.compilation
  files_perm : project.files.Perm project'.files

/-- The same projects in another order, each with its files in another order. -/
def Rearranged (projects projects' : List Snapshot) : Prop :=
  ReorderedBy Snapshot.SameButFileOrder projects projects'

/-- The paths of all files of all projects. -/
def filePaths (projects : List Snapshot) : List String :=
  projects.flatMap fun project => project.files.map SourceFile.path

theorem map_path_workItems (projects : List Snapshot) :
    (workItems projects).map (fun item => item.file.path) = filePaths projects := by
  simp only [workItems, List.map_flatMap, Snapshot.workItems, List.map_map, filePaths]
  rfl

theorem Snapshot.SameButFileOrder.workItems_perm {project project' : Snapshot}
    (h : project.SameButFileOrder project') : project.workItems.Perm project'.workItems := by
  unfold Snapshot.workItems
  rw [h.compilation_eq]
  exact h.files_perm.map _

/-- Rearranged projects have the same work, each file with the symbols of its own project. -/
theorem Rearranged.workItems_perm {projects projects' : List Snapshot}
    (h : Rearranged projects projects') : (workItems projects).Perm (workItems projects') :=
  h.flatMap_perm fun _ _ hproject => hproject.workItems_perm

/-- The order in which projects and files are given does not matter. When no two files have the same
path, rearranged projects have the same census, for any number of workers: the same records in the
same order, and the same summary. -/
theorem census_unaffected_by_order {projects projects' : List Snapshot}
    (hrearranged : Rearranged projects projects') (hpaths : (filePaths projects).Nodup)
    (workers workers' top : Nat) :
    census projects ⟨workers, top⟩ false = census projects' ⟨workers', top⟩ false := by
  have hrecords : sortRecords (recordsInOrder Analyzer.all projects) =
      sortRecords (recordsInOrder Analyzer.all projects') := by
    rw [← flatMap_workItems, ← flatMap_workItems]
    -- each file is a block of records of its own path, and the blocks change places
    apply sortRecords_flatMap_perm fun item => item.file.path
    · intro item record hrecord
      exact filePath_of_mem_analyzeFile hrecord
    · exact hrearranged.workItems_perm
    · rw [map_path_workItems]
      exact hpaths
  have hgather : gather projects workers false = gather projects' workers' false := by
    simp only [gather, gatherWith_eq, hrecords, Bool.false_and]
  simp only [census, hgather]

/-- A call on the first line of a file that logs a constant text. -/
def textCall (text : String) : CallSite where
  span := ⟨0, 0⟩
  invocation :=
    { method := { symbol := ⟨21⟩, name := "LogInformation" }
      arguments :=
        [argumentOf { symbol := some ⟨5⟩, display := "string" }
          { constant := some (.string text), shape := .literal }] }

/-- A file whose two calls give different records with the same key. -/
def tiedFile : SourceFile where
  path := "Login.cs"
  callSites := [textCall "Begin", textCall "End"]

example :
    (analyzeFile Analyzer.all (WellKnown.resolve smallCompilation) tiedFile).map
      UsageRecord.messageTemplate = [some "Begin", some "End"] := by
  decide

def projectOf (files : List SourceFile) : Snapshot where
  compilation := smallCompilation
  files := files

theorem census_unaffected_by_order_tiedFile :
    let mail : SourceFile := { path := "Mail.cs", callSites := [textCall "Sent"] }
    let projects := [projectOf [tiedFile, smallFile], projectOf [mail]]
    let projects' := [projectOf [mail], projectOf [smallFile, tiedFile]]
    Rearranged projects projects' ∧ (filePaths projects).Nodup ∧
      census projects ⟨1, 10⟩ false = census projects' ⟨4, 10⟩ false := by
  intro mail projects projects'
  have hrearranged : Rearranged projects projects' := by
    refine ⟨[projectOf [mail], projectOf [tiedFile, smallFile]], .swap .., ?_⟩
    exact .cons ⟨rfl, rfl, .refl _⟩ (.cons ⟨rfl, rfl, .swap ..⟩ .nil)
  have hpaths : (filePaths projects).Nodup := by decide
  exact ⟨hrearranged, hpaths, census_unaffected_by_order hrearranged hpaths 1 4 10⟩

end LogCensus
