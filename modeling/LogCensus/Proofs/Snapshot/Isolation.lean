import LogCensus.Proofs.Snapshot.Search

/-!
# Bad snapshots are isolated

A file that cannot be read or holds no snapshot gives a failure and nothing else. Each of the other
files gives a project, and which project that is depends on this file alone. So bad files may stand
anywhere in the list of files: the projects are the same as without them, and with the projects the
whole census.

* `Shuffled`: two lists put together with the order of each kept.
* `LoadsAs`, `FailsAs`: what one file gives.
* `bad_snapshots_isolated`: the outcome for a list of files, and for the list with bad files in it.
-/

namespace LogCensus

/-- `Shuffled items others all`: the items with the others in between, both in their order. -/
inductive Shuffled {α : Type} : List α → List α → List α → Prop
  | nil : Shuffled [] [] []
  | left {item : α} {items others all : List α} :
    Shuffled items others all → Shuffled (item :: items) others (item :: all)
  | right {other : α} {items others all : List α} :
    Shuffled items others all → Shuffled items (other :: others) (other :: all)

namespace Shuffled

variable {α β : Type} {items others all : List α}

theorem filterMap (f : α → Option β) (h : Shuffled items others all) :
    Shuffled (items.filterMap f) (others.filterMap f) (all.filterMap f) := by
  induction h with
  | nil => exact .nil
  | @left item items others all _ ih =>
    cases hitem : f item with
    | none => rwa [List.filterMap_cons_none hitem, List.filterMap_cons_none hitem]
    | some b =>
      rw [List.filterMap_cons_some hitem, List.filterMap_cons_some hitem]
      exact ih.left
  | @right other items others all _ ih =>
    cases hother : f other with
    | none => rwa [List.filterMap_cons_none hother, List.filterMap_cons_none hother]
    | some b =>
      rw [List.filterMap_cons_some hother, List.filterMap_cons_some hother]
      exact ih.right

theorem eq_of_nil (h : Shuffled items [] all) : all = items := by
  generalize hothers : ([] : List α) = others at h
  induction h with
  | nil => rfl
  | left _ ih => rw [ih hothers]
  | right => cases hothers

theorem length_eq (h : Shuffled items others all) : all.length = items.length + others.length := by
  induction h with
  | nil => rfl
  | left _ ih =>
    rw [List.length_cons, List.length_cons, ih]
    omega
  | right _ ih =>
    rw [List.length_cons, List.length_cons, ih]
    omega

end Shuffled

/-- The snapshot that a file holds; none when the file cannot be read or its text is no snapshot. -/
def FileTree.snapshot? (tree : FileTree) (path : Path) : Option Snapshot :=
  (tree.readText? path).bind Snapshot.ofText?

/-- Whether a file gives a project: that of its snapshot, with a name, with an index over its
symbols, and with exactly those of its source files that no pattern matches. -/
def LoadsAs (tree : FileTree) (patterns : List Glob) (path : Path) (project : Snapshot) : Prop :=
  ∃ snapshot, tree.snapshot? path = some snapshot ∧
    project.name = (if snapshot.name = "" then Snapshot.defaultName path else snapshot.name) ∧
    project.compilation = snapshot.compilation.rebuildIndex ∧
    project.files = snapshot.files.filter fun file =>
      ∀ glob ∈ patterns, ¬ glob.accepts file.path

/-- How a file fails. -/
inductive FailsAs (tree : FileTree) (path : Path) : LoadFailure → Prop
  | unreadable : tree.readText? path = none → FailsAs tree path (.unreadable path)
  | malformed {text : String} : tree.readText? path = some text → Snapshot.ofText? text = none →
    FailsAs tree path (.malformed path)

variable {tree : FileTree} {path : Path}

/-! ## One file -/

/-- A file with a snapshot gives its project. -/
theorem loadsAs_of_snapshot?_eq_some (patterns : List Glob) {snapshot : Snapshot}
    (h : tree.snapshot? path = some snapshot) :
    ∃ project, (loadSnapshot tree path).toOption = some project ∧
      failure? (loadSnapshot tree path) = none ∧
      LoadsAs tree patterns path (project.exclude patterns) := by
  obtain ⟨text, htext, hsnapshot⟩ := Option.bind_eq_some_iff.mp h
  have hload : loadSnapshot tree path = .ok (snapshot.prepare path) :=
    loadSnapshot_of_readText? htext hsnapshot
  refine ⟨snapshot.prepare path, by rw [hload]; rfl, by rw [hload]; rfl, snapshot, h, ?_, rfl, ?_⟩
  · simp [Snapshot.exclude, Snapshot.prepare]
  · simp only [Snapshot.exclude, Snapshot.prepare]
    refine List.filter_congr fun file _ => ?_
    rw [Bool.eq_iff_iff]
    simp

/-- A file without one gives a failure. -/
theorem failsAs_of_snapshot?_eq_none (h : tree.snapshot? path = none) :
    ∃ failure, (loadSnapshot tree path).toOption = none ∧
      failure? (loadSnapshot tree path) = some failure ∧ FailsAs tree path failure := by
  rw [loadSnapshot]
  cases htext : tree.readText? path with
  | none => exact ⟨_, rfl, rfl, .unreadable htext⟩
  | some text =>
    rw [FileTree.snapshot?, htext, Option.bind_some] at h
    dsimp only
    rw [h]
    exact ⟨_, rfl, rfl, .malformed htext h⟩

/-- A single file gives one project or one failure. -/
theorem length_loadSnapshots_singleton (tree : FileTree) (path : Path) (patterns : List Glob) :
    (loadSnapshots tree [path] patterns).projects.length +
      (loadSnapshots tree [path] patterns).failures.length = 1 := by
  rw [loadSnapshots_eq]
  cases h : loadSnapshot tree path with
  | error failure => simp [h, failure?, Except.toOption]
  | ok project => simp [h, failure?, Except.toOption]

/-! ## A list of files -/

theorem forall₂_loadsAs (patterns : List Glob) (paths : List Path) :
    List.Forall₂ (LoadsAs tree patterns)
      (paths.filter fun path => (tree.snapshot? path).isSome)
      (loadSnapshots tree paths patterns).projects := by
  rw [loadSnapshots_eq]
  dsimp only
  induction paths with
  | nil => exact .nil
  | cons path paths ih =>
    cases h : tree.snapshot? path with
    | none =>
      obtain ⟨_, hnone, -, -⟩ := failsAs_of_snapshot?_eq_none h
      rw [List.filter_cons_of_neg (by simp [h]), List.filterMap_cons_none (by exact hnone)]
      exact ih
    | some snapshot =>
      obtain ⟨project, hsome, -, hloads⟩ := loadsAs_of_snapshot?_eq_some patterns h
      rw [List.filter_cons_of_pos (by simp [h]), List.filterMap_cons_some (by exact hsome),
        List.map_cons]
      exact ih.cons hloads

theorem forall₂_failsAs (patterns : List Glob) (paths : List Path) :
    List.Forall₂ (FailsAs tree)
      (paths.filter fun path => (tree.snapshot? path).isNone)
      (loadSnapshots tree paths patterns).failures := by
  rw [loadSnapshots_eq]
  dsimp only
  induction paths with
  | nil => exact .nil
  | cons path paths ih =>
    cases h : tree.snapshot? path with
    | none =>
      obtain ⟨failure, -, hsome, hfails⟩ := failsAs_of_snapshot?_eq_none h
      rw [List.filter_cons_of_pos (by simp [h]), List.filterMap_cons_some (by exact hsome)]
      exact ih.cons hfails
    | some snapshot =>
      obtain ⟨_, -, hnone, -⟩ := loadsAs_of_snapshot?_eq_some patterns h
      rw [List.filter_cons_of_neg (by simp [h]), List.filterMap_cons_none (by exact hnone)]
      exact ih

theorem loadSnapshots_append (tree : FileTree) (paths others : List Path) (patterns : List Glob) :
    loadSnapshots tree (paths ++ others) patterns =
      { projects := (loadSnapshots tree paths patterns).projects ++
          (loadSnapshots tree others patterns).projects
        failures := (loadSnapshots tree paths patterns).failures ++
          (loadSnapshots tree others patterns).failures } := by
  simp only [loadSnapshots_eq, List.filterMap_append, List.map_append]

section

variable {paths bad all : List Path} (hall : Shuffled paths bad all)

include hall

/-- Bad files in between do not change the projects. -/
theorem projects_loadSnapshots_of_shuffled (tree : FileTree) (patterns : List Glob)
    (hbad : ∀ path ∈ bad, tree.snapshot? path = none) :
    (loadSnapshots tree all patterns).projects = (loadSnapshots tree paths patterns).projects := by
  have hnone : bad.filterMap (fun path => (loadSnapshot tree path).toOption) = [] := by
    refine List.filterMap_eq_nil_iff.mpr fun path hpath => ?_
    obtain ⟨_, hnone, -, -⟩ := failsAs_of_snapshot?_eq_none (hbad path hpath)
    exact hnone
  have hprojects := hall.filterMap fun path => (loadSnapshot tree path).toOption
  rw [hnone] at hprojects
  rw [loadSnapshots_eq, loadSnapshots_eq, hprojects.eq_of_nil]

/-- Other files in between add their failures, each at its place. -/
theorem failures_loadSnapshots_of_shuffled (tree : FileTree) (patterns : List Glob) :
    Shuffled (loadSnapshots tree paths patterns).failures
      (loadSnapshots tree bad patterns).failures (loadSnapshots tree all patterns).failures := by
  simp only [loadSnapshots_eq]
  exact hall.filterMap _

end

theorem length_failures_of_bad (patterns : List Glob) {bad : List Path}
    (hbad : ∀ path ∈ bad, tree.snapshot? path = none) :
    (loadSnapshots tree bad patterns).failures.length = bad.length := by
  rw [← (forall₂_failsAs patterns bad).length_eq, List.filter_eq_self.mpr]
  intro path hpath
  rw [hbad path hpath]
  rfl

/-! ## Isolation -/

/-- Bad snapshots are isolated. The files that hold a snapshot give the projects and the others give
the failures, both in order; a project has the source files that no pattern matches, in order. What
a file gives depends on the file alone, and the records of a run are those of the files, file by
file. When files that cannot be read or hold no snapshot are put anywhere in between, the projects
and so the census stay the same, and there is one more failure for each of them. The trees here have
no links, and every entry in them can be read: a file that cannot be read is one that is not there,
or that is no text. -/
theorem bad_snapshots_isolated (tree : FileTree) (paths : List Path) (patterns : List Glob) :
    let loaded := loadSnapshots tree paths patterns
    List.Forall₂ (LoadsAs tree patterns)
      (paths.filter fun path => (tree.snapshot? path).isSome) loaded.projects ∧
    List.Forall₂ (FailsAs tree)
      (paths.filter fun path => (tree.snapshot? path).isNone) loaded.failures ∧
    (∀ before path after, paths = before ++ path :: after →
      let alone := loadSnapshots tree [path] patterns
      loaded.projects = (loadSnapshots tree before patterns).projects ++ alone.projects ++
        (loadSnapshots tree after patterns).projects ∧
      loaded.failures = (loadSnapshots tree before patterns).failures ++ alone.failures ++
        (loadSnapshots tree after patterns).failures ∧
      alone.projects.length + alone.failures.length = 1) ∧
    (∀ options, (census loaded.projects options false).records =
      sortRecords (paths.flatMap fun path =>
        (tree.locate? path).elim [] (recordsAt tree patterns))) ∧
    ∀ bad all, (∀ path ∈ bad, tree.snapshot? path = none) → Shuffled paths bad all →
      let loaded' := loadSnapshots tree all patterns
      loaded'.projects = loaded.projects ∧
      (∀ options cancelled,
        census loaded'.projects options cancelled = census loaded.projects options cancelled) ∧
      Shuffled loaded.failures (loadSnapshots tree bad patterns).failures loaded'.failures ∧
      loaded'.failures.length = loaded.failures.length + bad.length := by
  refine ⟨forall₂_loadsAs patterns paths, forall₂_failsAs patterns paths, ?_, ?_, ?_⟩
  · rintro before path after rfl
    have hsplit : before ++ path :: after = before ++ [path] ++ after := by simp
    rw [hsplit, loadSnapshots_append, loadSnapshots_append]
    exact ⟨rfl, rfl, length_loadSnapshots_singleton tree path patterns⟩
  · intro options
    have hrecords := records_loadSnapshots tree paths patterns
    rw [List.flatMap_map] at hrecords
    rw [← hrecords]
    show (gather _ _ _).records = _
    rw [gather, gatherWith_eq]
    rfl
  · intro bad all hbad hall
    have hprojects := projects_loadSnapshots_of_shuffled hall tree patterns hbad
    have hfailures := failures_loadSnapshots_of_shuffled hall tree patterns
    refine ⟨hprojects, ?_, hfailures, ?_⟩
    · intro options cancelled
      rw [hprojects]
    · rw [hfailures.length_eq, length_failures_of_bad patterns hbad]

/-- A snapshot with one source file. -/
def plainText : String :=
  r#"{"files":[{"path":"User.cs"}]}"#

/-- A directory with a snapshot and with the beginning of one. -/
def damagedTree : FileTree where
  root := .directory
    [("App.semantic.json", .file (Text.bytes plainText)),
     ("Old.semantic.json", .file (Text.bytes "["))]
  current := []

theorem snapshot?_damagedTree :
    (damagedTree.snapshot? ⟨"App.semantic.json"⟩).isSome ∧
      damagedTree.snapshot? ⟨"Old.semantic.json"⟩ = none ∧
      damagedTree.snapshot? ⟨"New.semantic.json"⟩ = none := by
  refine ⟨?_, ?_, ?_⟩
  · have hplace : damagedTree.locate? ⟨"App.semantic.json"⟩ = some ["App.semantic.json"] := by
      decide
    have hread : damagedTree.readText? ⟨"App.semantic.json"⟩ = some plainText :=
      FileTree.readText?_of_descend? hplace rfl
    rw [FileTree.snapshot?, hread, Option.bind_some, plainText,
      show Snapshot.ofText? _ = _ from Snapshot.ofText?_ofList _]
    decide +kernel
  · have hplace : damagedTree.locate? ⟨"Old.semantic.json"⟩ = some ["Old.semantic.json"] := by
      decide
    have hread : damagedTree.readText? ⟨"Old.semantic.json"⟩ = some "[" :=
      FileTree.readText?_of_descend? hplace rfl
    have htext : (Snapshot.ofText? "[").isNone := by
      rw [show Snapshot.ofText? _ = _ from Snapshot.ofText?_ofList _]
      decide +kernel
    rw [FileTree.snapshot?, hread, Option.bind_some, Option.isNone_iff_eq_none.mp htext]
  · have hplace : damagedTree.locate? ⟨"New.semantic.json"⟩ = none := by decide
    rw [FileTree.snapshot?, FileTree.readText?, FileTree.entry?, hplace]
    rfl

theorem bad_snapshots_isolated_damagedTree :
    let bad := [Path.mk "Old.semantic.json", ⟨"New.semantic.json"⟩]
    let all := [Path.mk "Old.semantic.json", ⟨"App.semantic.json"⟩, ⟨"New.semantic.json"⟩]
    (∀ path ∈ bad, damagedTree.snapshot? path = none) ∧
      Shuffled [⟨"App.semantic.json"⟩] bad all ∧
      (loadSnapshots damagedTree all []).projects =
        (loadSnapshots damagedTree [⟨"App.semantic.json"⟩] []).projects ∧
      (loadSnapshots damagedTree [⟨"App.semantic.json"⟩] []).projects.length = 1 ∧
      (loadSnapshots damagedTree all []).failures.length =
        (loadSnapshots damagedTree [⟨"App.semantic.json"⟩] []).failures.length + 2 := by
  intro bad all
  obtain ⟨hgood, hmalformed, hmissing⟩ := snapshot?_damagedTree
  have hbad : ∀ path ∈ bad, damagedTree.snapshot? path = none := by
    intro path hpath
    rcases List.mem_cons.mp hpath with rfl | hpath
    · exact hmalformed
    · rw [List.mem_singleton.mp hpath]
      exact hmissing
  have hall : Shuffled [⟨"App.semantic.json"⟩] bad all := .right (.left (.right .nil))
  obtain ⟨hprojects, -, -, -, hisolated⟩ :=
    bad_snapshots_isolated damagedTree [⟨"App.semantic.json"⟩] []
  obtain ⟨hsame, -, -, hfailures⟩ := hisolated bad all hbad hall
  refine ⟨hbad, hall, hsame, ?_, hfailures⟩
  rw [← hprojects.length_eq, List.filter_cons_of_pos (by exact hgood)]
  rfl

end LogCensus
