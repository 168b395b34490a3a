import LogCensus.Snapshot.Search
import LogCensus.Proofs.Census.Division
import LogCensus.Proofs.FileTree.Expand
import LogCensus.Proofs.Snapshot.Load
import LogCensus.Proofs.SortedMap
import Mathlib.Data.List.Nodup

/-!
# Files that are found twice

The files that a search finds are distinct as texts. A text is that of a starting point with names
joined to it, so one file is found with two texts when two starting points lead to it and are
spelled apart, as `.` and `obj` are: the calls in the file are then counted once for each text. When
all starting points are spelled by names from one front, no file is found twice.

* `Search.FoundFrom`: how a text is found from a starting point.
* `Search.mem_files_iff`: what a search finds.
* `Search.SpelledApart`: two starting points that give one file two texts.
* `Search.nodup_places_iff`: when no file is found twice.
* `search_finds_once_iff`: when no file is read twice, and what that does to the records of a run.
-/

namespace LogCensus

namespace Search

/-- How a text is found from a starting point: it is that of the starting point with names joined to
it, and leads to a file at the place below that of the starting point. -/
structure FoundFrom (tree : FileTree) (root : Path) (location names : List String)
    (text : String) : Prop where
  start : tree.locate? root = some location
  proper : ∀ name ∈ names, Path.isName name
  text_eq : text = (root.joinAll names).text
  file : ∃ content, tree.root.descend? (location ++ names) = some (.file content)

/-- Two starting points that give a file two texts: some way down from the outer one leads to where
the inner one leads, but the texts of the file at the end of the way differ. -/
structure SpelledApart (tree : FileTree) (files : List String) (outer inner : Path)
    (way rest : List String) : Prop where
  proper : ∀ name ∈ way ++ rest, Path.isName name
  meet : ∃ location, tree.locate? (outer.joinAll way) = some location ∧
    tree.locate? inner = some location
  outer_mem : (outer.joinAll (way ++ rest)).text ∈ files
  inner_mem : (inner.joinAll rest).text ∈ files
  ne : outer.joinAll (way ++ rest) ≠ inner.joinAll rest

/-- Whether a starting point is spelled by names from a front, perhaps with a slash at the end. -/
def SpelledFrom (front root : Path) : Prop :=
  ∃ names, (∀ name ∈ names, Path.isName name) ∧
    (root = front.joinAll names ∨ root = (front.joinAll names).join "")

/-- Whether an included text has no wildcards and is made of names, perhaps with a slash at the
end. -/
def IsPlain (text : String) : Prop :=
  Glob.hasWildcard text = false ∧ ∀ piece ∈ Path.steps ⟨text⟩, Path.isName piece

/-- Whether an included text is a pattern that leads down from the root or the current directory. -/
def LeadsDown (base : Path) (text : String) : Prop :=
  Glob.hasWildcard text ∧ Path.isAbsolute ⟨text⟩ = false ∧ (base.join text).expandsDown

instance : DecidablePred IsPlain :=
  fun text => inferInstanceAs (Decidable (_ ∧ ∀ piece ∈ Path.steps ⟨text⟩, Path.isName piece))

instance (base : Path) : DecidablePred (LeadsDown base) :=
  fun _ => inferInstanceAs (Decidable (_ ∧ _ ∧ _))

variable {tree : FileTree} {base : Path} {options : SearchOptions}

/-! ## The texts found -/

theorem files_ascending (tree : FileTree) (base : Path) (options : SearchOptions) :
    (search tree base options).files.Pairwise fun text later => compare text later = .lt := by
  rw [search]
  split
  · exact List.Pairwise.nil
  · exact sortedDistinct_ascending _

theorem files_nodup (tree : FileTree) (base : Path) (options : SearchOptions) :
    (search tree base options).files.Nodup :=
  (files_ascending tree base options).imp fun hlt => SortedMap.ne_of_compare_eq_lt hlt

/-- The texts of a walk: those of the snapshot files that are not ignored. -/
theorem mem_filesOf {rules : IgnoreRules} {pattern : Glob} {entries : List (Path × FileEntry)}
    {text : String} :
    text ∈ filesOf rules pattern entries ↔
      (¬ rules.ignores ⟨text⟩ ∧ isSnapshot pattern ⟨text⟩) ∧
        ∃ content, (⟨text⟩, .file content) ∈ entries := by
  rw [filesOf, List.mem_map]
  constructor
  · rintro ⟨⟨path, entry⟩, hkept, rfl⟩
    obtain ⟨hmem, hkept⟩ := List.mem_filter.mp hkept
    simp only [Bool.and_eq_true, Bool.not_eq_true'] at hkept
    cases entry with
    | directory entries => exact absurd hkept.1.2 Bool.false_ne_true
    | file content =>
      exact ⟨⟨Bool.eq_false_iff.mp hkept.1.1, hkept.2⟩, content, hmem⟩
  · rintro ⟨⟨hkept, hpattern⟩, content, hmem⟩
    refine ⟨(⟨text⟩, .file content), List.mem_filter.mpr ⟨hmem, ?_⟩, rfl⟩
    simp only [Bool.and_eq_true, Bool.not_eq_true']
    exact ⟨⟨Bool.eq_false_iff.mpr hkept, rfl⟩, hpattern⟩

theorem mem_run_files {pattern : Glob} {text : String} :
    text ∈ (run tree base options pattern).files ↔
      ∃ root ∈ roots tree base options.includes, ∃ entry, tree.entry? root = some entry ∧
        text ∈ filesOf (.ofTexts base options.ignores) pattern (FileEntry.walk root entry) := by
  rw [run, mem_sortedDistinct, List.mem_flatMap]
  constructor
  · rintro ⟨walked, hwalked, htext⟩
    obtain ⟨_, hwalk, rfl⟩ := List.mem_filterMap.mp hwalked
    obtain ⟨root, hroot, hwalk⟩ := List.mem_map.mp hwalk
    obtain ⟨entry, hentry, rfl⟩ := Option.map_eq_some_iff.mp hwalk
    exact ⟨root, hroot, entry, hentry, htext⟩
  · rintro ⟨root, hroot, entry, hentry, htext⟩
    have hwalk : tree.walk? root = some (FileEntry.walk root entry) := by
      rw [FileTree.walk?, hentry, Option.map_some]
    exact ⟨_, List.mem_filterMap.mpr ⟨_, List.mem_map_of_mem hroot, hwalk⟩, htext⟩

namespace FoundFrom

variable {root : Path} {location names : List String} {text : String}

/-- A text that is found leads to its file. -/
theorem locate?_eq (h : FoundFrom tree root location names text) :
    tree.locate? ⟨text⟩ = some (location ++ names) := by
  obtain ⟨content, hfile⟩ := h.file
  rw [h.text_eq]
  exact FileTree.locate?_joinAll h.proper h.start (Option.isSome_of_eq_some hfile)

theorem isFile (h : FoundFrom tree root location names text) : tree.isFile ⟨text⟩ := by
  obtain ⟨content, hfile⟩ := h.file
  have hentry : tree.entry? ⟨text⟩ = some (.file content) := by
    rw [FileTree.entry?, h.locate?_eq]
    exact hfile
  rw [FileTree.isFile, hentry]
  rfl

end FoundFrom

/-! ## Files found twice -/

/-- Two texts of one file come from starting points that are spelled apart. -/
theorem spelledApart_of_foundFrom {files : List String} {outer inner : Path}
    {location way rest : List String} {text other : String}
    (houter : FoundFrom tree outer location (way ++ rest) text)
    (hinner : FoundFrom tree inner (location ++ way) rest other)
    (htext : text ∈ files) (hother : other ∈ files) (hne : text ≠ other) :
    SpelledApart tree files outer inner way rest where
  proper := houter.proper
  meet := by
    have hway : ∀ name ∈ way, Path.isName name := (List.forall_mem_append.mp houter.proper).1
    obtain ⟨content, hfile⟩ := hinner.file
    have hentry : (tree.root.descend? (location ++ way)).isSome :=
      FileEntry.isSome_descend?_of_append (Option.isSome_of_eq_some hfile)
    exact ⟨location ++ way, FileTree.locate?_joinAll hway houter.start hentry, hinner.start⟩
  outer_mem := houter.text_eq ▸ htext
  inner_mem := hinner.text_eq ▸ hother
  ne heq := hne (by rw [houter.text_eq, hinner.text_eq, heq])

section

variable (hproper : tree.root.isProper)

include hproper

/-- What the walk from a starting point finds, by the names on the way. -/
theorem exists_mem_walk_iff {root : Path} {text : String} :
    (∃ entry, tree.entry? root = some entry ∧
      ∃ content, (⟨text⟩, .file content) ∈ FileEntry.walk root entry) ↔
      ∃ location names, FoundFrom tree root location names text := by
  constructor
  · rintro ⟨entry, hentry, content, hmem⟩
    obtain ⟨location, hlocation, hbelow⟩ := Option.bind_eq_some_iff.mp hentry
    obtain ⟨names, hnames, hfile, htext⟩ :=
      FileEntry.exists_of_mem_walk (FileEntry.isProper_of_descend? hproper hbelow) hmem
    refine ⟨location, names, hlocation, hnames, congrArg Path.text htext, content, ?_⟩
    rw [FileEntry.descend?_append, hbelow]
    exact hfile
  · rintro ⟨location, names, hfound⟩
    obtain ⟨content, hfile⟩ := hfound.file
    rw [FileEntry.descend?_append] at hfile
    obtain ⟨entry, hentry, hbelow⟩ := Option.bind_eq_some_iff.mp hfile
    refine ⟨entry, ?_, content, ?_⟩
    · rw [FileTree.entry?, hfound.start]
      exact hentry
    · rw [hfound.text_eq]
      exact FileEntry.mem_walk_of_descend? hbelow

/-- What a search finds: the files below its starting points whose name matches the pattern and
whose text is not ignored. -/
theorem mem_files_iff {text : String} :
    text ∈ (search tree base options).files ↔
      (∃ pattern, Glob.parse options.snapshotPattern = .ok pattern ∧ isSnapshot pattern ⟨text⟩) ∧
      ¬ (IgnoreRules.ofTexts base options.ignores).ignores ⟨text⟩ ∧
      ∃ root ∈ roots tree base options.includes, ∃ location names,
        FoundFrom tree root location names text := by
  simp only [← exists_mem_walk_iff hproper]
  rw [search]
  cases Glob.parse options.snapshotPattern with
  | error fault =>
    refine iff_of_false List.not_mem_nil ?_
    rintro ⟨⟨pattern, hpattern, -⟩, -⟩
    cases hpattern
  | ok pattern =>
    simp only [mem_run_files, mem_filesOf, Except.ok.injEq, exists_eq_left']
    constructor
    · rintro ⟨root, hroot, entry, hentry, ⟨hkept, hsnapshot⟩, hfile⟩
      exact ⟨hsnapshot, hkept, root, hroot, entry, hentry, hfile⟩
    · rintro ⟨hsnapshot, hkept, root, hroot, entry, hentry, hfile⟩
      exact ⟨root, hroot, entry, hentry, ⟨hkept, hsnapshot⟩, hfile⟩

theorem foundFrom_of_mem_files {text : String}
    (htext : text ∈ (search tree base options).files) :
    ∃ root ∈ roots tree base options.includes, ∃ location names,
      FoundFrom tree root location names text :=
  ((mem_files_iff hproper).mp htext).2.2

/-- A text that is found and made of names joined to a path leads down from there. -/
theorem locate?_of_joinAll_mem {path : Path} {location names : List String}
    (hnames : ∀ name ∈ names, Path.isName name) (hpath : tree.locate? path = some location)
    (hmem : (path.joinAll names).text ∈ (search tree base options).files) :
    tree.locate? (path.joinAll names) = some (location ++ names) := by
  obtain ⟨root, -, start, steps, hfound⟩ := foundFrom_of_mem_files hproper hmem
  have hplace := hfound.locate?_eq
  obtain ⟨location', hlocation', hplace'⟩ :=
    FileTree.exists_of_reach?_joinAll hnames (FileTree.locate?_eq_some_iff.mp hplace).2
  have hsame : location' = location :=
    Option.some.inj (hlocation'.symm.trans (FileTree.locate?_eq_some_iff.mp hpath).2)
  rw [hplace, hplace', hsame]

/-- No file is found twice exactly when no two starting points that lead to it are spelled apart. -/
theorem nodup_places_iff :
    ((search tree base options).files.map fun text => tree.locate? ⟨text⟩).Nodup ↔
      ¬ ∃ outer ∈ roots tree base options.includes, ∃ inner ∈ roots tree base options.includes,
        ∃ way rest, SpelledApart tree (search tree base options).files outer inner way rest := by
  rw [List.nodup_map_iff_inj_on (files_nodup tree base options)]
  constructor
  · rintro hinjective ⟨outer, -, inner, -, way, rest, happart⟩
    obtain ⟨location, houter, hinner⟩ := happart.meet
    have hrest : ∀ name ∈ rest, Path.isName name := (List.forall_mem_append.mp happart.proper).2
    have houterMem := happart.outer_mem
    have hne := happart.ne
    rw [Path.joinAll_append] at houterMem hne
    apply hne
    have hplace : tree.locate? ((outer.joinAll way).joinAll rest) =
        tree.locate? (inner.joinAll rest) := by
      rw [locate?_of_joinAll_mem hproper hrest houter houterMem,
        locate?_of_joinAll_mem hproper hrest hinner happart.inner_mem]
    exact congrArg Path.mk (hinjective _ houterMem _ happart.inner_mem hplace)
  · intro hnone text htext other hother hplace
    by_contra hne
    apply hnone
    obtain ⟨root, hroot, location, names, hfound⟩ := foundFrom_of_mem_files hproper htext
    obtain ⟨root', hroot', location', names', hfound'⟩ := foundFrom_of_mem_files hproper hother
    rw [hfound.locate?_eq, hfound'.locate?_eq] at hplace
    -- one of the starting points lies at or below the other one
    rcases List.append_eq_append_iff.mp (Option.some.inj hplace) with
      ⟨way, rfl, rfl⟩ | ⟨way, rfl, rfl⟩
    · exact ⟨root, hroot, root', hroot', way, names',
        spelledApart_of_foundFrom hfound hfound' htext hother hne⟩
    · exact ⟨root', hroot', root, hroot, way, names,
        spelledApart_of_foundFrom hfound' hfound hother htext (Ne.symm hne)⟩

/-- Distinct places have distinct simplified paths. -/
theorem nodup_simplified_of_nodup_places
    (hnodup : ((search tree base options).files.map fun text => tree.locate? ⟨text⟩).Nodup) :
    ((search tree base options).files.map fun text => Path.simplified ⟨text⟩).Nodup := by
  rw [List.nodup_map_iff_inj_on (files_nodup tree base options)] at hnodup ⊢
  intro text htext other hother hsame
  obtain ⟨root, -, location, names, hfound⟩ := foundFrom_of_mem_files hproper htext
  obtain ⟨root', -, location', names', hfound'⟩ := foundFrom_of_mem_files hproper hother
  refine hnodup text htext other hother ?_
  have hplace := FileTree.eq_of_simplified_eq hfound.locate?_eq hfound'.locate?_eq hsame
  rw [hfound.locate?_eq, hfound'.locate?_eq, hplace]

end

/-! ## Starting points spelled alike -/

/-- A text found from a starting point spelled from a front is that of the front with names. -/
theorem exists_eq_joinAll_of_spelledFrom {front root : Path} (hspelled : SpelledFrom front root)
    {location names : List String} {text : String}
    (hfound : FoundFrom tree root location names text) :
    ∃ steps, (∀ name ∈ steps, Path.isName name) ∧ text = (front.joinAll steps).text := by
  obtain ⟨lead, hlead, hroot⟩ := hspelled
  refine ⟨lead ++ names, List.forall_mem_append.mpr ⟨hlead, hfound.proper⟩, ?_⟩
  rw [hfound.text_eq, Path.joinAll_append]
  rcases hroot with rfl | rfl
  · rfl
  · have hnames : names ≠ [] := by
      -- the starting point itself ends in a slash, so it is no file
      rintro rfl
      obtain ⟨entries, hdirectory⟩ := FileTree.exists_directory_of_join_empty hfound.start
      obtain ⟨content, hfile⟩ := hfound.file
      rw [List.append_nil, hdirectory] at hfile
      cases hfile
    rw [Path.joinAll_join_empty _ hfound.proper hnames]

/-- No file is found twice when all starting points are spelled from one front. -/
theorem nodup_places_of_spelledFrom (hproper : tree.root.isProper) (front : Path)
    (hspelled : ∀ root ∈ roots tree base options.includes, SpelledFrom front root) :
    ((search tree base options).files.map fun text => tree.locate? ⟨text⟩).Nodup := by
  rw [List.nodup_map_iff_inj_on (files_nodup tree base options)]
  intro text htext other hother hplace
  obtain ⟨root, hroot, location, names, hfound⟩ := foundFrom_of_mem_files hproper htext
  obtain ⟨root', hroot', location', names', hfound'⟩ := foundFrom_of_mem_files hproper hother
  obtain ⟨steps, hsteps, rfl⟩ := exists_eq_joinAll_of_spelledFrom (hspelled root hroot) hfound
  obtain ⟨steps', hsteps', rfl⟩ := exists_eq_joinAll_of_spelledFrom (hspelled root' hroot') hfound'
  have hreach := (FileTree.locate?_eq_some_iff.mp hfound.locate?_eq).2
  have hreach' := (FileTree.locate?_eq_some_iff.mp (hplace ▸ hfound.locate?_eq)).2
  obtain ⟨start, hstart, heq⟩ := FileTree.exists_of_reach?_joinAll hsteps hreach
  obtain ⟨start', hstart', heq'⟩ := FileTree.exists_of_reach?_joinAll hsteps' hreach'
  have hsame : start = start' := Option.some.inj (hstart.symm.trans hstart')
  rw [heq, hsame] at heq'
  rw [List.append_cancel_left heq']

/-- The starting point of a search without included texts is spelled from itself. -/
theorem spelledFrom_self (front : Path) : SpelledFrom front front := by
  refine ⟨[], ?_, .inl rfl⟩
  intro name hname
  cases hname

theorem spelledFrom_of_isPlain {text : String} (hplain : IsPlain text) :
    ∀ root ∈ rootsOf tree base text, SpelledFrom base root := by
  intro root hroot
  obtain ⟨hliteral, hnames⟩ := hplain
  rw [rootsOf, hliteral] at hroot
  have heq : root = base.join text := by
    split at hroot
    · next hwildcard => cases hwildcard
    · split at hroot
      · exact List.mem_singleton.mp hroot
      · cases hroot
  rw [heq]
  exact ⟨Path.steps ⟨text⟩, hnames, base.join_cases hnames⟩

theorem spelledFrom_of_leadsDown (hproper : tree.root.isProper) {text : String}
    (hdown : LeadsDown base text) :
    ∀ root ∈ rootsOf tree base text,
      SpelledFrom ⟨if base.isAbsolute then "/" else ""⟩ root := by
  intro root hroot
  obtain ⟨hwildcard, hrelative, hexpands⟩ := hdown
  rw [rootsOf, if_pos hwildcard] at hroot
  cases hexpand : tree.expand (base.join text) with
  | error fault =>
    rw [hexpand] at hroot
    cases hroot
  | ok paths =>
    rw [hexpand] at hroot
    obtain ⟨names, -, hnames, heq⟩ :=
      FileTree.spelledDown_of_mem_expand hproper hexpands hexpand (List.mem_filter.mp hroot).1
    rw [Path.isAbsolute_join base hrelative] at heq
    exact ⟨names, hnames, .inl heq⟩

/-- No file is found twice when every included text gives starting points spelled from one front. -/
theorem nodup_places_of_rootsOf (hproper : tree.root.isProper) (front : Path)
    (hspelled : ∀ text ∈ options.includes, ∀ root ∈ rootsOf tree base text,
      SpelledFrom front root) :
    ((search tree base options).files.map fun text => tree.locate? ⟨text⟩).Nodup := by
  by_cases hnone : options.includes.isEmpty
  · refine nodup_places_of_spelledFrom hproper base ?_
    intro root hroot
    rw [roots, if_pos hnone] at hroot
    rw [List.mem_singleton.mp hroot]
    exact spelledFrom_self base
  · refine nodup_places_of_spelledFrom hproper front ?_
    intro root hroot
    rw [roots, if_neg hnone] at hroot
    obtain ⟨text, htext, hroot⟩ := List.mem_flatMap.mp hroot
    exact hspelled text htext root hroot

end Search

/-! ## The records of the files found -/

/-- The records of the snapshot in the file at a place, without those of source files that a pattern
matches; none when there is no snapshot. -/
def recordsAt (tree : FileTree) (patterns : List Glob) (location : List String) :
    List UsageRecord :=
  match (((tree.root.descend? location).bind FileEntry.content?).bind Text.ofBytes?).bind
    Snapshot.ofText? with
  | none => []
  | some snapshot => recordsInOrder Analyzer.all [(snapshot.prepare ⟨""⟩).exclude patterns]

/-- The records of a loaded file are those of its place: its path gives a snapshot no more than a
name. -/
theorem records_loadSnapshot (tree : FileTree) (path : Path) (patterns : List Glob) :
    recordsInOrder Analyzer.all
        ((loadSnapshot tree path).toOption.map (Snapshot.exclude patterns)).toList =
      (tree.locate? path).elim [] (recordsAt tree patterns) := by
  rw [loadSnapshot, FileTree.readText?, FileTree.entry?]
  cases tree.locate? path with
  | none => rfl
  | some location =>
    simp only [Option.bind_eq_bind, Option.bind_some, Option.elim_some, recordsAt]
    cases tree.root.descend? location with
    | none => rfl
    | some entry =>
      cases entry with
      | directory entries => rfl
      | file content =>
        simp only [Option.bind_some, FileEntry.content?]
        cases Text.ofBytes? content with
        | none => rfl
        | some text =>
          simp only [Option.bind_some]
          cases Snapshot.ofText? text with
          | none => rfl
          | some snapshot => rfl

/-- The records of loaded files are those of their places, place by place. -/
theorem records_loadSnapshots (tree : FileTree) (paths : List Path) (patterns : List Glob) :
    recordsInOrder Analyzer.all (loadSnapshots tree paths patterns).projects =
      (paths.map tree.locate?).flatMap fun place => place.elim [] (recordsAt tree patterns) := by
  simp only [loadSnapshots_eq]
  induction paths with
  | nil => rfl
  | cons path paths ih =>
    rw [List.map_cons, List.flatMap_cons, ← ih, ← records_loadSnapshot]
    cases hload : loadSnapshot tree path with
    | error failure =>
      rw [List.filterMap_cons_none (by rw [hload]; rfl)]
      rfl
    | ok snapshot =>
      rw [List.filterMap_cons_some (by rw [hload]; rfl)]
      simp [recordsInOrder, Except.toOption]

/-- When no file is read twice. A search finds the snapshot files below its starting points that are
not ignored, as distinct texts. They lead to distinct files exactly when no two starting points that
lead to a file are spelled apart; so they do when all starting points are spelled by names from one
front, as they are when all included texts are plain or all are patterns that lead down. Then the
texts are distinct also without `.` and empty pieces. The records of a run are those of the places
found, place by place: a file that is found twice is counted twice. -/
theorem search_finds_once_iff (tree : FileTree) (base : Path) (options : SearchOptions)
    (patterns : List Glob) (hproper : tree.root.isProper) :
    let files := (search tree base options).files
    let places := files.map fun text => tree.locate? ⟨text⟩
    let roots := Search.roots tree base options.includes
    (files.Pairwise fun text later => compare text later = .lt) ∧
    (∀ text ∈ files, tree.isFile ⟨text⟩) ∧
    (∀ text, text ∈ files ↔
      (∃ pattern, Glob.parse options.snapshotPattern = .ok pattern ∧
        Search.isSnapshot pattern ⟨text⟩) ∧
      ¬ (IgnoreRules.ofTexts base options.ignores).ignores ⟨text⟩ ∧
      ∃ root ∈ roots, ∃ location names, Search.FoundFrom tree root location names text) ∧
    (places.Nodup ↔ ¬ ∃ outer ∈ roots, ∃ inner ∈ roots, ∃ way rest,
      Search.SpelledApart tree files outer inner way rest) ∧
    (∀ front, (∀ root ∈ roots, Search.SpelledFrom front root) → places.Nodup) ∧
    ((∀ text ∈ options.includes, Search.IsPlain text) → places.Nodup) ∧
    ((∀ text ∈ options.includes, Search.LeadsDown base text) → places.Nodup) ∧
    (places.Nodup → (files.map fun text => Path.simplified ⟨text⟩).Nodup) ∧
    ∀ workers, (gather (loadSnapshots tree (files.map Path.mk) patterns).projects workers
      false).records.Perm
        (places.flatMap fun place => place.elim [] (recordsAt tree patterns)) := by
  refine ⟨Search.files_ascending tree base options, ?_, fun text => Search.mem_files_iff hproper,
    Search.nodup_places_iff hproper, Search.nodup_places_of_spelledFrom hproper, ?_, ?_,
    Search.nodup_simplified_of_nodup_places hproper, ?_⟩
  · intro text htext
    obtain ⟨root, -, location, names, hfound⟩ := Search.foundFrom_of_mem_files hproper htext
    exact hfound.isFile
  · intro hplain
    exact Search.nodup_places_of_rootsOf hproper base fun text htext =>
      Search.spelledFrom_of_isPlain (hplain text htext)
  · intro hdown
    exact Search.nodup_places_of_rootsOf hproper _ fun text htext =>
      Search.spelledFrom_of_leadsDown hproper (hdown text htext)
  · intro workers
    have hrecords := records_loadSnapshots tree
      ((search tree base options).files.map Path.mk) patterns
    rw [List.map_map] at hrecords
    rw [← Function.comp_def tree.locate? Path.mk, ← hrecords]
    exact gather_perm _ workers

/-- A directory with a snapshot file in it. -/
def nestedTree : FileTree where
  root := .directory [("obj", .directory [("App.semantic.json", .file [])])]
  current := []

theorem search_finds_once_iff_nestedTree :
    nestedTree.root.isProper ∧
      ((search nestedTree ⟨"."⟩ { includes := ["obj", "obj/"] }).files.map fun text =>
        nestedTree.locate? ⟨text⟩).Nodup ∧
      ((search nestedTree ⟨"."⟩ { includes := ["o*", "obj*"] }).files.map fun text =>
        nestedTree.locate? ⟨text⟩).Nodup := by
  have hproper : nestedTree.root.isProper := by decide
  obtain ⟨-, -, -, -, -, hplain, -, -, -⟩ :=
    search_finds_once_iff nestedTree ⟨"."⟩ { includes := ["obj", "obj/"] } [] hproper
  obtain ⟨-, -, -, -, -, -, hdown, -, -⟩ :=
    search_finds_once_iff nestedTree ⟨"."⟩ { includes := ["o*", "obj*"] } [] hproper
  refine ⟨hproper, hplain ?_, hdown ?_⟩
  · decide
  · decide

/-- Included texts that are spelled apart make a search find a file twice. -/
theorem search_finds_twice_nestedTree :
    nestedTree.root.isProper ∧
      ∃ text ∈ (search nestedTree ⟨"."⟩ { includes := [".", "obj"] }).files,
        ∃ other ∈ (search nestedTree ⟨"."⟩ { includes := [".", "obj"] }).files,
          text ≠ other ∧ Path.simplified ⟨text⟩ = Path.simplified ⟨other⟩ ∧
          nestedTree.locate? ⟨text⟩ = nestedTree.locate? ⟨other⟩ := by
  refine ⟨by decide, "././obj/App.semantic.json", ?_, "./obj/App.semantic.json", ?_, ?_, ?_, ?_⟩
  · decide
  · decide
  · decide
  · decide
  · decide

end LogCensus
