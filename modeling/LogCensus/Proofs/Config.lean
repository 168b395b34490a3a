import LogCensus.Config
import LogCensus.Proofs.FileTree.Mount
import LogCensus.Proofs.Path.Upward

/-!
# The search for a configuration file

The search goes up from directory to directory. In each one it looks for the configuration file
first and for the mark of a repository second, and it goes on only where it finds neither.

* `FileTree.contains_join`: a path with a name joined to it leads somewhere when the directory of
  the path lists the name.
* `FileTree.locate?_upward`: the way up from a path leads to the directories above its place.
* `Config.Ascent`: the search as it goes, step by step.
* `Config.find?_nearest`: the search ends, and finds the nearest file in the repository.
-/

namespace LogCensus

/-! ## Directories and what they list -/

namespace FileTree

/-- Whether a path leads to a directory that lists a name. -/
def lists (tree : FileTree) (directory : Path) (name : String) : Bool :=
  ((tree.list directory).lookup name).isSome

variable {tree : FileTree}

theorem descend?_concat (entry : FileEntry) (location : List String) (name : String) :
    entry.descend? (location ++ [name]) =
      ((entry.descend? location).elim [] FileEntry.entries).lookup name := by
  rw [FileEntry.descend?_append]
  cases entry.descend? location with
  | none => rfl
  | some below =>
    rw [Option.bind_some, FileEntry.descend?_cons, FileEntry.child?, Option.elim_some]
    cases below.entries.lookup name <;> rfl

theorem contains_join {directory : Path} (hdirectory : directory.text ≠ "") {name : String}
    (hname : Path.isName name) :
    tree.contains (directory.join name) = tree.lists directory name := by
  have hjoin : tree.locate? (directory.join name) =
      (tree.locate? directory).bind fun location => tree.follow? location name := by
    rw [locate?, locate?, String.isEmpty_eq_false_iff.mpr hdirectory,
      String.isEmpty_eq_false_iff.mpr (Path.join_ne_empty directory hname)]
    exact reach?_join directory hname
  rw [contains, entry?, hjoin, lists, list, entry?]
  cases tree.locate? directory with
  | none => rfl
  | some location =>
    simp only [Option.bind_eq_bind, Option.bind_some, follow?_name hname]
    rw [← descend?_concat]
    cases hentry : tree.root.descend? (location ++ [name]) with
    | none => rfl
    | some below => exact congrArg Option.isSome hentry

/-! ## Places on the way up -/

/-- A path without `..` leads down by its components. -/
theorem components_of_locate? {path : Path} {location : List String} (habsolute : path.isAbsolute)
    (hdown : ".." ∉ path.pieces) (h : tree.locate? path = some location) :
    path.components = .root :: location.map .name := by
  obtain ⟨second, others, hpieces⟩ := Path.exists_of_isAbsolute habsolute
  have hdotted : path.pieces.head? ≠ some "." := by
    rw [hpieces]
    exact fun hhead => absurd (Option.some.inj hhead) (by decide)
  have hreach := (locate?_eq_some_iff.mp h).2
  rw [reach?, start, if_pos habsolute] at hreach
  rw [Path.components_eq hdotted, if_pos habsolute, Mount.components_of_pieces hdown,
    Mount.eq_append_of_foldlM_follow? hdown hreach]
  rfl

/-- One step up from a path that leads somewhere leads somewhere too. -/
theorem exists_locate?_of_stepUp {path parent : Path} {location : List String}
    (habsolute : path.isAbsolute) (hdown : ".." ∉ path.pieces) (hstep : path.StepUp parent)
    (h : tree.locate? path = some location) :
    ".." ∉ parent.pieces ∧ ∃ above, tree.locate? parent = some above := by
  have hparent := hstep.isAbsolute_eq.trans habsolute
  have hne : parent.text ≠ "" := Path.ne_empty_of_isAbsolute hparent
  have hreach := (locate?_eq_some_iff.mp h).2
  rw [reach?, start, if_pos habsolute] at hreach
  simp only [locate?_eq_some_iff, hne, ne_eq, not_false_eq_true, true_and, reach?, start,
    if_pos hparent]
  rcases hstep.pieces_prefix with ⟨rest, hrest⟩ | hroot
  · rw [← hrest, List.foldlM_append] at hreach
    obtain ⟨above, habove, -⟩ := Option.bind_eq_some_iff.mp hreach
    exact ⟨fun hmem => hdown (hrest ▸ List.mem_append_left rest hmem), above, habove⟩
  · -- the root is a directory, since the path starts there
    obtain ⟨second, others, hpieces⟩ := Path.exists_of_isAbsolute habsolute
    rw [hpieces, List.foldlM_cons] at hreach
    obtain ⟨next, hnext, -⟩ := Option.bind_eq_some_iff.mp hreach
    rw [hroot, habsolute]
    exact ⟨by decide, [], foldlM_stay hnext (by decide)⟩

/-- The way up from a path without `..` leads to the place of the path and to all directories above
it. -/
theorem locate?_upward {path : Path} {location : List String} (habsolute : path.isAbsolute)
    (hdown : ".." ∉ path.pieces) (h : tree.locate? path = some location) :
    path.upward.map tree.locate? = location.inits.reverse.map some := by
  have hcomponents := components_of_locate? habsolute hdown h
  induction path using Path.upwardInduction generalizing location with
  | top path habove htop =>
    rcases htop with htop | htop
    · cases htop.symm.trans hcomponents
    · obtain ⟨-, hnames⟩ := List.cons.inj (htop.symm.trans hcomponents)
      obtain rfl := List.map_eq_nil_iff.mp hnames.symm
      rw [Path.upward_of_above_eq_nil habove, List.map_singleton, h]
      rfl
  | step path parent hstep ih =>
    have hparent := hstep.isAbsolute_eq.trans habsolute
    obtain ⟨hparentDown, above, habove⟩ := exists_locate?_of_stepUp habsolute hdown hstep h
    have hparentComponents := components_of_locate? hparent hparentDown habove
    obtain ⟨last, hlast⟩ := hstep.exists_last
    obtain ⟨name, rfl⟩ : ∃ name, location = above ++ [name] := by
      rw [hcomponents, hparentComponents, List.cons_append, List.cons.injEq] at hlast
      obtain ⟨front, back, rfl, hfront, hback⟩ := List.map_eq_append_iff.mp hlast.2
      obtain ⟨name, rfl, -⟩ := List.map_eq_singleton_iff.mp hback
      rw [List.map_inj_right fun _ _ heq => PathComponent.name.inj heq] at hfront
      exact ⟨name, by rw [hfront]⟩
    rw [hstep.upward_eq, List.map_cons, ih hparent hparentDown habove hparentComponents, h,
      List.inits_append, List.reverse_append]
    rfl

end FileTree

/-! ## The search -/

namespace Config

/-- The search as it goes: in each directory it stops with the file, or without one at the mark of
the repository and at the end of the way; otherwise it goes up to the parent. -/
inductive Ascent (tree : FileTree) : Path → Option Path → Prop
  | found {directory : Path} (hfile : tree.contains (directory.join fileName)) :
      Ascent tree directory (some (directory.join fileName))
  | repository {directory : Path} (hfile : ¬ tree.contains (directory.join fileName))
      (hmark : tree.contains (directory.join repositoryMark)) : Ascent tree directory none
  | top {directory : Path} (hfile : ¬ tree.contains (directory.join fileName))
      (hmark : ¬ tree.contains (directory.join repositoryMark)) (htop : directory.parent? = none) :
      Ascent tree directory none
  | up {directory parent : Path} {found : Option Path}
      (hfile : ¬ tree.contains (directory.join fileName))
      (hmark : ¬ tree.contains (directory.join repositoryMark))
      (hparent : directory.parent? = some parent) (hrest : Ascent tree parent found) :
      Ascent tree directory found

variable {tree : FileTree}

theorem Ascent.unique {directory : Path} {found found' : Option Path}
    (h : Ascent tree directory found) (h' : Ascent tree directory found') : found = found' := by
  induction h with
  | found hfile =>
    cases h' with
    | found => rfl
    | repository hfile' | top hfile' | up hfile' => exact absurd hfile hfile'
  | repository hfile hmark =>
    cases h' with
    | found hfile' => exact absurd hfile' hfile
    | repository => rfl
    | top _ hmark' | up _ hmark' => exact absurd hmark hmark'
  | top hfile hmark htop =>
    cases h' with
    | found hfile' => exact absurd hfile' hfile
    | repository _ hmark' => exact absurd hmark' hmark
    | top => rfl
    | up _ _ hparent => cases htop.symm.trans hparent
  | up hfile hmark hparent _ ih =>
    cases h' with
    | found hfile' => exact absurd hfile' hfile
    | repository _ hmark' => exact absurd hmark' hmark
    | top _ _ htop => cases htop.symm.trans hparent
    | up _ _ hparent' hrest' =>
      cases hparent.symm.trans hparent'
      exact ih hrest'

/-- The search ends, for every path. -/
theorem ascent_find? (tree : FileTree) (path : Path) : Ascent tree path (find? tree path) := by
  show Ascent tree path (search tree path.upward)
  induction path using Path.upwardInduction with
  | top path habove _ =>
    rw [Path.upward_of_above_eq_nil habove, search]
    split
    · next hfile => exact .found hfile
    · next hfile =>
      split
      · next hmark => exact .repository hfile hmark
      · next hmark => exact .top hfile hmark (congrArg List.head? habove)
  | step path parent hstep ih =>
    rw [hstep.upward_eq, search]
    split
    · next hfile => exact .found hfile
    · next hfile =>
      split
      · next hmark => exact .repository hfile hmark
      · next hmark => exact .up hfile hmark (congrArg List.head? hstep.above_eq) ih

/-! ## What the search finds -/

section

variable {first : Path} {rest : List Path} {P : List Path → Path → Prop}

theorem forall_prefix_cons_iff :
    (∀ nearer directory, nearer ++ [directory] <+: first :: rest → P nearer directory) ↔
      P [] first ∧
        ∀ nearer directory, nearer ++ [directory] <+: rest → P (first :: nearer) directory := by
  constructor
  · intro h
    exact ⟨h [] first (List.prefix_append [first] rest), fun nearer directory hprefix =>
      h (first :: nearer) directory ((List.prefix_cons_inj first).mpr hprefix)⟩
  · rintro ⟨hfirst, hrest⟩ nearer directory hprefix
    cases nearer with
    | nil =>
      obtain ⟨rfl, -⟩ := List.cons_prefix_cons.mp hprefix
      exact hfirst
    | cons head nearer =>
      obtain ⟨rfl, hbehind⟩ := List.cons_prefix_cons.mp hprefix
      exact hrest nearer directory hbehind

theorem exists_prefix_cons_iff :
    (∃ nearer directory, nearer ++ [directory] <+: first :: rest ∧ P nearer directory) ↔
      P [] first ∨
        ∃ nearer directory, nearer ++ [directory] <+: rest ∧ P (first :: nearer) directory := by
  have hnot := @forall_prefix_cons_iff first rest fun nearer directory => ¬ P nearer directory
  rw [← not_iff_not]
  simpa only [not_exists, not_and, not_or] using hnot

end

/-- A list of directories is searched up to the first one with the file, if none before it holds the
mark of a repository. -/
theorem search_eq_some_iff {directories : List Path} {path : Path} :
    search tree directories = some path ↔
      ∃ nearer directory, nearer ++ [directory] <+: directories ∧ path = directory.join fileName ∧
        tree.contains (directory.join fileName) ∧
        ∀ other ∈ nearer, ¬ tree.contains (other.join fileName) ∧
          ¬ tree.contains (other.join repositoryMark) := by
  induction directories with
  | nil => simp [search]
  | cons first rest ih =>
    rw [search, exists_prefix_cons_iff]
    simp only [List.forall_mem_cons, List.not_mem_nil, false_implies, implies_true, and_true]
    by_cases hfile : tree.contains (first.join fileName)
    · simp [hfile, eq_comm (a := path)]
    · by_cases hmark : tree.contains (first.join repositoryMark)
      · simp [hfile, hmark]
      · simp [hfile, hmark, ih]

/-- Nothing is found when no directory has the file up to the first one with the mark of a
repository. -/
theorem search_eq_none_iff {directories : List Path} :
    search tree directories = none ↔
      ∀ nearer directory, nearer ++ [directory] <+: directories →
        (∀ other ∈ nearer, ¬ tree.contains (other.join repositoryMark)) →
        ¬ tree.contains (directory.join fileName) := by
  induction directories with
  | nil => simp [search]
  | cons first rest ih =>
    rw [search, forall_prefix_cons_iff]
    by_cases hfile : tree.contains (first.join fileName)
    · simp [hfile]
    · by_cases hmark : tree.contains (first.join repositoryMark)
      · simp [hfile, hmark]
      · simp [hfile, hmark, ih]

/-- The file of a directory on the way up lies below everything on the way that is not nearer. -/
theorem startsWith_of_not_nearer {nearer : List Path} {start directory above : Path}
    (hway : nearer ++ [directory] <+: start.upward) (hdirectory : directory.text ≠ "")
    (habove : above ∈ start.upward) (hnearer : above ∉ nearer) :
    (directory.join fileName).startsWith above := by
  obtain ⟨farther, hfarther⟩ := hway
  rw [List.append_assoc, List.singleton_append] at hfarther
  have hmem : above ∈ directory.upward := by
    rw [← hfarther] at habove
    rw [Path.upward_of_append hfarther.symm]
    exact (List.mem_append.mp habove).resolve_left hnearer
  rw [Path.startsWith, List.isPrefixOf_iff_prefix, Path.components_join hdirectory (by decide)]
  exact (Path.components_prefix_of_mem_upward hmem).trans (List.prefix_append _ _)

/-- The search ends for every path. From an absolute path it looks at the path and at those above
it, one component less each time down to the root, and finds the file of the nearest directory that
lists it, unless a nearer one lists the mark of a repository; it finds nothing exactly when no
directory up to the nearest one with the mark lists the file. So what it finds lies in the
repository. Where the path leads to a place without `..`, the way up leads to that place and to all
directories above it in the tree. The trees here have no links, and every entry in them can be read,
so a directory contains what it lists. -/
theorem find?_nearest (tree : FileTree) (start : Path) :
    (∀ found, Ascent tree start found ↔ found = find? tree start) ∧
    (start.isAbsolute →
      start.upward.map Path.components = start.components.inits.tail.reverse ∧
      (∀ directory ∈ start.upward, directory.text.toList <+: start.text.toList) ∧
      (∀ path, find? tree start = some path ↔
        ∃ nearer directory, nearer ++ [directory] <+: start.upward ∧
          path = directory.join fileName ∧ tree.lists directory fileName ∧
          ∀ other ∈ nearer, ¬ tree.lists other fileName ∧ ¬ tree.lists other repositoryMark) ∧
      (find? tree start = none ↔
        ∀ nearer directory, nearer ++ [directory] <+: start.upward →
          (∀ other ∈ nearer, ¬ tree.lists other repositoryMark) → ¬ tree.lists directory fileName) ∧
      (∀ path repository, find? tree start = some path → repository ∈ start.upward →
        tree.lists repository repositoryMark → path.startsWith repository) ∧
      (∀ location, ".." ∉ start.pieces → tree.locate? start = some location →
        start.upward.map tree.locate? = location.inits.reverse.map some)) := by
  refine ⟨fun found => ⟨fun h => h.unique (ascent_find? tree start), fun h =>
    h ▸ ascent_find? tree start⟩, fun habsolute => ?_⟩
  have hlists {directory : Path} {name : String} (hmem : directory ∈ start.upward)
      (hname : Path.isName name) :
      tree.contains (directory.join name) = tree.lists directory name :=
    FileTree.contains_join
      (Path.ne_empty_of_isAbsolute (Path.isAbsolute_of_mem_upward habsolute hmem)) hname
  have hfile {directory : Path} (hmem : directory ∈ start.upward) :=
    hlists hmem (show Path.isName fileName by decide)
  have hmark {directory : Path} (hmem : directory ∈ start.upward) :=
    hlists hmem (show Path.isName repositoryMark by decide)
  have hdirectory {nearer : List Path} {directory : Path}
      (hway : nearer ++ [directory] <+: start.upward) : directory ∈ start.upward :=
    hway.subset (List.mem_append_right nearer (List.mem_singleton_self directory))
  have hnearer {nearer : List Path} {directory : Path}
      (hway : nearer ++ [directory] <+: start.upward) {other : Path} (hother : other ∈ nearer) :
      other ∈ start.upward :=
    hway.subset (List.mem_append_left [directory] hother)
  refine ⟨Path.components_upward habsolute, fun _ => Path.toList_prefix_of_mem_upward, ?_, ?_, ?_,
    fun _ => FileTree.locate?_upward habsolute⟩
  · intro path
    refine search_eq_some_iff.trans (exists_congr fun nearer => exists_congr fun directory =>
      and_congr_right fun hway => and_congr_right fun _ => ?_)
    rw [hfile (hdirectory hway)]
    refine and_congr_right fun _ => forall₂_congr fun other hother => ?_
    rw [hfile (hnearer hway hother), hmark (hnearer hway hother)]
  · refine search_eq_none_iff.trans (forall_congr' fun nearer => forall_congr' fun directory =>
      imp_congr_right fun hway => ?_)
    rw [hfile (hdirectory hway)]
    refine imp_congr_left (forall₂_congr fun other hother => ?_)
    rw [hmark (hnearer hway hother)]
  · intro path repository hfound hmem hrepository
    obtain ⟨nearer, directory, hway, rfl, -, hnone⟩ := search_eq_some_iff.mp hfound
    refine startsWith_of_not_nearer hway
      (Path.ne_empty_of_isAbsolute (Path.isAbsolute_of_mem_upward habsolute (hdirectory hway)))
      hmem fun hmemNearer => ?_
    exact (hnone repository hmemNearer).2 (hmark hmem ▸ hrepository)

/-- A directory with a configuration file and two repositories, one of which has its own file. -/
def repositories : FileTree where
  root := .directory
    [("work", .directory
      [(fileName, .file []),
       ("bare", .directory [(repositoryMark, .directory []), ("obj", .directory [])]),
       ("app", .directory
         [(repositoryMark, .directory []), (fileName, .file []), ("obj", .directory [])])])]
  current := []

theorem find?_nearest_repositories :
    (Path.mk "/work/app/obj").isAbsolute ∧ ".." ∉ (Path.mk "/work/app/obj").pieces ∧
      repositories.locate? ⟨"/work/app/obj"⟩ = some ["work", "app", "obj"] ∧
      (Path.mk "/work/app/obj").upward.map repositories.locate? =
        [some ["work", "app", "obj"], some ["work", "app"], some ["work"], some []] ∧
      find? repositories ⟨"/work/app/obj"⟩ = some ⟨"/work/app/.logscanrc.json"⟩ ∧
      (Path.mk "/work/app/.logscanrc.json").startsWith ⟨"/work/app"⟩ ∧
      find? repositories ⟨"/work/bare/obj"⟩ = none := by
  have habsolute : (Path.mk "/work/app/obj").isAbsolute := by decide
  have hdown : ".." ∉ (Path.mk "/work/app/obj").pieces := by decide
  have hplace : repositories.locate? ⟨"/work/app/obj"⟩ = some ["work", "app", "obj"] := by decide
  obtain ⟨-, -, hfound, -, hinside, hplaces⟩ :=
    (find?_nearest repositories ⟨"/work/app/obj"⟩).2 habsolute
  have hfile : find? repositories ⟨"/work/app/obj"⟩ = some ⟨"/work/app/.logscanrc.json"⟩ :=
    (hfound _).mpr ⟨[⟨"/work/app/obj"⟩], ⟨"/work/app"⟩, by decide, by decide, by decide, by decide⟩
  refine ⟨habsolute, hdown, hplace, hplaces _ hdown hplace, hfile,
    hinside _ ⟨"/work/app"⟩ hfile (by decide) (by decide), ?_⟩
  have hparent : Path.parent? ⟨"/work/bare/obj"⟩ = some ⟨"/work/bare"⟩ := by decide
  have hascent : Ascent repositories ⟨"/work/bare/obj"⟩ none :=
    .up (by decide) (by decide) hparent (.repository (by decide) (by decide))
  exact (((find?_nearest repositories ⟨"/work/bare/obj"⟩).1 none).mp hascent).symm

end Config

end LogCensus
