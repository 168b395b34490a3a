import LogCensus.Command.Extract
import LogCensus.Proofs.FileTree.Twins
import LogCensus.Proofs.Glob.Anywhere
import LogCensus.Proofs.Snapshot.Search

/-!
# Searches that are moved

A search below a mounted directory looks at three texts that start with the base: the included
patterns, the paths that ignored texts are compared with, and the paths that ignored patterns match.
The first two do not matter when the base is made of ordinary characters and does not start with a
dot. The last one always does: `**/bin/**` leaves out everything when the base itself is below a
directory `bin`. Without such patterns, a search finds the same files below all mounts of a
directory, and so it does with them as long as they name directories that no base is below.

* `SearchOptions.StaysBelow`: options that do not lead away from the base.
* `Mount.Steady`: bases that do not change what included patterns mean.
* `Mount.finds_of_finds`: what is found below one base is found below the other one.
* `moved_search_finds_iff`: what a search finds when its base is moved.
-/

namespace LogCensus

/-! ## Options -/

namespace SearchOptions

/-- What is searched for without the ignored patterns. -/
def withoutGlobs (options : SearchOptions) : SearchOptions :=
  { options with ignores := options.ignores.filter fun text => !Glob.hasWildcard text }

/-- Whether something is ignored that has no wildcards. -/
def IgnoresPaths (options : SearchOptions) : Prop :=
  ∃ text ∈ options.ignores, Glob.hasWildcard text = false

instance (options : SearchOptions) : Decidable options.IgnoresPaths :=
  inferInstanceAs (Decidable (∃ text ∈ options.ignores, Glob.hasWildcard text = false))

/-- The components of an included text; none when it is malformed. -/
def segments (text : String) : List GlobSegment :=
  (GlobSegment.ofPattern ⟨text⟩).toOption.getD []

/-- A search that stays below its base: no text leads away from it. -/
structure StaysBelow (options : SearchOptions) : Prop where
  includes : ∀ text ∈ options.includes,
    Path.isAbsolute ⟨text⟩ = false ∧ ".." ∉ Path.pieces ⟨text⟩
  patterns : ∀ text ∈ options.includes, Glob.hasWildcard text →
    ∀ segment ∈ segments text, segment.staysBelow
  ignores : ∀ text ∈ options.ignores, Glob.hasWildcard text = false → Path.isAbsolute ⟨text⟩ = false

variable {options : SearchOptions}

theorem mem_withoutGlobs_iff {text : String} :
    text ∈ options.withoutGlobs.ignores ↔
      text ∈ options.ignores ∧ Glob.hasWildcard text = false := by
  rw [withoutGlobs, List.mem_filter, Bool.not_eq_true']

theorem ofTexts_withoutGlobs (base : Path) :
    IgnoreRules.ofTexts base options.withoutGlobs.ignores =
      { IgnoreRules.ofTexts base options.ignores with globs := [] } := by
  have hnone : options.withoutGlobs.ignores.filter Glob.hasWildcard = [] := by
    rw [List.filter_eq_nil_iff]
    intro text htext
    exact Bool.eq_false_iff.mp (mem_withoutGlobs_iff.mp htext).2
  rw [IgnoreRules.ofTexts, hnone, withoutGlobs, List.filter_filter]
  simp only [Bool.and_self]
  rfl

theorem StaysBelow.withoutGlobs (h : options.StaysBelow) : options.withoutGlobs.StaysBelow where
  includes := h.includes
  patterns := h.patterns
  ignores text htext := h.ignores text (mem_withoutGlobs_iff.mp htext).1

end SearchOptions

namespace Search

theorem mem_globs_iff {base : Path} {ignores : List String} {glob : Glob} :
    glob ∈ (IgnoreRules.ofTexts base ignores).globs ↔
      ∃ text ∈ ignores, Glob.hasWildcard text ∧ Glob.parse text = .ok glob := by
  have hparse (text : String) :
      (Glob.parse text).toOption = some glob ↔ Glob.parse text = .ok glob := by
    cases Glob.parse text with
    | error fault => exact ⟨nofun, nofun⟩
    | ok parsed =>
      exact ⟨fun h => congrArg Except.ok (Option.some.inj h),
        fun h => congrArg some (Except.ok.inj h)⟩
  rw [IgnoreRules.ofTexts, List.mem_filterMap]
  simp only [List.mem_filter, hparse, and_assoc]

/-- The ignored patterns take away the texts that they match, and nothing else. -/
theorem mem_files_withoutGlobs {tree : FileTree} (hproper : tree.root.isProper) {base : Path}
    {options : SearchOptions} {text : String} :
    text ∈ (search tree base options).files ↔
      text ∈ (search tree base options.withoutGlobs).files ∧
        ∀ glob ∈ (IgnoreRules.ofTexts base options.ignores).globs, ¬ glob.accepts text := by
  have hignores : (IgnoreRules.ofTexts base options.ignores).ignores ⟨text⟩ ↔
      (IgnoreRules.ofTexts base options.withoutGlobs.ignores).ignores ⟨text⟩ ∨
        ∃ glob ∈ (IgnoreRules.ofTexts base options.ignores).globs, glob.accepts text := by
    rw [SearchOptions.ofTexts_withoutGlobs, IgnoreRules.ignores, IgnoreRules.ignores,
      List.any_nil, Bool.or_false, Bool.or_eq_true]
    exact or_congr Iff.rfl List.any_eq_true
  rw [mem_files_iff hproper, mem_files_iff hproper, hignores, not_or]
  constructor
  · rintro ⟨hsnapshot, ⟨hkept, hglobs⟩, hfound⟩
    exact ⟨⟨hsnapshot, hkept, hfound⟩, fun glob hglob haccepts => hglobs ⟨glob, hglob, haccepts⟩⟩
  · rintro ⟨⟨hsnapshot, hkept, hfound⟩, hglobs⟩
    exact ⟨hsnapshot, ⟨hkept, fun ⟨glob, hglob, haccepts⟩ => hglobs glob hglob haccepts⟩, hfound⟩

end Search

/-! ## Bases -/

namespace Mount

variable {entries : List (String × FileEntry)}

/-- A base that does not change what included patterns mean. It is read as a part of them, and their
paths lose a `.` at its start: they then have another start than the ignored paths, and an empty
component would leave nothing. -/
structure Steady (mount : Mount entries) (options : SearchOptions) : Prop where
  ordinary : ∀ text ∈ options.includes, Glob.hasWildcard text → mount.base.isOrdinary
  undotted : ∀ text ∈ options.includes, Glob.hasWildcard text →
    mount.base.pieces.head? = some "." →
      ¬ options.IgnoresPaths ∧ "" ∉ GlobSegment.texts mount.base ∧
        .literal "" ∉ SearchOptions.segments text

/-- Whether a search below the base finds the file at a place below it. -/
def Finds (mount : Mount entries) (options : SearchOptions) (way : List String) : Prop :=
  ∃ text ∈ (search mount.tree mount.base options).files,
    mount.tree.locate? ⟨text⟩ = some (mount.location ++ way)

instance (mount : Mount entries) (options : SearchOptions) (way : List String) :
    Decidable (mount.Finds options way) :=
  inferInstanceAs (Decidable (∃ text ∈ (search mount.tree mount.base options).files, _))

variable {options : SearchOptions} {here there : Mount entries}

theorem Steady.withoutGlobs {mount : Mount entries} (h : mount.Steady options) :
    mount.Steady options.withoutGlobs where
  ordinary := h.ordinary
  undotted text htext hwildcard hdotted := by
    obtain ⟨hignores, hbase, hsegments⟩ := h.undotted text htext hwildcard hdotted
    refine ⟨?_, hbase, hsegments⟩
    rintro ⟨ignored, hignored, hliteral⟩
    exact hignores ⟨ignored, (SearchOptions.mem_withoutGlobs_iff.mp hignored).1, hliteral⟩

/-! ## Starting points -/

/-- The starting points of an included pattern: what its components lead to from the base. -/
theorem exists_rootsOf_pattern {mount : Mount entries} (hsteady : mount.Steady options)
    (hbelow : options.StaysBelow) {text : String} (htext : text ∈ options.includes)
    (hwildcard : Glob.hasWildcard text) :
    (options.IgnoresPaths → mount.base.pieces.head? ≠ some ".") ∧
    ∃ path, Placed mount options.IgnoresPaths [] path ∧ Calm (SearchOptions.segments text) path ∧
      Search.rootsOf mount.tree mount.base text =
        ((GlobSegment.ofPattern ⟨text⟩).toOption.elim [] fun segments =>
          mount.tree.expandFrom segments path).filter mount.tree.isDirectory := by
  obtain ⟨hrelative, -⟩ := hbelow.includes text htext
  have hundotted := hsteady.undotted text htext hwildcard
  have hbase : options.IgnoresPaths → mount.base.pieces.head? ≠ some "." :=
    fun hignores hdotted => (hundotted hdotted).1 hignores
  obtain ⟨path, hpath, hcurrent, hexpand⟩ :=
    mount.exists_expandFrom_base hbase fun hdotted => (hundotted hdotted).2.1
  refine ⟨hbase, path, hpath, fun h => (hundotted (hcurrent h)).2.2, ?_⟩
  have hjoin := GlobSegment.ofPattern_join (hsteady.ordinary text htext hwildcard) hrelative
  rw [Search.rootsOf, if_pos hwildcard, FileTree.expand, mount.base.isAbsolute_join hrelative]
  cases hsegments : GlobSegment.ofPattern (mount.base.join text) with
  | error fault =>
    rw [hsegments] at hjoin
    rw [Option.map_eq_none_iff.mp hjoin.symm]
    rfl
  | ok joined =>
    rw [hsegments] at hjoin
    obtain ⟨segments, hsegments, heq⟩ := Option.map_eq_some_iff.mp hjoin.symm
    rw [hsegments, Option.elim_some, ← hexpand segments, heq]
    rfl

theorem exists_mem_rootsOf (hbelow : options.StaysBelow) (hhere : here.Steady options)
    (hthere : there.Steady options) {text : String} (htext : text ∈ options.includes) {root : Path}
    (hroot : root ∈ Search.rootsOf here.tree here.base text) :
    ∃ root' ∈ Search.rootsOf there.tree there.base text,
      Twins here there options.IgnoresPaths [] root root' := by
  obtain ⟨hrelative, hparent⟩ := hbelow.includes text htext
  by_cases hwildcard : Glob.hasWildcard text
  · obtain ⟨hbase, path, hpath, hcalm, hroots⟩ :=
      exists_rootsOf_pattern hhere hbelow htext hwildcard
    obtain ⟨hbase', path', hpath', hcalm', hroots'⟩ :=
      exists_rootsOf_pattern hthere hbelow htext hwildcard
    have hpatterns := hbelow.patterns text htext hwildcard
    rw [SearchOptions.segments] at hcalm hcalm' hpatterns
    rw [hroots] at hroot
    rw [hroots']
    obtain ⟨hroot, hdirectory⟩ := List.mem_filter.mp hroot
    cases hsegments : (GlobSegment.ofPattern ⟨text⟩).toOption with
    | none =>
      rw [hsegments] at hroot
      cases hroot
    | some segments =>
      rw [hsegments] at hroot hcalm hcalm' hpatterns
      obtain ⟨root', hroot', htwins⟩ := Twins.exists_mem_expandFrom hbase hbase' hpatterns
        ⟨⟨[], hpath, hpath'⟩, hcalm, hcalm'⟩ hroot
      refine ⟨root', List.mem_filter.mpr ⟨hroot', ?_⟩, htwins⟩
      obtain ⟨way, hway, hway'⟩ := htwins.placed
      rwa [FileTree.isDirectory, hway'.entry?_eq, ← hway.entry?_eq]
  · rw [Search.rootsOf, if_neg hwildcard] at hroot ⊢
    have hbase := Placed.base here options.IgnoresPaths
    have hbase' := Placed.base there options.IgnoresPaths
    split at hroot
    · next hcontains =>
      rw [List.mem_singleton] at hroot
      subst hroot
      obtain ⟨entry, hentry⟩ := Option.isSome_iff_exists.mp hcontains
      obtain ⟨location, hlocation, -⟩ := Option.bind_eq_some_iff.mp hentry
      rw [hbase.locate?_join hrelative hparent] at hlocation
      obtain ⟨way, hway, -⟩ := Option.map_eq_some_iff.mp hlocation
      have hplaced := hbase.join hrelative hparent hway
      have hplaced' := hbase'.join hrelative hparent hway
      have hcontains' : there.tree.contains (there.base.join text) := by
        rwa [FileTree.contains, hplaced'.entry?_eq, ← hplaced.entry?_eq]
      exact ⟨there.base.join text, by rw [if_pos hcontains', List.mem_singleton],
        ⟨way, hplaced, hplaced'⟩, .nil _, .nil _⟩
    · cases hroot

theorem exists_mem_roots (hbelow : options.StaysBelow) (hhere : here.Steady options)
    (hthere : there.Steady options) {root : Path}
    (hroot : root ∈ Search.roots here.tree here.base options.includes) :
    ∃ root' ∈ Search.roots there.tree there.base options.includes,
      Twins here there options.IgnoresPaths [] root root' := by
  rw [Search.roots] at hroot ⊢
  split at hroot
  · next hnone =>
    rw [List.mem_singleton] at hroot
    subst hroot
    exact ⟨there.base, by rw [if_pos hnone, List.mem_singleton],
      ⟨[], Placed.base here _, Placed.base there _⟩, .nil _, .nil _⟩
  · next hsome =>
    obtain ⟨text, htext, hroot⟩ := List.mem_flatMap.mp hroot
    obtain ⟨root', hroot', htwins⟩ := exists_mem_rootsOf hbelow hhere hthere htext hroot
    refine ⟨root', ?_, htwins⟩
    rw [if_neg hsome]
    exact List.mem_flatMap.mpr ⟨text, htext, hroot'⟩

/-! ## Files -/

namespace Placed

variable {mount : Mount entries} {exact : Prop} {way : List String} {path : Path}

/-- A path that is exact is ignored by the components after those of the base. -/
theorem startsWith_join (h : Placed mount exact way path) (hexact : exact) {text : String}
    (hrelative : Path.isAbsolute ⟨text⟩ = false) :
    path.startsWith (mount.base.join text) =
      (((Path.pieces ⟨text⟩).filter Path.isSignificant).map Path.component).isPrefixOf
        (way.map .name) := by
  obtain ⟨front, hfront, -, hsame⟩ := h.spelled
  rw [Path.startsWith, Path.components_join mount.base_ne_empty hrelative, hfront, hsame hexact,
    Bool.eq_iff_iff, List.isPrefixOf_iff_prefix, List.isPrefixOf_iff_prefix,
    List.prefix_append_right_inj]

end Placed

/-- The ignored paths leave out the same below both bases. -/
theorem any_startsWith_eq (hbelow : options.StaysBelow) {way : List String} {path path' : Path}
    (hpath : Placed here options.IgnoresPaths way path)
    (hpath' : Placed there options.IgnoresPaths way path') :
    (IgnoreRules.ofTexts here.base options.ignores).paths.any path.startsWith =
      (IgnoreRules.ofTexts there.base options.ignores).paths.any path'.startsWith := by
  simp only [IgnoreRules.ofTexts, List.any_map, List.any_filter]
  rw [Bool.eq_iff_iff, List.any_eq_true, List.any_eq_true]
  refine exists_congr fun text => and_congr_right fun htext => ?_
  simp only [Bool.and_eq_true, Bool.not_eq_true', Function.comp_apply]
  refine and_congr_right fun hliteral => ?_
  have hrelative := hbelow.ignores text htext hliteral
  have hignores : options.IgnoresPaths := ⟨text, htext, hliteral⟩
  rw [hpath.startsWith_join hignores hrelative, hpath'.startsWith_join hignores hrelative]

/-- What the walk from a starting point finds, the walk from its twin finds at the same place. -/
theorem Twins.exists_foundFrom {exact : Prop} {root root' : Path}
    (h : Twins here there exact [] root root') {location names : List String} {text : String}
    (hfound : Search.FoundFrom here.tree root location names text) :
    ∃ way text', HoldsFile entries way ∧ Placed here exact way ⟨text⟩ ∧
      Placed there exact way ⟨text'⟩ ∧
      ∃ location', Search.FoundFrom there.tree root' location' names text' := by
  obtain ⟨way, hroot, hroot'⟩ := h.placed
  obtain ⟨content, hfile⟩ := hfound.file
  obtain rfl : location = here.location ++ way :=
    Option.some.inj (hfound.start.symm.trans hroot.located)
  rw [List.append_assoc, here.descend?_location] at hfile
  have hentry := Option.isSome_of_eq_some hfile
  refine ⟨way ++ names, (root'.joinAll names).text, ⟨content, hfile⟩, ?_,
    hroot'.joinAll hfound.proper hentry, there.location ++ way, ?_⟩
  · rw [hfound.text_eq]
    exact hroot.joinAll hfound.proper hentry
  · refine ⟨hroot'.located, hfound.proper, rfl, content, ?_⟩
    rwa [List.append_assoc, there.descend?_location]

/-- Every text that is found leads to a file below the base. -/
theorem exists_placed_of_mem_files (hbelow : options.StaysBelow) (hhere : here.Steady options)
    {text : String} (htext : text ∈ (search here.tree here.base options).files) :
    ∃ way, HoldsFile entries way ∧ Placed here options.IgnoresPaths way ⟨text⟩ := by
  obtain ⟨root, hroot, location, names, hfound⟩ := Search.foundFrom_of_mem_files here.proper htext
  obtain ⟨root', -, htwins⟩ := exists_mem_roots hbelow hhere hhere hroot
  obtain ⟨way, text', hfile, hplaced, -, -⟩ := htwins.exists_foundFrom hfound
  exact ⟨way, hfile, hplaced⟩

/-- What is found below one base is found below the other one, unless an ignored pattern tells their
paths apart. -/
theorem finds_of_finds (hbelow : options.StaysBelow) (hhere : here.Steady options)
    (hthere : there.Steady options)
    (hglobs : ∀ glob ∈ (IgnoreRules.ofTexts there.base options.ignores).globs, ∀ way text text',
      HoldsFile entries way → Placed here options.IgnoresPaths way ⟨text⟩ →
      Placed there options.IgnoresPaths way ⟨text'⟩ → glob.accepts text' → glob.accepts text)
    {way : List String} (h : here.Finds options way) : there.Finds options way := by
  obtain ⟨text, htext, hplace⟩ := h
  obtain ⟨⟨pattern, hpattern, hsnapshot⟩, hkept, root, hroot, location, names, hfound⟩ :=
    (Search.mem_files_iff here.proper).mp htext
  obtain ⟨root', hroot', htwins⟩ := exists_mem_roots hbelow hhere hthere hroot
  obtain ⟨way', text', hfile, hplaced, hplaced', location', hfound'⟩ :=
    htwins.exists_foundFrom hfound
  obtain rfl : way' = way :=
    List.append_cancel_left (Option.some.inj (hplaced.located.symm.trans hplace))
  refine ⟨text', (Search.mem_files_iff there.proper).mpr
    ⟨⟨pattern, hpattern, ?_⟩, ?_, root', hroot', location', names, hfound'⟩, hplaced'.located⟩
  · obtain ⟨front, last, rfl⟩ := hfile.exists_eq_append
    rwa [Search.isSnapshot, hplaced'.fileName?_eq, ← hplaced.fileName?_eq]
  · intro hignored
    apply hkept
    rw [IgnoreRules.ignores, Bool.or_eq_true] at hignored ⊢
    refine hignored.imp (fun hpath => ?_) (fun hglob => ?_)
    · rwa [any_startsWith_eq hbelow hplaced hplaced']
    · obtain ⟨glob, hmem, haccepts⟩ := List.any_eq_true.mp hglob
      exact List.any_eq_true.mpr
        ⟨glob, hmem, hglobs glob hmem way' text text' hfile hplaced hplaced' haccepts⟩

/-! ## Ignored patterns -/

/-- Patterns for directories anywhere do not tell the paths below two bases apart, as long as the
bases are not below such a directory themselves. -/
theorem accepts_iff_of_anywhere {exact : Prop} {name : String} (hname : Glob.isPlainName name)
    (hhere : .name name ∉ here.base.components) (hthere : .name name ∉ there.base.components)
    {glob : Glob} (hglob : Glob.parse (Glob.anywhere name) = .ok glob) {way : List String}
    {text text' : String} (hfile : HoldsFile entries way) (hplaced : Placed here exact way ⟨text⟩)
    (hplaced' : Placed there exact way ⟨text'⟩) : glob.accepts text' ↔ glob.accepts text := by
  rw [Glob.isPlainName, Bool.and_eq_true, List.all_eq_true] at hname
  obtain ⟨hname, hordinary⟩ := hname
  have hslash := Path.slash_not_mem_of_isName hname
  obtain ⟨front, last, rfl⟩ := hfile.exists_eq_append
  rw [Glob.parse_anywhere hordinary] at hglob
  obtain rfl := Except.ok.inj hglob
  rw [Glob.accepts_anywhere hslash, Glob.accepts_anywhere hslash,
    hplaced.mem_dropLast_pieces_iff hfile hname hhere,
    hplaced'.mem_dropLast_pieces_iff hfile hname hthere]

end Mount

/-! ## Moved searches -/

/-- What a search finds when its base is moved. Every text found leads to a file below the base.
Without ignored patterns the search finds the same places below all mounts of a directory. Ignored
patterns take away the texts that they match, bases included; so they take away the same places when
they name directories anywhere and the bases are not below such directories themselves. -/
theorem moved_search_finds_iff {entries : List (String × FileEntry)} (here there : Mount entries)
    (options : SearchOptions) (hbelow : options.StaysBelow) (hhere : here.Steady options)
    (hthere : there.Steady options) :
    (∀ text ∈ (search here.tree here.base options).files,
      ∃ way, Mount.HoldsFile entries way ∧ Mount.Placed here options.IgnoresPaths way ⟨text⟩) ∧
    (∀ way, here.Finds options.withoutGlobs way ↔ there.Finds options.withoutGlobs way) ∧
    (∀ text, text ∈ (search here.tree here.base options).files ↔
      text ∈ (search here.tree here.base options.withoutGlobs).files ∧
        ∀ glob ∈ (IgnoreRules.ofTexts here.base options.ignores).globs, ¬ glob.accepts text) ∧
    ((∀ text ∈ options.ignores, Glob.hasWildcard text → ∃ name, text = Glob.anywhere name ∧
        Glob.isPlainName name ∧ .name name ∉ here.base.components ∧
        .name name ∉ there.base.components) →
      ∀ way, here.Finds options way ↔ there.Finds options way) := by
  refine ⟨fun text htext => Mount.exists_placed_of_mem_files hbelow hhere htext, ?_,
    fun text => Search.mem_files_withoutGlobs here.proper, ?_⟩
  · intro way
    have hnone (base : Path) :
        (IgnoreRules.ofTexts base options.withoutGlobs.ignores).globs = [] := by
      rw [SearchOptions.ofTexts_withoutGlobs]
    constructor
    · refine Mount.finds_of_finds hbelow.withoutGlobs hhere.withoutGlobs hthere.withoutGlobs ?_
      rw [hnone]
      exact nofun
    · refine Mount.finds_of_finds hbelow.withoutGlobs hthere.withoutGlobs hhere.withoutGlobs ?_
      rw [hnone]
      exact nofun
  · intro hanywhere way
    constructor
    · refine Mount.finds_of_finds hbelow hhere hthere ?_
      intro glob hglob way text text' hfile hplaced hplaced'
      obtain ⟨ignored, hignored, hwildcard, hparse⟩ := Search.mem_globs_iff.mp hglob
      obtain ⟨name, rfl, hname, hnot, hnot'⟩ := hanywhere ignored hignored hwildcard
      exact (Mount.accepts_iff_of_anywhere hname hnot hnot' hparse hfile hplaced hplaced').mp
    · refine Mount.finds_of_finds hbelow hthere hhere ?_
      intro glob hglob way text text' hfile hplaced hplaced'
      obtain ⟨ignored, hignored, hwildcard, hparse⟩ := Search.mem_globs_iff.mp hglob
      obtain ⟨name, rfl, hname, hnot, hnot'⟩ := hanywhere ignored hignored hwildcard
      exact (Mount.accepts_iff_of_anywhere hname hnot' hnot hparse hfile hplaced hplaced').mp

/-- The entries of a directory with snapshot files at two places. -/
def projectEntries : List (String × FileEntry) :=
  [("App.semantic.json", .file []),
   ("obj", .directory [("a", .directory [("A.semantic.json", .file [])])])]

/-- A tree with copies of the directory. -/
def projectCopies : FileTree where
  root := .directory
    [("work", .directory projectEntries), ("bin", .directory projectEntries),
     ("[x]", .directory projectEntries)]
  current := []

/-- A copy of the directory, by a path that leads to it. -/
def projectCopy (base : Path) (name : String)
    (hlocated : projectCopies.locate? base = some [name])
    (hmounted : projectCopies.root.descend? [name] = some (.directory projectEntries)) :
    Mount projectEntries where
  tree := projectCopies
  base := base
  location := [name]
  proper := by decide
  located := hlocated
  mounted := hmounted

def workCopy : Mount projectEntries := projectCopy ⟨"work"⟩ "work" (by decide) rfl
def dottedWorkCopy : Mount projectEntries := projectCopy ⟨"./work"⟩ "work" (by decide) rfl
def binCopy : Mount projectEntries := projectCopy ⟨"bin"⟩ "bin" (by decide) rfl
def bracketCopy : Mount projectEntries := projectCopy ⟨"[x]"⟩ "[x]" (by decide) rfl

open Extract in
theorem moved_search_finds_iff_projectCopies :
    let options := searchOptions { includes := ["obj/*"] }
    options.StaysBelow ∧ dottedWorkCopy.Steady options ∧ binCopy.Steady options ∧
      ∀ way, dottedWorkCopy.Finds options way ↔ binCopy.Finds options way := by
  intro options
  have hbelow : options.StaysBelow := ⟨by decide, by decide, by decide⟩
  have hhere : dottedWorkCopy.Steady options := ⟨by decide, by decide⟩
  have hthere : binCopy.Steady options := ⟨by decide, by decide⟩
  obtain ⟨-, -, -, hanywhere⟩ :=
    moved_search_finds_iff dottedWorkCopy binCopy options hbelow hhere hthere
  refine ⟨hbelow, hhere, hthere, hanywhere ?_⟩
  have hnames : options.ignores = [Glob.anywhere "node_modules", Glob.anywhere ".git"] := by decide
  rw [hnames]
  intro text htext hwildcard
  rcases List.mem_cons.mp htext with rfl | htext
  · exact ⟨"node_modules", rfl, by decide, by decide, by decide⟩
  · rw [List.mem_singleton] at htext
    exact ⟨".git", htext, by decide, by decide, by decide⟩

open Extract in
/-- A base changes what is found: a pattern that is ignored matches its name, a bracket in its name
is read as a class of an included pattern, and a dot at its start keeps an ignored path from
applying to what an included pattern leads to. -/
theorem moved_search_differs :
    (∃ config : Config, config.validate.isOk ∧ (searchOptions config).StaysBelow ∧
      workCopy.Finds (searchOptions config) ["App.semantic.json"] ∧
      ¬ binCopy.Finds (searchOptions config) ["App.semantic.json"]) ∧
    (∃ config : Config, config.validate.isOk ∧ (searchOptions config).StaysBelow ∧
      workCopy.Finds (searchOptions config) ["obj", "a", "A.semantic.json"] ∧
      ¬ bracketCopy.Finds (searchOptions config) ["obj", "a", "A.semantic.json"]) ∧
    (∃ config : Config, config.validate.isOk ∧ (searchOptions config).StaysBelow ∧
      ¬ workCopy.Finds (searchOptions config) ["obj", "a", "A.semantic.json"] ∧
      dottedWorkCopy.Finds (searchOptions config) ["obj", "a", "A.semantic.json"]) := by
  refine ⟨⟨{ ignores := ["**/bin/**"] }, ?_⟩, ⟨{ includes := ["obj/*"] }, ?_⟩,
    ⟨{ includes := ["obj/*"], ignores := ["obj/a"] }, ?_⟩⟩
  · exact ⟨by decide +kernel, ⟨by decide, by decide, by decide⟩, by decide +kernel,
      by decide +kernel⟩
  · exact ⟨by decide +kernel, ⟨by decide, by decide, by decide⟩, by decide +kernel,
      by decide +kernel⟩
  · exact ⟨by decide +kernel, ⟨by decide, by decide, by decide⟩, by decide +kernel,
      by decide +kernel⟩

end LogCensus
