import LogCensus.Proofs.FileTree.Pattern

/-!
# Mounted directories

One directory may be reached at several places: in other trees, or by other paths. What a relative
path leads to below it depends on the directory alone.

* `Mount`: a path that leads to a directory with given entries.
* `Mount.Placed`: a path below the base of a mount, by the names on the way.
* `Mount.Placed.join`: a relative path that does not lead up.
* `Mount.exists_expandFrom_base`: the base at the start of a pattern.
-/

namespace LogCensus

/-- A path that leads to a directory with the given entries. -/
structure Mount (entries : List (String × FileEntry)) where
  tree : FileTree
  base : Path
  /-- The names on the way from the root to the directory. -/
  location : List String
  proper : tree.root.isProper
  located : tree.locate? base = some location
  mounted : tree.root.descend? location = some (.directory entries)

namespace Mount

variable {entries : List (String × FileEntry)}

/-- The mounted directory as a tree of its own. -/
def inner (entries : List (String × FileEntry)) : FileTree :=
  ⟨.directory entries, []⟩

/-- A path below the base of a mount: it leads down by the given names, and ends in them. In front
of them it has components of the base; when it is exact, all of them. -/
structure Placed (mount : Mount entries) (exact : Prop) (way : List String) (path : Path) :
    Prop where
  located : mount.tree.locate? path = some (mount.location ++ way)
  proper : ∀ name ∈ way, Path.isName name
  spelled : ∃ front, path.components = front ++ way.map .name ∧ front ⊆ mount.base.components ∧
    (exact → front = mount.base.components)

/-- Whether the directory holds a file at a place below it. -/
def HoldsFile (entries : List (String × FileEntry)) (way : List String) : Prop :=
  ∃ content, (inner entries).root.descend? way = some (.file content)

/-- A file is not the directory itself. -/
theorem HoldsFile.exists_eq_append {way : List String} (hfile : HoldsFile entries way) :
    ∃ front last, way = front ++ [last] := by
  obtain ⟨content, hfile⟩ := hfile
  rcases way.eq_nil_or_concat with rfl | ⟨front, last, rfl⟩
  · cases hfile
  · exact ⟨front, last, List.concat_eq_append⟩

variable (mount : Mount entries)

theorem base_ne_empty : mount.base.text ≠ "" :=
  (FileTree.locate?_eq_some_iff.mp mount.located).1

theorem descend?_location (way : List String) :
    mount.tree.root.descend? (mount.location ++ way) = (inner entries).root.descend? way := by
  rw [FileEntry.descend?_append, mount.mounted]
  rfl

theorem inner_isProper (mount : Mount entries) : (inner entries).root.isProper :=
  FileEntry.isProper_of_descend? mount.proper mount.mounted

/-- A piece that does not lead up is followed inside the mounted directory. -/
theorem follow?_eq {piece : String} (hpiece : piece ≠ "..") (way : List String) :
    mount.tree.follow? (mount.location ++ way) piece =
      ((inner entries).follow? way piece).map (mount.location ++ ·) := by
  rw [FileTree.follow?, FileTree.follow?, mount.descend?_location]
  cases (inner entries).root.descend? way with
  | none => rfl
  | some entry =>
    cases entry with
    | file content => rfl
    | directory below =>
      have hparent : (piece == "..") = false := beq_eq_false_iff_ne.mpr hpiece
      simp only [hparent, Bool.false_eq_true, if_false]
      split
      · rfl
      · split
        · rw [Option.map_some, List.append_assoc]
        · rfl

theorem foldlM_follow?_eq {pieces : List String} (hpieces : ".." ∉ pieces) (way : List String) :
    pieces.foldlM mount.tree.follow? (mount.location ++ way) =
      (pieces.foldlM (inner entries).follow? way).map (mount.location ++ ·) := by
  induction pieces generalizing way with
  | nil => rfl
  | cons piece pieces ih =>
    obtain ⟨hpiece, hpieces⟩ := not_or.mp (mt List.mem_cons.mpr hpieces)
    rw [List.foldlM_cons, List.foldlM_cons, mount.follow?_eq (Ne.symm hpiece)]
    cases (inner entries).follow? way piece with
    | none => rfl
    | some next => exact ih hpieces next

/-- Pieces that do not lead up lead down by those that count. -/
theorem eq_append_of_foldlM_follow? {tree : FileTree} {pieces way way' : List String}
    (hpieces : ".." ∉ pieces) (h : pieces.foldlM tree.follow? way = some way') :
    way' = way ++ pieces.filter Path.isSignificant := by
  induction pieces generalizing way with
  | nil =>
    rw [List.filter_nil, List.append_nil]
    exact (Option.some.inj h).symm
  | cons piece pieces ih =>
    obtain ⟨hpiece, hpieces⟩ := not_or.mp (mt List.mem_cons.mpr hpieces)
    rw [List.foldlM_cons] at h
    obtain ⟨next, hnext, hrest⟩ := Option.bind_eq_some_iff.mp h
    rw [ih hpieces hrest]
    by_cases hsignificant : Path.isSignificant piece
    · have hnot : (piece.isEmpty || piece == ".") = false := by
        rwa [Path.isSignificant, Bool.not_eq_true'] at hsignificant
      have hparent : (piece == "..") = false := beq_eq_false_iff_ne.mpr (Ne.symm hpiece)
      rw [FileTree.follow?] at hnext
      split at hnext
      · simp only [hnot, hparent, Bool.false_eq_true, if_false] at hnext
        split at hnext
        · rw [← Option.some.inj hnext, List.filter_cons_of_pos hsignificant, List.append_assoc,
            List.singleton_append]
        · cases hnext
      · cases hnext
    · rw [FileTree.follow?_of_not_isSignificant hsignificant hnext,
        List.filter_cons_of_neg hsignificant]

theorem components_of_pieces {pieces : List String} (hpieces : ".." ∉ pieces) :
    (pieces.filter Path.isSignificant).map Path.component =
      (pieces.filter Path.isSignificant).map .name := by
  refine List.map_congr_left fun piece hpiece => ?_
  have hne : piece ≠ ".." := fun heq => hpieces (heq ▸ (List.mem_filter.mp hpiece).1)
  rw [Path.component, if_neg (by rwa [beq_iff_eq])]

namespace Placed

variable {mount : Mount entries} {exact : Prop} {way : List String} {path : Path}

theorem base (mount : Mount entries) (exact : Prop) : Placed mount exact [] mount.base where
  located := by rw [mount.located, List.append_nil]
  proper := List.forall_mem_nil _
  spelled := ⟨mount.base.components, by rw [List.map_nil, List.append_nil], List.Subset.refl _,
    fun _ => rfl⟩

theorem ne_empty (h : Placed mount exact way path) : path.text ≠ "" :=
  (FileTree.locate?_eq_some_iff.mp h.located).1

/-- Where a relative text leads below a placed path. -/
theorem locate?_join (h : Placed mount exact way path) {below : String}
    (hrelative : Path.isAbsolute ⟨below⟩ = false) (hbelow : ".." ∉ Path.pieces ⟨below⟩) :
    mount.tree.locate? (path.join below) =
      ((Path.pieces ⟨below⟩).foldlM (inner entries).follow? way).map (mount.location ++ ·) := by
  rw [FileTree.locate?_join h.located hrelative, mount.foldlM_follow?_eq hbelow]

theorem join (h : Placed mount exact way path) {below : String}
    (hrelative : Path.isAbsolute ⟨below⟩ = false) (hbelow : ".." ∉ Path.pieces ⟨below⟩)
    {way' : List String}
    (hway : (Path.pieces ⟨below⟩).foldlM (inner entries).follow? way = some way') :
    Placed mount exact way' (path.join below) := by
  obtain ⟨front, hfront, hsubset, hexact⟩ := h.spelled
  have heq := eq_append_of_foldlM_follow? hbelow hway
  refine ⟨?_, ?_, front, ?_, hsubset, hexact⟩
  · rw [h.locate?_join hrelative hbelow, hway, Option.map_some]
  · rw [heq]
    refine List.forall_mem_append.mpr ⟨h.proper, fun name hname => ?_⟩
    obtain ⟨hmem, hsignificant⟩ := List.mem_filter.mp hname
    exact Path.isName_iff.mpr ⟨hsignificant, fun hparent => hbelow (hparent ▸ hmem),
      Path.slash_not_mem_of_mem_pieces hmem⟩
  · rw [Path.components_join h.ne_empty hrelative, hfront, heq, List.map_append,
      components_of_pieces hbelow, List.append_assoc]

/-- A path that is written as the current directory stands at the base of the mount, and is not
exact. -/
theorem of_isCurrent (h : Placed mount exact way path) (hcurrent : path.isCurrent)
    (hbase : exact → mount.base.pieces.head? ≠ some ".") :
    way = [] ∧ PathComponent.current ∈ mount.base.components ∧ ¬ exact := by
  obtain ⟨front, hfront, hsubset, hexact⟩ := h.spelled
  have hcomponents : path.components = [.current] := by
    rwa [Path.isCurrent, beq_iff_eq] at hcurrent
  rw [hcomponents] at hfront
  have hway : way = [] := by
    cases front with
    | nil =>
      obtain ⟨name, -, hname⟩ := List.map_eq_singleton_iff.mp hfront.symm
      cases hname
    | cons first rest =>
      have hnil := (List.cons.inj hfront).2.symm
      exact List.map_eq_nil_iff.mp (List.append_eq_nil_iff.mp hnil).2
  subst hway
  rw [List.map_nil, List.append_nil] at hfront
  refine ⟨rfl, hsubset (hfront ▸ List.mem_singleton_self _), fun hholds => ?_⟩
  have hnot := Path.isCurrent_eq_false (hbase hholds)
  rw [Path.isCurrent, ← hexact hholds, ← hfront] at hnot
  exact absurd hnot (by decide)

/-- Where one more piece leads from a placed path. -/
theorem locate?_below (h : Placed mount exact way path) {piece : String}
    (hpiece : piece ≠ "..") (hslash : '/' ∉ piece.toList) (hcalm : path.isCurrent → piece ≠ "") :
    mount.tree.locate? (FileTree.below path piece) =
      ((inner entries).follow? way piece).map (mount.location ++ ·) := by
  rw [FileTree.locate?_below h.located hslash hcalm, mount.follow?_eq hpiece]

theorem below (h : Placed mount exact way path) {piece : String}
    (hpiece : piece ≠ "..") (hslash : '/' ∉ piece.toList)
    (hcalm : path.isCurrent → piece ≠ "") (hbase : exact → mount.base.pieces.head? ≠ some ".")
    {way' : List String} (hway : (inner entries).follow? way piece = some way') :
    Placed mount exact way' (FileTree.below path piece) := by
  have hlocated := h.locate?_below hpiece hslash hcalm
  rw [hway, Option.map_some] at hlocated
  have hpieces : Path.pieces ⟨piece⟩ = [piece] := Path.pieces_of_not_mem hslash
  have hfold : (Path.pieces ⟨piece⟩).foldlM (inner entries).follow? way = some way' := by
    rw [hpieces]
    simpa using hway
  have hup : ".." ∉ Path.pieces ⟨piece⟩ := by
    rw [hpieces]
    simpa using Ne.symm hpiece
  by_cases hcurrent : path.isCurrent
  · obtain ⟨rfl, hmem, hnot⟩ := h.of_isCurrent hcurrent hbase
    have heq := eq_append_of_foldlM_follow? hup hfold
    rw [hpieces, List.nil_append] at heq
    rw [FileTree.below, if_pos hcurrent] at hlocated ⊢
    have hrelative := Path.isAbsolute_of_slash_not_mem hslash
    have hempty := String.isEmpty_eq_false_iff.mpr (hcalm hcurrent)
    by_cases hsignificant : Path.isSignificant piece
    · have hname : Path.isName piece := Path.isName_iff.mpr ⟨hsignificant, hpiece, hslash⟩
      rw [List.filter_cons_of_pos hsignificant, List.filter_nil] at heq
      subst heq
      refine ⟨hlocated, List.forall_mem_singleton.mpr hname, [], ?_, List.nil_subset _,
        fun hholds => absurd hholds hnot⟩
      have hdot : (piece == ".") = false := by
        simpa [Path.isSignificant, hempty] using hsignificant
      rw [Path.components, hpieces]
      simp [hrelative, hdot, hempty, Path.component_of_isName hname]
    · rw [List.filter_cons_of_neg hsignificant, List.filter_nil] at heq
      subst heq
      have hdot : piece = "." := by
        simpa [Path.isSignificant, hcalm hcurrent] using hsignificant
      subst hdot
      exact ⟨hlocated, List.forall_mem_nil _, [.current], rfl,
        List.cons_subset.mpr ⟨hmem, List.nil_subset _⟩, fun hholds => absurd hholds hnot⟩
  · rw [FileTree.below, if_neg hcurrent] at hlocated ⊢
    exact h.join (Path.isAbsolute_of_slash_not_mem hslash) hup hfold

theorem entry?_eq (h : Placed mount exact way path) :
    mount.tree.entry? path = (inner entries).root.descend? way := by
  rw [FileTree.entry?, h.located, ← mount.descend?_location]
  rfl

/-- A literal component leads one step on when its name can be followed. -/
theorem mem_expandLiteral_iff (h : Placed mount exact way path) {name : String}
    (hname : name ≠ "..") (hslash : '/' ∉ name.toList) (hcalm : path.isCurrent → name ≠ "")
    {next : Path} :
    next ∈ mount.tree.expandLiteral name path ↔
      next = FileTree.below path name ∧ ((inner entries).follow? way name).isSome := by
  rw [FileTree.expandLiteral_eq h.located hslash hcalm, mount.follow?_eq hname, Option.isSome_map]
  split
  · next hfollow =>
    rw [List.mem_singleton]
    exact ⟨fun heq => ⟨heq, hfollow⟩, And.left⟩
  · next hfollow => exact ⟨nofun, fun hnext => absurd hnext.2 hfollow⟩

/-- A component with wildcards leads to the entries whose names it accepts, and to `.` and `..` when
it starts with a dot. -/
theorem mem_expandWildcard_iff (h : Placed mount exact way path) {glob : Glob} {next : Path} :
    next ∈ mount.tree.expandWildcard glob path ↔
      ∃ content, (inner entries).root.descend? way = some (.directory content) ∧
        ((∃ name last, (name, last) ∈ content ∧ glob.accepts name ∧
            next = FileTree.below path name) ∨
          ∃ dots ∈ [".", ".."], glob.tokens.head? = some (.char '.') ∧ glob.accepts dots ∧
            next = path.join dots) := by
  rw [FileTree.expandWildcard, FileTree.isDirectory, FileTree.list, h.entry?_eq]
  cases (inner entries).root.descend? way with
  | none => simp
  | some entry =>
    cases entry with
    | file content => simp [FileEntry.isDirectory]
    | directory content =>
      simp only [Option.any_some, FileEntry.isDirectory, if_true, Option.elim_some,
        FileEntry.entries, Option.some.injEq, FileEntry.directory.injEq, exists_eq_left',
        List.mem_append]
      refine or_congr ?_ ?_
      · constructor
        · intro hnext
          obtain ⟨name, hname, rfl⟩ := List.mem_map.mp hnext
          obtain ⟨hmem, haccepts⟩ := List.mem_filter.mp hname
          obtain ⟨⟨known, last⟩, hlast, rfl⟩ := List.mem_map.mp hmem
          exact ⟨known, last, hlast, haccepts, rfl⟩
        · rintro ⟨name, last, hlast, haccepts, rfl⟩
          have hmem : name ∈ content.map Prod.fst := List.mem_map.mpr ⟨_, hlast, rfl⟩
          exact List.mem_map.mpr ⟨name, List.mem_filter.mpr ⟨hmem, haccepts⟩, rfl⟩
      · constructor
        · intro hnext
          obtain ⟨dots, hdots, rfl⟩ := List.mem_map.mp hnext
          split at hdots
          · next hstart =>
            obtain ⟨hmem, haccepts⟩ := List.mem_filter.mp hdots
            exact ⟨dots, hmem, beq_iff_eq.mp hstart, haccepts, rfl⟩
          · cases hdots
        · rintro ⟨dots, hmem, hstart, haccepts, rfl⟩
          rw [if_pos (beq_iff_eq.mpr hstart)]
          exact List.mem_map.mpr ⟨dots, List.mem_filter.mpr ⟨hmem, haccepts⟩, rfl⟩

/-- An entry below the directory of a placed path is placed by its name. -/
theorem below_name (h : Placed mount exact way path) {name : String} (hname : Path.isName name)
    (hbase : exact → mount.base.pieces.head? ≠ some ".")
    (hentry : ((inner entries).root.descend? (way ++ [name])).isSome) :
    Placed mount exact (way ++ [name]) (FileTree.below path name) := by
  refine h.below (Path.ne_parent_of_isName hname) (Path.slash_not_mem_of_isName hname)
    (fun _ => Path.ne_empty_of_isName hname) hbase ?_
  rw [FileTree.follow?_name hname, if_pos hentry]

theorem belowAll (h : Placed mount exact way path) {names : List String}
    (hnames : ∀ name ∈ names, Path.isName name)
    (hbase : exact → mount.base.pieces.head? ≠ some ".")
    (hentry : ((inner entries).root.descend? (way ++ names)).isSome) :
    Placed mount exact (way ++ names) (FileTree.belowAll path names) := by
  induction names generalizing way path with
  | nil => rwa [List.append_nil]
  | cons name names ih =>
    obtain ⟨hname, hnames⟩ := List.forall_mem_cons.mp hnames
    have hassoc : way ++ name :: names = (way ++ [name]) ++ names := by
      rw [List.append_assoc, List.singleton_append]
    rw [hassoc] at hentry ⊢
    exact ih (h.below_name hname hbase (FileEntry.isSome_descend?_of_append hentry)) hnames hentry

theorem joinAll (h : Placed mount exact way path) {names : List String}
    (hnames : ∀ name ∈ names, Path.isName name)
    (hentry : ((inner entries).root.descend? (way ++ names)).isSome) :
    Placed mount exact (way ++ names) (path.joinAll names) := by
  induction names generalizing way path with
  | nil => rwa [List.append_nil]
  | cons name names ih =>
    obtain ⟨hname, hnames⟩ := List.forall_mem_cons.mp hnames
    have hassoc : way ++ name :: names = (way ++ [name]) ++ names := by
      rw [List.append_assoc, List.singleton_append]
    rw [hassoc] at hentry ⊢
    have hpieces := Path.pieces_of_isName hname
    refine ih (h.join (Path.isAbsolute_of_isName hname) ?_ ?_) hnames hentry
    · rw [hpieces, List.mem_singleton]
      exact Ne.symm (Path.ne_parent_of_isName hname)
    · rw [hpieces, List.foldlM_cons, FileTree.follow?_name hname,
        if_pos (FileEntry.isSome_descend?_of_append hentry)]
      rfl

theorem fileName?_eq {front : List String} {last : String}
    (h : Placed mount exact (front ++ [last]) path) : path.fileName? = some last := by
  obtain ⟨components, hcomponents, -, -⟩ := h.spelled
  rw [Path.fileName?, hcomponents, List.map_append, ← List.append_assoc, List.map_singleton,
    List.getLast?_concat]

/-- A name that is no component of the base is a piece of a path to a file, before the last one,
when it is on the way. -/
theorem mem_dropLast_pieces_iff {front : List String} {last : String}
    (h : Placed mount exact (front ++ [last]) path) (hfile : HoldsFile entries (front ++ [last]))
    {name : String} (hname : Path.isName name) (hbase : .name name ∉ mount.base.components) :
    name ∈ path.pieces.dropLast ↔ name ∈ front := by
  obtain ⟨content, hcontent⟩ := hfile
  rw [← mount.descend?_location] at hcontent
  obtain ⟨pieces, piece, hpieces, hpiece⟩ := FileTree.exists_pieces_of_file h.located hcontent
  obtain ⟨components, hcomponents, hsubset, -⟩ := h.spelled
  -- both sides are the steps of the path, which end in the name of the file
  have hsteps : (pieces.filter Path.isSignificant).map Path.component =
      components.filter PathComponent.isStep ++ front.map .name := by
    have hpath := path.filter_components
    have hfront : (front.map PathComponent.name).filter PathComponent.isStep =
        front.map .name := by
      rw [List.filter_eq_self]
      intro c hc
      obtain ⟨step, -, rfl⟩ := List.mem_map.mp hc
      rfl
    rw [hcomponents, hpieces, List.filter_append, List.filter_append, List.map_append,
      List.map_append, List.filter_append, hfront, List.filter_cons_of_pos hpiece,
      ← List.append_assoc] at hpath
    exact (List.append_inj' hpath rfl).1.symm
  rw [hpieces, List.dropLast_concat, ← Path.mem_map_component_iff hname, hsteps, List.mem_append]
  constructor
  · rintro (hmem | hmem)
    · exact absurd (hsubset (List.mem_filter.mp hmem).1) hbase
    · obtain ⟨step, hstep, heq⟩ := List.mem_map.mp hmem
      cases heq
      exact hstep
  · intro hmem
    exact .inr (List.mem_map.mpr ⟨name, hmem, rfl⟩)

end Placed

/-! ## Patterns joined to the base -/

/-- The components of the base lead from the start of the tree to its directory. -/
theorem foldlM_texts :
    (GlobSegment.texts mount.base).foldlM mount.tree.follow? (mount.tree.start mount.base) =
      some mount.location := by
  have hreach := (FileTree.locate?_eq_some_iff.mp mount.located).2
  have hsteps : mount.base.steps.foldlM mount.tree.follow? (mount.tree.start mount.base) =
      some mount.location := by
    rw [FileTree.reach?] at hreach
    rcases mount.base.steps_cases with hpieces | hpieces
    · rwa [← hpieces]
    · rw [hpieces, List.foldlM_append] at hreach
      obtain ⟨last, hlast, hstay⟩ := Option.bind_eq_some_iff.mp hreach
      rw [List.foldlM_cons] at hstay
      obtain ⟨found, hfollow, hfound⟩ := Option.bind_eq_some_iff.mp hstay
      cases hfound
      rwa [FileTree.follow?_of_not_isSignificant (by decide) hfollow]
  cases habsolute : mount.base.isAbsolute with
  | false => rwa [GlobSegment.texts_of_isRelative habsolute]
  | true =>
    obtain ⟨rest, hrest⟩ := Path.exists_steps_of_isAbsolute habsolute
    rw [hrest, List.foldlM_cons] at hsteps
    obtain ⟨next, hnext, hsteps⟩ := Option.bind_eq_some_iff.mp hsteps
    rw [GlobSegment.texts_of_isAbsolute habsolute, hrest, List.tail_cons]
    rwa [FileTree.follow?_of_not_isSignificant (by decide) hnext] at hsteps

theorem locate?_origin :
    mount.tree.locate? (FileTree.origin mount.base.isAbsolute) =
      some (mount.tree.start mount.base) := by
  obtain ⟨first, rest, hpieces⟩ := List.exists_cons_of_ne_nil (Path.pieces_ne_nil mount.base)
  have hreach := (FileTree.locate?_eq_some_iff.mp mount.located).2
  rw [FileTree.reach?, hpieces, List.foldlM_cons] at hreach
  obtain ⟨next, hnext, -⟩ := Option.bind_eq_some_iff.mp hreach
  have hstart : mount.tree.start (FileTree.origin mount.base.isAbsolute) =
      mount.tree.start mount.base := by
    rw [FileTree.start, FileTree.start]
    cases mount.base.isAbsolute with
    | true => rfl
    | false => rfl
  have horigin : (FileTree.origin mount.base.isAbsolute).text ≠ "" ∧
      ∀ piece ∈ (FileTree.origin mount.base.isAbsolute).pieces, ¬ Path.isSignificant piece := by
    cases mount.base.isAbsolute with
    | true => decide
    | false => decide
  refine FileTree.locate?_eq_some_iff.mpr ⟨horigin.1, ?_⟩
  rw [FileTree.reach?, hstart]
  exact FileTree.foldlM_stay hnext horigin.2

section

variable {mount} {exact : Prop}

/-- What the components of the base lead to is at the base of the mount. -/
theorem Placed.of_components_eq {path : Path}
    (hpath : mount.tree.locate? path = some mount.location)
    (hcomponents : path.components = mount.base.components) : Placed mount exact [] path := by
  refine ⟨?_, List.forall_mem_nil _, mount.base.components, ?_, List.Subset.refl _, fun _ => rfl⟩
  · rwa [List.append_nil]
  · rw [List.map_nil, List.append_nil, hcomponents]

theorem slash_not_mem_texts :
    ∀ name ∈ GlobSegment.texts mount.base, '/' ∉ name.toList := fun _ hname =>
  Path.slash_not_mem_of_mem_pieces (GlobSegment.texts_subset mount.base hname)

/-- A base that starts with a dot may lose it. -/
theorem exists_expandFrom_dotted (hdotted : mount.base.pieces.head? = some ".")
    (hcalm : "" ∉ GlobSegment.texts mount.base) (hexact : ¬ exact) :
    ∃ path, Placed mount exact [] path ∧
      ∀ rest, mount.tree.expandFrom ((GlobSegment.texts mount.base).map .literal ++ rest)
        (FileTree.origin mount.base.isAbsolute) = mount.tree.expandFrom rest path := by
  obtain ⟨path, hpath, hsubset, -, hexpand⟩ := FileTree.exists_expandFrom_literals
    slash_not_mem_texts mount.locate?_origin (fun _ => hcalm) mount.foldlM_texts
  refine ⟨path, ⟨?_, List.forall_mem_nil _, path.components, ?_, ?_,
    fun h => absurd h hexact⟩, hexpand⟩
  · rwa [List.append_nil]
  · rw [List.map_nil, List.append_nil]
  · obtain ⟨rest, hrest⟩ := List.head?_eq_some_iff.mp hdotted
    rw [GlobSegment.filter_texts, hrest, List.filter_cons_of_neg (by decide),
      Path.isAbsolute_of_dotted hdotted] at hsubset
    rw [Path.components_of_dotted hdotted, hrest]
    exact hsubset

/-- Any other base keeps its components, whether it starts at the root or with a piece. -/
theorem exists_expandFrom_undotted (hdotted : mount.base.pieces.head? ≠ some ".") :
    ∃ path, mount.tree.locate? path = some mount.location ∧
      path.components = mount.base.components ∧
      ∀ rest, mount.tree.expandFrom ((GlobSegment.texts mount.base).map .literal ++ rest)
        (FileTree.origin mount.base.isAbsolute) = mount.tree.expandFrom rest path := by
  have hslash := mount.slash_not_mem_texts
  have hcomponents := Path.components_eq hdotted
  rw [← GlobSegment.filter_texts] at hcomponents
  have horigin := mount.locate?_origin
  have htexts := mount.foldlM_texts
  cases habsolute : mount.base.isAbsolute with
  | true =>
    rw [habsolute] at hcomponents horigin
    obtain ⟨path, hpath, -, hpathComponents, hexpand⟩ :=
      FileTree.exists_expandFrom_literals hslash horigin (fun h => absurd h (by decide)) htexts
    refine ⟨path, hpath, ?_, hexpand⟩
    rw [hpathComponents (by decide), hcomponents]
    rfl
  | false =>
    rw [habsolute] at hcomponents horigin
    obtain ⟨first, rest, hempty, hhead, hsteps⟩ :=
      Path.exists_steps_of_relative mount.base_ne_empty habsolute
    rw [GlobSegment.texts_of_isRelative habsolute, hsteps] at hslash htexts hcomponents ⊢
    obtain ⟨hfirst, hslash⟩ := List.forall_mem_cons.mp hslash
    obtain ⟨step, hstep, htexts⟩ := Option.bind_eq_some_iff.mp htexts
    -- the first piece replaces the `.` of the start
    have hpieces : Path.pieces ⟨first⟩ = [first] := Path.pieces_of_not_mem hfirst
    have hfirstHead : (Path.mk first).pieces.head? ≠ some "." := by
      rw [hpieces, List.head?_cons, ← hhead]
      exact hdotted
    have hfirstNot : ¬ Path.isCurrent ⟨first⟩ :=
      Bool.eq_false_iff.mp (Path.isCurrent_eq_false hfirstHead)
    have hlocated : mount.tree.locate? ⟨first⟩ = some step :=
      (FileTree.locate?_below horigin hfirst fun _ => hempty).trans hstep
    obtain ⟨path, hpath, -, hpathComponents, hexpand⟩ :=
      FileTree.exists_expandFrom_literals hslash hlocated (fun h => absurd h hfirstNot) htexts
    refine ⟨path, hpath, ?_, fun others => ?_⟩
    · rw [hpathComponents hfirstNot, Path.components_eq hfirstHead, hpieces,
        Path.isAbsolute_of_slash_not_mem hfirst, hcomponents, List.append_assoc, ← List.map_append,
        ← List.filter_append]
      rfl
    · rw [List.map_cons, List.cons_append, FileTree.expandFrom,
        FileTree.expandLiteral_eq horigin hfirst fun _ => hempty, hstep, Option.isSome_some,
        if_pos rfl, List.flatMap_cons, List.flatMap_nil, List.append_nil]
      exact hexpand others

end

/-- The components of the base, as the first ones of a pattern, lead to its directory. -/
theorem exists_expandFrom_base {exact : Prop} (hbase : exact → mount.base.pieces.head? ≠ some ".")
    (hcalm : mount.base.pieces.head? = some "." → "" ∉ GlobSegment.texts mount.base) :
    ∃ path, Placed mount exact [] path ∧
      (path.isCurrent → mount.base.pieces.head? = some ".") ∧
      ∀ rest, mount.tree.expandFrom ((GlobSegment.texts mount.base).map .literal ++ rest)
        (FileTree.origin mount.base.isAbsolute) = mount.tree.expandFrom rest path := by
  by_cases hdotted : mount.base.pieces.head? = some "."
  · obtain ⟨path, hpath, hexpand⟩ :=
      exists_expandFrom_dotted hdotted (hcalm hdotted) fun h => hbase h hdotted
    exact ⟨path, hpath, fun _ => hdotted, hexpand⟩
  · obtain ⟨path, hpath, hcomponents, hexpand⟩ := exists_expandFrom_undotted hdotted
    refine ⟨path, .of_components_eq hpath hcomponents, fun hcurrent => ?_, hexpand⟩
    rw [Path.isCurrent, hcomponents, ← Path.isCurrent, Path.isCurrent_eq_false hdotted] at hcurrent
    cases hcurrent

end Mount

end LogCensus
