import LogCensus.FileTree
import LogCensus.Proofs.Path

/-!
# Walks and the places they lead to

A path is followed piece by piece. A name leads to the entry with that name, so a path with names
joined to it leads down from where the path leads, and all paths that a walk makes do that. Pieces
that do not count stay where they are: paths with the same simplified form lead to the same place.

* `FileTree.reach?_joinAll`: where a path leads after names were joined to it.
* `FileEntry.exists_of_mem_walk`, `FileEntry.mem_walk_of_descend?`: what a walk finds, by the names
  on the way.
* `FileTree.eq_of_simplified_eq`: one simplified form, one place.
-/

namespace LogCensus

/-! ## Entries below entries -/

namespace FileEntry

mutual
/-- Whether each directory at or below an entry has distinct names that lead one step down. -/
def isProper : FileEntry → Bool
  | .file _ => true
  | .directory entries => decide (entries.map Prod.fst).Nodup && areProper entries
/-- Whether the entries of a directory are proper and have names that lead one step down. -/
def areProper : List (String × FileEntry) → Bool
  | [] => true
  | (name, entry) :: rest => Path.isName name && isProper entry && areProper rest
end

theorem descend?_append (entry : FileEntry) (names others : List String) :
    entry.descend? (names ++ others) =
      (entry.descend? names).bind fun below => below.descend? others :=
  List.foldlM_append

theorem descend?_cons (entry : FileEntry) (name : String) (names : List String) :
    entry.descend? (name :: names) =
      (entry.child? name).bind fun below => below.descend? names :=
  List.foldlM_cons

theorem isSome_descend?_of_append {entry : FileEntry} {names others : List String}
    (h : (entry.descend? (names ++ others)).isSome) : (entry.descend? names).isSome := by
  rw [descend?_append] at h
  exact Option.isSome_of_isSome_bind h

theorem areProper_iff {entries : List (String × FileEntry)} :
    areProper entries ↔
      ∀ name entry, (name, entry) ∈ entries → Path.isName name ∧ entry.isProper := by
  induction entries with
  | nil => simp [areProper]
  | cons head rest ih =>
    obtain ⟨name, entry⟩ := head
    rw [areProper, Bool.and_eq_true, Bool.and_eq_true, ih]
    constructor
    · rintro ⟨hhead, hrest⟩ known below hmem
      rcases List.mem_cons.mp hmem with heq | hmem
      · cases heq
        exact hhead
      · exact hrest known below hmem
    · intro h
      exact ⟨h name entry List.mem_cons_self, fun known below hmem =>
        h known below (List.mem_cons_of_mem _ hmem)⟩

/-- The entry with a name is found when no other one has the name. -/
theorem lookup_of_mem {name : String} {entry : FileEntry} {entries : List (String × FileEntry)}
    (hnodup : (entries.map Prod.fst).Nodup) (hmem : (name, entry) ∈ entries) :
    entries.lookup name = some entry := by
  induction entries with
  | nil => cases hmem
  | cons head rest ih =>
    obtain ⟨known, below⟩ := head
    rw [List.map_cons, List.nodup_cons] at hnodup
    rcases List.mem_cons.mp hmem with heq | hrest
    · cases heq
      exact List.lookup_cons_self
    · have hne : name ≠ known := by
        rintro rfl
        exact hnodup.1 (List.mem_map.mpr ⟨_, hrest, rfl⟩)
      rw [List.lookup_cons, beq_eq_false_iff_ne.mpr hne]
      exact ih hnodup.2 hrest

theorem mem_of_lookup {name : String} {entry : FileEntry} {entries : List (String × FileEntry)}
    (h : entries.lookup name = some entry) : (name, entry) ∈ entries := by
  obtain ⟨before, after, rfl, -⟩ := List.lookup_eq_some_iff.mp h
  exact List.mem_append_right _ List.mem_cons_self

theorem isProper_of_child? {entry below : FileEntry} {name : String} (hproper : entry.isProper)
    (h : entry.child? name = some below) : below.isProper := by
  cases entry with
  | file content => cases h
  | directory entries =>
    rw [isProper, Bool.and_eq_true] at hproper
    exact (areProper_iff.mp hproper.2 name below (mem_of_lookup h)).2

theorem isProper_of_descend? {entry below : FileEntry} {names : List String}
    (hproper : entry.isProper) (h : entry.descend? names = some below) : below.isProper := by
  induction names generalizing entry with
  | nil =>
    cases h
    exact hproper
  | cons name names ih =>
    rw [descend?_cons] at h
    obtain ⟨next, hnext, hbelow⟩ := Option.bind_eq_some_iff.mp h
    exact ih (isProper_of_child? hproper hnext) hbelow

/-! ## Walks -/

mutual
/-- A walk finds the entries below its start, each under the path of the names on the way. -/
theorem exists_of_mem_walk {path found : Path} {below : FileEntry} :
    ∀ {entry : FileEntry}, entry.isProper → (found, below) ∈ walk path entry →
      ∃ names, (∀ name ∈ names, Path.isName name) ∧ entry.descend? names = some below ∧
        found = path.joinAll names
  | .file content, _, hmem => by
    rw [walk, List.mem_singleton] at hmem
    cases hmem
    exact ⟨[], nofun, rfl, rfl⟩
  | .directory entries, hproper, hmem => by
    rw [isProper, Bool.and_eq_true, decide_eq_true_eq] at hproper
    rw [walk] at hmem
    rcases List.mem_cons.mp hmem with heq | hmem
    · cases heq
      exact ⟨[], nofun, rfl, rfl⟩
    · obtain ⟨name, entry, names, hentry, hnames, hbelow, hfound⟩ :=
        exists_of_mem_walkEntries hproper.2 hmem
      have hname : Path.isName name := (areProper_iff.mp hproper.2 _ _ hentry).1
      refine ⟨name :: names, List.forall_mem_cons.mpr ⟨hname, hnames⟩, ?_, hfound⟩
      rw [descend?_cons, child?, FileEntry.entries, lookup_of_mem hproper.1 hentry]
      exact hbelow
theorem exists_of_mem_walkEntries {path found : Path} {below : FileEntry} :
    ∀ {entries : List (String × FileEntry)}, areProper entries →
      (found, below) ∈ walkEntries path entries →
      ∃ name entry names, (name, entry) ∈ entries ∧ (∀ name ∈ names, Path.isName name) ∧
        entry.descend? names = some below ∧ found = path.joinAll (name :: names)
  | [], _, hmem => by cases hmem
  | (name, entry) :: rest, hproper, hmem => by
    rw [areProper, Bool.and_eq_true, Bool.and_eq_true] at hproper
    rw [walkEntries] at hmem
    rcases List.mem_append.mp hmem with hmem | hmem
    · obtain ⟨names, hnames, hbelow, hfound⟩ := exists_of_mem_walk hproper.1.2 hmem
      exact ⟨name, entry, names, List.mem_cons_self, hnames, hbelow, hfound⟩
    · obtain ⟨name', entry', names, hentry, hnames, hbelow, hfound⟩ :=
        exists_of_mem_walkEntries hproper.2 hmem
      exact ⟨name', entry', names, List.mem_cons_of_mem _ hentry, hnames, hbelow, hfound⟩
end

theorem walk_subset_walkEntries {path : Path} {name : String} {entry : FileEntry}
    {entries : List (String × FileEntry)} (hmem : (name, entry) ∈ entries) :
    walk (path.join name) entry ⊆ walkEntries path entries := by
  induction entries with
  | nil => cases hmem
  | cons head rest ih =>
    obtain ⟨known, below⟩ := head
    rw [walkEntries]
    rcases List.mem_cons.mp hmem with heq | hrest
    · cases heq
      exact List.subset_append_left _ _
    · exact List.subset_append_of_subset_right _ (ih hrest)

/-- A walk finds every entry below its start. -/
theorem mem_walk_of_descend? {path : Path} {entry below : FileEntry} {names : List String}
    (h : entry.descend? names = some below) : (path.joinAll names, below) ∈ walk path entry := by
  induction names generalizing path entry with
  | nil =>
    cases h
    cases below with
    | file content => exact List.mem_singleton_self _
    | directory entries => exact List.mem_cons_self
  | cons name names ih =>
    rw [descend?_cons] at h
    obtain ⟨next, hnext, hbelow⟩ := Option.bind_eq_some_iff.mp h
    cases entry with
    | file content => cases hnext
    | directory entries =>
      rw [walk]
      exact List.mem_cons_of_mem _ (walk_subset_walkEntries (mem_of_lookup hnext) (ih hbelow))

end FileEntry

/-! ## Where paths lead -/

namespace FileTree

/-- The place that the pieces of a path lead to, also when the path is empty. -/
def reach? (tree : FileTree) (path : Path) : Option (List String) :=
  path.pieces.foldlM tree.follow? (tree.start path)

variable {tree : FileTree}

theorem locate?_eq_some_iff {path : Path} {location : List String} :
    tree.locate? path = some location ↔ path.text ≠ "" ∧ tree.reach? path = some location := by
  rw [locate?, reach?]
  by_cases hempty : path.text = ""
  · simp [hempty]
  · simp [hempty]

theorem follow?_name {location : List String} {name : String} (hname : Path.isName name) :
    tree.follow? location name =
      if (tree.root.descend? (location ++ [name])).isSome then some (location ++ [name])
      else none := by
  have hempty : name ≠ "" := Path.ne_empty_of_isName hname
  have hparent : name ≠ ".." := Path.ne_parent_of_isName hname
  have hcurrent : name ≠ "." := by
    rintro rfl
    exact absurd hname (by decide)
  rw [follow?, FileEntry.descend?_append]
  cases tree.root.descend? location with
  | none => rfl
  | some entry =>
    rw [Option.bind_some, FileEntry.descend?_cons]
    cases entry with
    | file content => rfl
    | directory entries =>
      rw [FileEntry.child?, FileEntry.entries]
      cases hlookup : entries.lookup name with
      | none => simp [hempty, hparent, hcurrent, hlookup]
      | some below => simp [hempty, hparent, hcurrent, hlookup, FileEntry.descend?]

/-- A piece that does not count stays in the directory where it is. -/
theorem follow?_of_not_isSignificant {location : List String} {piece : String}
    (hpiece : ¬ Path.isSignificant piece) {found : List String}
    (h : tree.follow? location piece = some found) : found = location := by
  rw [Path.isSignificant, Bool.not_eq_true, Bool.not_eq_false'] at hpiece
  rw [follow?] at h
  split at h
  · rw [if_pos hpiece] at h
    exact (Option.some.inj h).symm
  · cases h

/-- Where a piece can be followed, one that does not count can be followed too. -/
theorem follow?_stay {location found : List String} {piece : String}
    (h : tree.follow? location piece = some found) {stay : String}
    (hstay : ¬ Path.isSignificant stay) : tree.follow? location stay = some location := by
  rw [Path.isSignificant, Bool.not_eq_true, Bool.not_eq_false'] at hstay
  rw [follow?] at h ⊢
  split at h
  · exact if_pos hstay
  · cases h

theorem foldlM_stay {location found : List String} {piece : String}
    (h : tree.follow? location piece = some found) {pieces : List String}
    (hpieces : ∀ stay ∈ pieces, ¬ Path.isSignificant stay) :
    pieces.foldlM tree.follow? location = some location := by
  induction pieces with
  | nil => rfl
  | cons stay pieces ih =>
    obtain ⟨hstay, hpieces⟩ := List.forall_mem_cons.mp hpieces
    rw [List.foldlM_cons, follow?_stay h hstay]
    exact ih hpieces

/-- Where a piece leads, there is an entry. -/
theorem isSome_descend?_of_follow? {location found : List String} {piece : String}
    (h : tree.follow? location piece = some found) : (tree.root.descend? found).isSome := by
  rw [follow?] at h
  split at h
  · next entries hentry =>
    have hlocation : (tree.root.descend? location).isSome := Option.isSome_of_eq_some hentry
    split at h
    · rwa [← Option.some.inj h]
    · split at h
      · rw [← Option.some.inj h]
        rcases location.eq_nil_or_concat with rfl | ⟨front, last, rfl⟩
        · exact hlocation
        · rw [List.concat_eq_append] at hlocation ⊢
          rw [List.dropLast_concat]
          exact FileEntry.isSome_descend?_of_append hlocation
      · split at h
        · next hlookup =>
          rw [← Option.some.inj h, FileEntry.descend?_append, hentry, Option.bind_some,
            FileEntry.descend?_cons, FileEntry.child?, FileEntry.entries]
          obtain ⟨below, hbelow⟩ := Option.isSome_iff_exists.mp hlookup
          rw [hbelow]
          rfl
        · cases h
  · cases h

theorem follow?_empty_bind (location : List String) (name : String) :
    (tree.follow? location "").bind (fun found => tree.follow? found name) =
      tree.follow? location name := by
  cases hentry : tree.root.descend? location with
  | none => simp [follow?, hentry]
  | some entry =>
    cases entry with
    | file content => simp [follow?, hentry]
    | directory entries => simp [follow?, hentry]

/-- A relative text joined to a path is followed after the path. -/
theorem reach?_join_text (path : Path) {below : String}
    (hrelative : Path.isAbsolute ⟨below⟩ = false) :
    tree.reach? (path.join below) =
      (tree.reach? path).bind fun location =>
        (Path.pieces ⟨below⟩).foldlM tree.follow? location := by
  have hstart : tree.start (path.join below) = tree.start path := by
    rw [start, start, Path.isAbsolute_join path hrelative]
  obtain ⟨front, hpath, hjoin⟩ := Path.exists_pieces_join_text path hrelative
  rw [reach?, hstart, hjoin, List.foldlM_append, reach?]
  rcases hpath with hpath | hpath
  · rw [hpath]
    rfl
  · -- the empty piece at the end of the path stays in a directory, where the next piece has to be
    obtain ⟨first, rest, hpieces⟩ := List.exists_cons_of_ne_nil (Path.pieces_ne_nil ⟨below⟩)
    rw [hpath, List.foldlM_append, hpieces]
    simp only [List.foldlM_cons, List.foldlM_nil, Option.bind_eq_bind, Option.pure_def,
      Option.bind_fun_some, Option.bind_assoc]
    refine Option.bind_congr fun location _ => ?_
    rw [← Option.bind_assoc, follow?_empty_bind]

/-- A name joined to a path is followed after the path. -/
theorem reach?_join (path : Path) {name : String} (hname : Path.isName name) :
    tree.reach? (path.join name) =
      (tree.reach? path).bind fun location => tree.follow? location name := by
  rw [reach?_join_text path (Path.isAbsolute_of_isName hname), Path.pieces_of_isName hname]
  simp only [List.foldlM_cons, List.foldlM_nil, Option.bind_eq_bind, Option.pure_def,
    Option.bind_fun_some]

/-- A relative text joined to a path that leads somewhere is followed from there. -/
theorem locate?_join {path : Path} {location : List String}
    (hpath : tree.locate? path = some location)
    {below : String} (hrelative : Path.isAbsolute ⟨below⟩ = false) :
    tree.locate? (path.join below) = (Path.pieces ⟨below⟩).foldlM tree.follow? location := by
  obtain ⟨hne, hreach⟩ := locate?_eq_some_iff.mp hpath
  have hjoin : (path.join below).text ≠ "" := by
    rw [Path.join_eq path hrelative]
    rcases Path.lead_cases path with ⟨hempty, -⟩ | ⟨front, -, hlead⟩ | ⟨-, hlead⟩
    · exact absurd hempty hne
    · simp [hlead]
    · simp [hlead]
  rw [locate?, String.isEmpty_eq_false_iff.mpr hjoin]
  exact (reach?_join_text path hrelative).trans (by rw [hreach, Option.bind_some])

/-- Where a path with names joined to it leads, it leads by those names from where the path
leads. -/
theorem exists_of_reach?_joinAll {path : Path} {names found : List String}
    (hnames : ∀ name ∈ names, Path.isName name)
    (h : tree.reach? (path.joinAll names) = some found) :
    ∃ location, tree.reach? path = some location ∧ found = location ++ names := by
  induction names generalizing path with
  | nil => exact ⟨found, h, (List.append_nil found).symm⟩
  | cons name names ih =>
    obtain ⟨hname, hnames⟩ := List.forall_mem_cons.mp hnames
    obtain ⟨next, hnext, rfl⟩ := ih hnames h
    rw [reach?_join path hname] at hnext
    obtain ⟨location, hlocation, hfollow⟩ := Option.bind_eq_some_iff.mp hnext
    refine ⟨location, hlocation, ?_⟩
    rw [follow?_name hname] at hfollow
    split at hfollow
    · rw [← Option.some.inj hfollow, List.append_assoc, List.singleton_append]
    · cases hfollow

/-- Names joined to a path lead down to the entry below the entry of the path. -/
theorem locate?_joinAll {path : Path} {location names : List String}
    (hnames : ∀ name ∈ names, Path.isName name) (hpath : tree.locate? path = some location)
    (hentry : (tree.root.descend? (location ++ names)).isSome) :
    tree.locate? (path.joinAll names) = some (location ++ names) := by
  induction names generalizing path location with
  | nil => rwa [List.append_nil]
  | cons name names ih =>
    obtain ⟨hname, hnames⟩ := List.forall_mem_cons.mp hnames
    have hassoc : location ++ name :: names = (location ++ [name]) ++ names := by
      rw [List.append_assoc, List.singleton_append]
    rw [hassoc] at hentry ⊢
    refine ih hnames ?_ hentry
    obtain ⟨-, hreach⟩ := locate?_eq_some_iff.mp hpath
    refine locate?_eq_some_iff.mpr ⟨Path.join_ne_empty path hname, ?_⟩
    rw [reach?_join path hname, hreach, Option.bind_some, follow?_name hname,
      if_pos (FileEntry.isSome_descend?_of_append hentry)]

/-- A path with a slash at the end leads to a directory only. -/
theorem exists_directory_of_join_empty {path : Path} {location : List String}
    (h : tree.locate? (path.join "") = some location) :
    ∃ entries, tree.root.descend? location = some (.directory entries) := by
  obtain ⟨front, hpieces⟩ := path.exists_pieces_join_empty
  have hreach := (locate?_eq_some_iff.mp h).2
  rw [reach?, hpieces, List.foldlM_append] at hreach
  obtain ⟨next, -, hlast⟩ := Option.bind_eq_some_iff.mp hreach
  rw [List.foldlM_cons] at hlast
  obtain ⟨found, hfollow, hfound⟩ := Option.bind_eq_some_iff.mp hlast
  cases hfound
  have hstay : location = next := follow?_of_not_isSignificant (by decide) hfollow
  subst hstay
  rw [follow?] at hfollow
  split at hfollow
  · next entries hentry => exact ⟨entries, hentry⟩
  · cases hfollow

/-- A path to a file ends in a piece that counts. -/
theorem exists_pieces_of_file {path : Path} {location : List String} {content : List UInt8}
    (hpath : tree.locate? path = some location)
    (hfile : tree.root.descend? location = some (.file content)) :
    ∃ front last, path.pieces = front ++ [last] ∧ Path.isSignificant last := by
  rcases path.pieces.eq_nil_or_concat with hnil | ⟨front, last, hpieces⟩
  · exact absurd hnil (Path.pieces_ne_nil path)
  rw [List.concat_eq_append] at hpieces
  refine ⟨front, last, hpieces, Decidable.byContradiction fun hlast => ?_⟩
  have hreach := (locate?_eq_some_iff.mp hpath).2
  rw [reach?, hpieces, List.foldlM_append] at hreach
  obtain ⟨next, -, hstep⟩ := Option.bind_eq_some_iff.mp hreach
  rw [List.foldlM_cons] at hstep
  obtain ⟨found, hfollow, hfound⟩ := Option.bind_eq_some_iff.mp hstep
  cases hfound
  -- the piece would stay in a directory
  have hstay : location = next := follow?_of_not_isSignificant hlast hfollow
  subst hstay
  rw [follow?, hfile] at hfollow
  cases hfollow

/-- A path leads to the same place as its pieces that count. -/
theorem foldlM_filter_of_foldlM {pieces : List String} {location found : List String}
    (h : pieces.foldlM tree.follow? location = some found) :
    (pieces.filter Path.isSignificant).foldlM tree.follow? location = some found := by
  induction pieces generalizing location with
  | nil => exact h
  | cons piece pieces ih =>
    rw [List.foldlM_cons] at h
    obtain ⟨next, hnext, hrest⟩ := Option.bind_eq_some_iff.mp h
    by_cases hpiece : Path.isSignificant piece
    · rw [List.filter_cons_of_pos hpiece, List.foldlM_cons, hnext]
      exact ih hrest
    · rw [follow?_of_not_isSignificant hpiece hnext] at hrest
      rw [List.filter_cons_of_neg hpiece]
      exact ih hrest

/-- Paths that lead somewhere and have the same simplified form lead to the same place. -/
theorem eq_of_simplified_eq {path path' : Path} {location location' : List String}
    (hpath : tree.locate? path = some location) (hpath' : tree.locate? path' = some location')
    (hsame : path.simplified = path'.simplified) : location = location' := by
  obtain ⟨habsolute, hpieces⟩ := Prod.mk.inj hsame
  have hreach := foldlM_filter_of_foldlM (locate?_eq_some_iff.mp hpath).2
  have hreach' := foldlM_filter_of_foldlM (locate?_eq_some_iff.mp hpath').2
  rw [start, habsolute, hpieces] at hreach
  exact Option.some.inj (hreach.symm.trans hreach')

end FileTree

end LogCensus
