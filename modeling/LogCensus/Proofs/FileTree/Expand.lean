import LogCensus.FileTree.Expand
import LogCensus.Proofs.FileTree.Walk

/-!
# Patterns that lead down

A pattern is expanded component by component from the root, or from the current directory, where the
paths are written without a leading `.`. When every component leads down, all paths of the pattern
are made of names, joined to the root or to nothing: the paths of such patterns are spelled alike,
however the patterns overlap.

* `FileTree.SpelledDown`: a path made of names.
* `FileTree.spelledDown_of_mem_expandFrom`: the paths of components that lead down.
-/

namespace LogCensus

/-- Whether a component of a pattern leads down: it is a name, or it has wildcards that match
neither `.` nor `..`. -/
def GlobSegment.leadsDown : GlobSegment → Bool
  | .literal name => Path.isName name
  | .wildcard glob => glob.tokens.head? != some (.char '.')
  | .recursive => true

/-- Whether all components of a pattern lead down, apart from `.` at its start; a malformed pattern
has no paths. -/
def Path.expandsDown (pattern : Path) : Bool :=
  match GlobSegment.ofPattern pattern with
  | .error _ => true
  | .ok segments =>
    let below :=
      if pattern.isAbsolute then segments
      else segments.dropWhile fun segment => segment == .literal "."
    !below.isEmpty && below.all GlobSegment.leadsDown

namespace Path

/-- A path does not get a `.` at its start when names are joined to it. -/
theorem head?_pieces_joinAll {path : Path} {names : List String}
    (hnames : ∀ name ∈ names, isName name) (hpath : path.pieces.head? ≠ some ".") :
    (path.joinAll names).pieces.head? ≠ some "." := by
  induction names generalizing path with
  | nil => exact hpath
  | cons name names ih =>
    obtain ⟨hname, hnames⟩ := List.forall_mem_cons.mp hnames
    refine ih hnames ?_
    obtain ⟨front, hpieces, hjoin⟩ := path.exists_pieces_join hname
    rw [hjoin]
    cases front with
    | nil =>
      rintro ⟨⟩
      exact absurd hname (by decide)
    | cons first front =>
      rcases hpieces with hpieces | hpieces
      · rw [hpieces] at hpath
        exact hpath
      · rw [hpieces] at hpath
        exact hpath

theorem component_ne_current (piece : String) : component piece ≠ .current := by
  rw [component]
  split
  · exact PathComponent.noConfusion
  · exact PathComponent.noConfusion

/-- Only a `.` at the start is the current directory. -/
theorem isCurrent_eq_false {path : Path} (hpath : path.pieces.head? ≠ some ".") :
    path.isCurrent = false := by
  rw [isCurrent, beq_eq_false_iff_ne, components_eq hpath]
  intro hcurrent
  have hmem := List.mem_singleton_self PathComponent.current
  rw [← hcurrent] at hmem
  rcases List.mem_append.mp hmem with hroot | hpiece
  · split at hroot
    · exact PathComponent.noConfusion (List.mem_singleton.mp hroot)
    · cases hroot
  · obtain ⟨piece, -, hpiece⟩ := List.mem_map.mp hpiece
    exact component_ne_current piece hpiece

/-- What has only the component of the current directory stays there. -/
theorem pieces_of_isCurrent {path : Path} (h : path.isCurrent) :
    path.isAbsolute = false ∧ path.pieces.filter isSignificant = [] := by
  by_cases hdotted : path.pieces.head? = some "."
  · obtain ⟨rest, hrest⟩ := List.head?_eq_some_iff.mp hdotted
    rw [isCurrent, beq_iff_eq, components_of_dotted hdotted, hrest] at h
    rw [hrest, List.filter_cons_of_neg (by decide)]
    exact ⟨isAbsolute_of_dotted hdotted, List.map_eq_nil_iff.mp (List.cons.inj h).2⟩
  · rw [isCurrent_eq_false hdotted] at h
    cases h

end Path

namespace FileTree

/-- Where the paths of patterns start. -/
def origin (absolute : Bool) : Path :=
  ⟨if absolute then "/" else "."⟩

/-- A path made of one or more names, joined to the root or to nothing. -/
def SpelledDown (absolute : Bool) (path : Path) : Prop :=
  ∃ names, names ≠ [] ∧ (∀ name ∈ names, Path.isName name) ∧
    path = Path.joinAll ⟨if absolute then "/" else ""⟩ names

variable {tree : FileTree} {absolute : Bool} {path : Path}

/-- A step down from the start or from a path made of names. -/
theorem spelledDown_below (hpath : path = origin absolute ∨ SpelledDown absolute path)
    {name : String} (hname : Path.isName name) : SpelledDown absolute (below path name) := by
  rcases hpath with rfl | ⟨names, hne, hnames, rfl⟩
  · refine ⟨[name], List.cons_ne_nil _ _, List.forall_mem_singleton.mpr hname, ?_⟩
    cases absolute with
    | true => rfl
    | false =>
      rw [below, if_pos (by decide)]
      exact (Path.join_eq ⟨""⟩ (Path.isAbsolute_of_isName hname)).symm
  · have hcurrent : (Path.joinAll ⟨if absolute then "/" else ""⟩ names).isCurrent = false := by
      refine Path.isCurrent_eq_false (Path.head?_pieces_joinAll hnames ?_)
      cases absolute with
      | true => decide
      | false => decide
    have hall : ∀ name' ∈ names ++ [name], Path.isName name' :=
      List.forall_mem_append.mpr ⟨hnames, List.forall_mem_singleton.mpr hname⟩
    refine ⟨names ++ [name], by simp, hall, ?_⟩
    rw [below, hcurrent, Path.joinAll_append]
    rfl

mutual
/-- Everything below a start or a path made of names is made of names. -/
theorem spelledDown_of_mem_descendants {found : Path} {name : String} {below : FileEntry} :
    ∀ {path : Path} {entry : FileEntry}, path = origin absolute ∨ SpelledDown absolute path →
      entry.isProper → (found, name, below) ∈ descendants path entry → SpelledDown absolute found
  | _, .file content, _, _, hmem => by cases hmem
  | path, .directory entries, hpath, hproper, hmem => by
    rw [FileEntry.isProper, Bool.and_eq_true] at hproper
    exact spelledDown_of_mem_descendantsOf hpath hproper.2 hmem
theorem spelledDown_of_mem_descendantsOf {found : Path} {name : String} {below : FileEntry} :
    ∀ {path : Path} {entries : List (String × FileEntry)},
      path = origin absolute ∨ SpelledDown absolute path → FileEntry.areProper entries →
        (found, name, below) ∈ descendantsOf path entries → SpelledDown absolute found
  | _, [], _, _, hmem => by cases hmem
  | path, (known, entry) :: rest, hpath, hproper, hmem => by
    rw [FileEntry.areProper, Bool.and_eq_true, Bool.and_eq_true] at hproper
    have hbelow := spelledDown_below hpath hproper.1.1
    rw [descendantsOf] at hmem
    rcases List.mem_append.mp hmem with hmem | hmem
    · rcases List.mem_cons.mp hmem with heq | hmem
      · cases heq
        exact hbelow
      · exact spelledDown_of_mem_descendants (.inr hbelow) hproper.1.2 hmem
    · exact spelledDown_of_mem_descendantsOf hpath hproper.2 hmem
end

theorem eq_below_of_mem_expandLiteral {name : String} {found : Path}
    (hfound : found ∈ tree.expandLiteral name path) : found = below path name := by
  rw [expandLiteral] at hfound
  split at hfound
  · split at hfound
    · exact List.mem_singleton.mp hfound
    · cases hfound
  · split at hfound
    · exact List.mem_singleton.mp hfound
    · cases hfound

theorem spelledDown_of_mem_expandLiteral
    (hpath : path = origin absolute ∨ SpelledDown absolute path) {name : String}
    (hname : (GlobSegment.literal name).leadsDown) {found : Path}
    (hfound : found ∈ tree.expandLiteral name path) : SpelledDown absolute found := by
  rw [eq_below_of_mem_expandLiteral hfound]
  exact spelledDown_below hpath hname

/-- A `.` at the start of a pattern stays in the current directory. -/
theorem mem_expandFrom_dropWhile {segments : List GlobSegment} {found : Path}
    (hfound : found ∈ tree.expandFrom segments ⟨"."⟩) :
    found ∈ tree.expandFrom (segments.dropWhile fun segment => segment == .literal ".") ⟨"."⟩ := by
  induction segments with
  | nil => exact hfound
  | cons segment rest ih =>
    by_cases hcurrent : segment = .literal "."
    · subst hcurrent
      rw [List.dropWhile_cons, if_pos (beq_self_eq_true _)]
      rw [expandFrom] at hfound
      obtain ⟨next, hnext, hfound⟩ := List.mem_flatMap.mp hfound
      have hstay : next = ⟨"."⟩ := eq_below_of_mem_expandLiteral hnext
      rw [hstay] at hfound
      exact ih hfound
    · rw [List.dropWhile_cons, if_neg (by rwa [beq_iff_eq])]
      exact hfound

section

variable (hproper : tree.root.isProper)

include hproper

theorem isProper_of_entry {path : Path} {entry : FileEntry} (h : tree.entry? path = some entry) :
    entry.isProper := by
  obtain ⟨location, -, hentry⟩ := Option.bind_eq_some_iff.mp h
  exact FileEntry.isProper_of_descend? hproper hentry

theorem spelledDown_of_mem_allBelow (hpath : path = origin absolute ∨ SpelledDown absolute path)
    {found : Path} {name : String} {below : FileEntry}
    (hmem : (found, name, below) ∈ tree.allBelow path) : SpelledDown absolute found := by
  rw [allBelow] at hmem
  cases hentry : tree.entry? path with
  | none =>
    rw [hentry] at hmem
    cases hmem
  | some entry =>
    rw [hentry] at hmem
    exact spelledDown_of_mem_descendants hpath (isProper_of_entry hproper hentry) hmem

theorem isName_of_mem_list {name : String} {entry : FileEntry}
    (hmem : (name, entry) ∈ tree.list path) : Path.isName name := by
  rw [list] at hmem
  cases hentry : tree.entry? path with
  | none =>
    rw [hentry] at hmem
    cases hmem
  | some directory =>
    have hdirectory := isProper_of_entry hproper hentry
    rw [hentry] at hmem
    cases directory with
    | file content => cases hmem
    | directory entries =>
      rw [FileEntry.isProper, Bool.and_eq_true] at hdirectory
      exact (FileEntry.areProper_iff.mp hdirectory.2 name entry hmem).1

theorem spelledDown_of_mem_expandWildcard
    (hpath : path = origin absolute ∨ SpelledDown absolute path) {glob : Glob}
    (hglob : (GlobSegment.wildcard glob).leadsDown) {found : Path}
    (hfound : found ∈ tree.expandWildcard glob path) : SpelledDown absolute found := by
  have hdots : (glob.tokens.head? == some (.char '.')) = false := by
    rwa [GlobSegment.leadsDown, bne, Bool.not_eq_true'] at hglob
  rw [expandWildcard, hdots] at hfound
  split at hfound
  · simp only [Bool.false_eq_true, if_false, List.map_nil, List.append_nil] at hfound
    obtain ⟨name, hname, rfl⟩ := List.mem_map.mp hfound
    obtain ⟨⟨known, entry⟩, hentry, rfl⟩ := List.mem_map.mp (List.mem_filter.mp hname).1
    exact spelledDown_below hpath (isName_of_mem_list hproper hentry)
  · cases hfound

/-- The paths of components that lead down from a start, or from a path made of names, are made of
names. -/
theorem spelledDown_of_mem_expandFrom {found : Path} :
    ∀ {segments : List GlobSegment} {path : Path}, (∀ segment ∈ segments, segment.leadsDown) →
      path = origin absolute ∧ segments ≠ [] ∨ SpelledDown absolute path →
      found ∈ tree.expandFrom segments path → SpelledDown absolute found
  | [], path, _, hpath, hfound => by
    rw [expandFrom, List.mem_singleton] at hfound
    rw [hfound]
    exact hpath.resolve_left fun hnone => hnone.2 rfl
  | .literal name :: rest, path, hsegments, hpath, hfound => by
    obtain ⟨hname, hrest⟩ := List.forall_mem_cons.mp hsegments
    rw [expandFrom] at hfound
    obtain ⟨next, hnext, hfound⟩ := List.mem_flatMap.mp hfound
    have hdown := spelledDown_of_mem_expandLiteral (hpath.imp_left And.left) hname hnext
    exact spelledDown_of_mem_expandFrom hrest (.inr hdown) hfound
  | .wildcard glob :: rest, path, hsegments, hpath, hfound => by
    obtain ⟨hglob, hrest⟩ := List.forall_mem_cons.mp hsegments
    rw [expandFrom] at hfound
    obtain ⟨next, hnext, hfound⟩ := List.mem_flatMap.mp hfound
    have hdown :=
      spelledDown_of_mem_expandWildcard hproper (hpath.imp_left And.left) hglob hnext
    exact spelledDown_of_mem_expandFrom hrest (.inr hdown) hfound
  | [.recursive], path, _, hpath, hfound => by
    rw [expandFrom] at hfound
    obtain ⟨⟨_, name, entry⟩, hbelow, rfl⟩ := List.mem_map.mp hfound
    exact spelledDown_of_mem_allBelow hproper (hpath.imp_left And.left)
      (List.mem_filter.mp hbelow).1
  | .recursive :: next :: rest, path, hsegments, hpath, hfound => by
    obtain ⟨-, hsegments⟩ := List.forall_mem_cons.mp hsegments
    obtain ⟨-, hrest⟩ := List.forall_mem_cons.mp hsegments
    rw [expandFrom] at hfound
    obtain ⟨⟨below, name, entry⟩, hbelow, hfound⟩ := List.mem_flatMap.mp hfound
    have hdown := spelledDown_of_mem_allBelow hproper (hpath.imp_left And.left)
      (List.mem_filter.mp hbelow).1
    exact spelledDown_of_mem_expandFrom hrest (.inr hdown) hfound

/-- The paths of a pattern that leads down are made of names. -/
theorem spelledDown_of_mem_expand {pattern : Path} (hpattern : pattern.expandsDown)
    {paths : List Path} (hpaths : tree.expand pattern = .ok paths) {found : Path}
    (hfound : found ∈ paths) : SpelledDown pattern.isAbsolute found := by
  rw [Path.expandsDown] at hpattern
  rw [expand] at hpaths
  cases hsegments : GlobSegment.ofPattern pattern with
  | error fault =>
    rw [hsegments] at hpaths
    cases hpaths
  | ok segments =>
    rw [hsegments] at hpaths hpattern
    simp only [Bool.and_eq_true, Bool.not_eq_true', List.isEmpty_eq_false_iff,
      List.all_eq_true] at hpattern
    obtain rfl := Except.ok.inj hpaths
    cases habsolute : pattern.isAbsolute with
    | true =>
      rw [habsolute] at hpattern hfound
      exact spelledDown_of_mem_expandFrom hproper hpattern.2 (.inl ⟨rfl, hpattern.1⟩) hfound
    | false =>
      rw [habsolute] at hpattern hfound
      exact spelledDown_of_mem_expandFrom hproper hpattern.2 (.inl ⟨rfl, hpattern.1⟩)
        (mem_expandFrom_dropWhile hfound)

end

end FileTree

end LogCensus
