import LogCensus.Proofs.FileTree.Mount

/-!
# Patterns below mounted directories

A pattern that does not lead up finds the same below every mount of a directory, by paths that have
the same names below the base.

* `Mount.Twins`: paths at the same place below two mounts.
* `Mount.Twins.exists_mem_expandFrom`: what a pattern finds from a path, it finds from its twin.
-/

namespace LogCensus

namespace Mount

variable {entries : List (String × FileEntry)}

/-- A path may be followed by components: none of them is empty as long as the path is written as
the current directory, since an empty component would then leave the empty path. -/
def Calm (segments : List GlobSegment) (path : Path) : Prop :=
  path.isCurrent → .literal "" ∉ segments

/-- Paths at the same place below two mounts, which the same components may follow. -/
structure Twins (here there : Mount entries) (exact : Prop) (segments : List GlobSegment)
    (path path' : Path) : Prop where
  placed : ∃ way, Placed here exact way path ∧ Placed there exact way path'
  calm : Calm segments path
  calm' : Calm segments path'

end Mount

/-- Whether a component of a pattern stays where it is or leads down. -/
def GlobSegment.staysBelow : GlobSegment → Bool
  | .literal name => name != ".." && !name.toList.contains '/'
  | .wildcard glob => !(glob.tokens.head? == some (.char '.') && glob.accepts "..")
  | .recursive => true

namespace Mount

variable {entries : List (String × FileEntry)} {segments : List GlobSegment}

theorem Calm.nil (path : Path) : Calm [] path := fun _ => List.not_mem_nil

theorem Calm.mono {path path' : Path} {others : List GlobSegment} (h : Calm segments path)
    (hpath : path'.isCurrent → path.isCurrent) (hsubset : others ⊆ segments) :
    Calm others path' :=
  fun hcurrent hmem => h (hpath hcurrent) (hsubset hmem)

section

variable {here there : Mount entries} {exact : Prop} {path path' : Path}

namespace Twins

variable (hhere : exact → here.base.pieces.head? ≠ some ".")
variable (hthere : exact → there.base.pieces.head? ≠ some ".")

include hhere hthere

theorem literal {name : String} {rest : List GlobSegment}
    (h : Twins here there exact (.literal name :: rest) path path')
    (hname : (GlobSegment.literal name).staysBelow) {next : Path}
    (hnext : next ∈ here.tree.expandLiteral name path) :
    ∃ next' ∈ there.tree.expandLiteral name path', Twins here there exact rest next next' := by
  obtain ⟨way, hpath, hpath'⟩ := h.placed
  simp only [GlobSegment.staysBelow, Bool.and_eq_true, bne_iff_ne, Bool.not_eq_true',
    List.contains_eq_mem, decide_eq_false_iff_not] at hname
  obtain ⟨hparent, hslash⟩ := hname
  have hne {path : Path} (hcalm : Calm (.literal name :: rest) path) :
      path.isCurrent → name ≠ "" := by
    rintro hcurrent rfl
    exact hcalm hcurrent List.mem_cons_self
  obtain ⟨rfl, hfollow⟩ := (hpath.mem_expandLiteral_iff hparent hslash (hne h.calm)).mp hnext
  obtain ⟨way', hway'⟩ := Option.isSome_iff_exists.mp hfollow
  refine ⟨FileTree.below path' name,
    (hpath'.mem_expandLiteral_iff hparent hslash (hne h.calm')).mpr ⟨rfl, hfollow⟩, ?_⟩
  exact {
    placed := ⟨way', hpath.below hparent hslash (hne h.calm) hhere hway',
      hpath'.below hparent hslash (hne h.calm') hthere hway'⟩
    calm := h.calm.mono (FileTree.isCurrent_of_below hpath.ne_empty hslash)
      (List.subset_cons_self _ _)
    calm' := h.calm'.mono (FileTree.isCurrent_of_below hpath'.ne_empty hslash)
      (List.subset_cons_self _ _) }

/-- Entries below twins, by the same names, are twins. -/
theorem descend {names : List String} {last : FileEntry} {way : List String}
    (hpath : Placed here exact way path) (hpath' : Placed there exact way path')
    (hnames : ∀ name ∈ names, Path.isName name) (hne : names ≠ [])
    (hlast : (inner entries).root.descend? (way ++ names) = some last) :
    Twins here there exact segments (FileTree.belowAll path names)
      (FileTree.belowAll path' names) := by
  have hplaced := hpath.belowAll hnames hhere (Option.isSome_of_eq_some hlast)
  have hplaced' := hpath'.belowAll hnames hthere (Option.isSome_of_eq_some hlast)
  -- a path below the base is not written as the current directory
  have hway : way ++ names ≠ [] := fun hnil => hne (List.append_eq_nil_iff.mp hnil).2
  exact {
    placed := ⟨way ++ names, hplaced, hplaced'⟩
    calm := fun hcurrent => absurd (hplaced.of_isCurrent hcurrent hhere).1 hway
    calm' := fun hcurrent => absurd (hplaced'.of_isCurrent hcurrent hthere).1 hway }

theorem wildcard {glob : Glob} {rest : List GlobSegment}
    (h : Twins here there exact (.wildcard glob :: rest) path path')
    (hglob : (GlobSegment.wildcard glob).staysBelow) {next : Path}
    (hnext : next ∈ here.tree.expandWildcard glob path) :
    ∃ next' ∈ there.tree.expandWildcard glob path', Twins here there exact rest next next' := by
  obtain ⟨way, hpath, hpath'⟩ := h.placed
  obtain ⟨content, hcontent, hnext⟩ := hpath.mem_expandWildcard_iff.mp hnext
  rcases hnext with ⟨name, last, hlast, haccepts, rfl⟩ | ⟨dots, hdots, hstart, haccepts, rfl⟩
  · have hproper := FileEntry.isProper_of_descend? here.inner_isProper hcontent
    rw [FileEntry.isProper, Bool.and_eq_true, decide_eq_true_eq] at hproper
    have hbelow : (inner entries).root.descend? (way ++ [name]) = some last := by
      rw [FileEntry.descend?_append, hcontent, Option.bind_some, FileEntry.descend?_cons,
        FileEntry.child?, FileEntry.entries, FileEntry.lookup_of_mem hproper.1 hlast]
      rfl
    have hname := (FileEntry.areProper_iff.mp hproper.2 _ _ hlast).1
    exact ⟨FileTree.below path' name,
      hpath'.mem_expandWildcard_iff.mpr
        ⟨content, hcontent, .inl ⟨name, last, hlast, haccepts, rfl⟩⟩,
      descend hhere hthere hpath hpath' (List.forall_mem_singleton.mpr hname)
        (List.cons_ne_nil _ _) hbelow⟩
  · -- of the two dots, the component accepts only the one that stays
    have hcurrent : dots = "." := by
      rcases List.mem_cons.mp hdots with heq | hmem
      · exact heq
      · rw [List.mem_singleton.mp hmem] at haccepts
        rw [GlobSegment.staysBelow, hstart, haccepts] at hglob
        cases hglob
    subst hcurrent
    have hfollow : (Path.pieces ⟨"."⟩).foldlM (inner entries).follow? way = some way := by
      have hpieces : Path.pieces ⟨"."⟩ = ["."] := by decide
      rw [hpieces, List.foldlM_cons, FileTree.follow?, hcontent]
      rfl
    refine ⟨path'.join ".",
      hpath'.mem_expandWildcard_iff.mpr
        ⟨content, hcontent, .inr ⟨".", hdots, hstart, haccepts, rfl⟩⟩, ?_⟩
    exact {
      placed := ⟨way, hpath.join rfl (by decide) hfollow, hpath'.join rfl (by decide) hfollow⟩
      calm := h.calm.mono (FileTree.isCurrent_of_join hpath.ne_empty rfl)
        (List.subset_cons_self _ _)
      calm' := h.calm'.mono (FileTree.isCurrent_of_join hpath'.ne_empty rfl)
        (List.subset_cons_self _ _) }

theorem allBelow (h : Twins here there exact segments path path') (rest : List GlobSegment)
    {found : Path} {name : String} {last : FileEntry}
    (hfound : (found, name, last) ∈ here.tree.allBelow path) :
    ∃ found', (found', name, last) ∈ there.tree.allBelow path' ∧
      Twins here there exact rest found found' := by
  obtain ⟨way, hpath, hpath'⟩ := h.placed
  have hsame : there.tree.entry? path' = here.tree.entry? path := by
    rw [hpath.entry?_eq, hpath'.entry?_eq]
  rw [FileTree.allBelow] at hfound ⊢
  rw [hsame]
  cases hentry : here.tree.entry? path with
  | none =>
    rw [hentry] at hfound
    cases hfound
  | some entry =>
    rw [hentry, Option.elim_some] at hfound
    obtain ⟨front, hnames, hlast, rfl⟩ := FileTree.exists_of_mem_descendants
      (FileTree.isProper_of_entry here.proper hentry) hfound
    refine ⟨FileTree.belowAll path' (front ++ [name]),
      FileTree.mem_descendants_of_descend? hlast, ?_⟩
    have hinner : (inner entries).root.descend? (way ++ (front ++ [name])) = some last := by
      rw [FileEntry.descend?_append, ← hpath.entry?_eq, hentry]
      exact hlast
    exact descend hhere hthere hpath hpath' hnames (by simp) hinner

/-- What a pattern finds from a path that leads below a mount, it finds from its twin. -/
theorem exists_mem_expandFrom {found : Path} :
    ∀ {segments : List GlobSegment} {path path' : Path},
      (∀ segment ∈ segments, segment.staysBelow) → Twins here there exact segments path path' →
      found ∈ here.tree.expandFrom segments path →
      ∃ found' ∈ there.tree.expandFrom segments path', Twins here there exact [] found found'
  | [], path, path', _, h, hfound => by
    rw [FileTree.expandFrom, List.mem_singleton] at hfound
    subst hfound
    exact ⟨path', List.mem_singleton_self _, h⟩
  | .literal name :: rest, path, path', hsegments, h, hfound => by
    obtain ⟨hname, hrest⟩ := List.forall_mem_cons.mp hsegments
    rw [FileTree.expandFrom] at hfound ⊢
    obtain ⟨next, hnext, hfound⟩ := List.mem_flatMap.mp hfound
    obtain ⟨next', hnext', htwins⟩ := h.literal hhere hthere hname hnext
    obtain ⟨found', hfound', hlast⟩ := exists_mem_expandFrom hrest htwins hfound
    exact ⟨found', List.mem_flatMap.mpr ⟨next', hnext', hfound'⟩, hlast⟩
  | .wildcard glob :: rest, path, path', hsegments, h, hfound => by
    obtain ⟨hglob, hrest⟩ := List.forall_mem_cons.mp hsegments
    rw [FileTree.expandFrom] at hfound ⊢
    obtain ⟨next, hnext, hfound⟩ := List.mem_flatMap.mp hfound
    obtain ⟨next', hnext', htwins⟩ := h.wildcard hhere hthere hglob hnext
    obtain ⟨found', hfound', hlast⟩ := exists_mem_expandFrom hrest htwins hfound
    exact ⟨found', List.mem_flatMap.mpr ⟨next', hnext', hfound'⟩, hlast⟩
  | [.recursive], path, path', _, h, hfound => by
    rw [FileTree.expandFrom] at hfound ⊢
    obtain ⟨⟨_, name, last⟩, hbelow, rfl⟩ := List.mem_map.mp hfound
    obtain ⟨hbelow, hdirectory⟩ := List.mem_filter.mp hbelow
    obtain ⟨found', hfound', htwins⟩ := h.allBelow hhere hthere [] hbelow
    exact ⟨found', List.mem_map.mpr ⟨_, List.mem_filter.mpr ⟨hfound', hdirectory⟩, rfl⟩, htwins⟩
  | .recursive :: next :: rest, path, path', hsegments, h, hfound => by
    obtain ⟨-, hsegments⟩ := List.forall_mem_cons.mp hsegments
    obtain ⟨-, hrest⟩ := List.forall_mem_cons.mp hsegments
    rw [FileTree.expandFrom] at hfound ⊢
    obtain ⟨⟨below, name, last⟩, hbelow, hfound⟩ := List.mem_flatMap.mp hfound
    obtain ⟨hbelow, haccepts⟩ := List.mem_filter.mp hbelow
    obtain ⟨below', hbelow', htwins⟩ := h.allBelow hhere hthere rest hbelow
    obtain ⟨found', hfound', hlast⟩ := exists_mem_expandFrom hrest htwins hfound
    exact ⟨found', List.mem_flatMap.mpr
      ⟨(below', name, last), List.mem_filter.mpr ⟨hbelow', haccepts⟩, hfound'⟩, hlast⟩

end Twins

end

end Mount

end LogCensus
