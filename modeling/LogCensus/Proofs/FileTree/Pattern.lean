import LogCensus.Proofs.FileTree.Expand
import LogCensus.Proofs.Glob.Reading

/-!
# Patterns in front and below

A pattern below a base is read as one text, so the text of the base is read as a part of the
pattern. When all its characters are ordinary, its pieces are literal components in front of those
of the pattern, and they are expanded to one path.

* `GlobSegment.ofPattern_join`: the components of a pattern joined to an ordinary base.
* `FileTree.exists_of_mem_descendants`, `FileTree.mem_descendants_of_descend?`: everything below a
  directory, by the names on the way.
* `FileTree.exists_expandFrom_literals`: where a run of literal components leads.
-/

namespace LogCensus

/-- Whether all characters of a path stand for themselves in a pattern. -/
def Path.isOrdinary (path : Path) : Bool :=
  path.text.toList.all Glob.isOrdinary

namespace Path

/-- The characters of the pieces are those of the path. -/
theorem mem_of_mem_splitSlashes {chars piece : List Char} (hpiece : piece ∈ splitSlashes chars)
    {c : Char} (hc : c ∈ piece) : c ∈ chars := by
  induction chars generalizing piece with
  | nil =>
    rw [splitSlashes, List.mem_singleton] at hpiece
    rwa [hpiece] at hc
  | cons first rest ih =>
    rw [splitSlashes] at hpiece
    split at hpiece
    · rcases List.mem_cons.mp hpiece with rfl | hpiece
      · cases hc
      · exact List.mem_cons_of_mem first (ih hpiece hc)
    · cases hrest : splitSlashes rest with
      | nil => exact absurd hrest (splitSlashes_ne_nil rest)
      | cons head others =>
        rw [hrest] at hpiece ih
        rcases List.mem_cons.mp hpiece with rfl | hpiece
        · rcases List.mem_cons.mp hc with rfl | hc
          · exact List.mem_cons_self
          · exact List.mem_cons_of_mem first (ih List.mem_cons_self hc)
        · exact List.mem_cons_of_mem first (ih (List.mem_cons_of_mem head hpiece) hc)

theorem isOrdinary_of_mem_pieces {path : Path} (h : path.isOrdinary) {piece : String}
    (hpiece : piece ∈ path.pieces) : ∀ c ∈ piece.toList, Glob.isOrdinary c := by
  obtain ⟨chars, hchars, rfl⟩ := List.mem_map.mp hpiece
  rw [String.toList_ofList]
  intro c hc
  exact List.all_eq_true.mp h c (mem_of_mem_splitSlashes hchars hc)

/-- What stands in front of a joined text is ordinary, and a component may start after it. -/
theorem isOrdinary_lead {path : Path} (h : path.isOrdinary) :
    (∀ c ∈ path.lead.toList, Glob.isOrdinary c) ∧
      (path.lead = "" ∨ path.lead.toList.getLast? = some '/') := by
  have hpath := List.all_eq_true.mp h
  rcases lead_cases path with ⟨-, hlead⟩ | ⟨front, hfront, hlead⟩ | ⟨-, hlead⟩
  · rw [hlead]
    exact ⟨nofun, .inl rfl⟩
  · rw [hlead, ← hfront]
    exact ⟨hpath, .inr (beq_iff_eq.mp (endsInSlash_iff.mpr ⟨front, hfront⟩))⟩
  · have hslash : (path.text ++ "/").toList = path.text.toList ++ ['/'] := by
      rw [String.toList_append]
      rfl
    rw [hlead, hslash, List.getLast?_concat]
    refine ⟨List.forall_mem_append.mpr ⟨hpath, ?_⟩, .inr rfl⟩
    exact List.forall_mem_singleton.mpr (by decide)

end Path

namespace GlobSegment

/-! ## Texts of components -/

theorem texts_of_isAbsolute {path : Path} (h : path.isAbsolute) : texts path = path.steps.tail := by
  obtain ⟨second, others, hpieces⟩ := Path.exists_of_isAbsolute h
  rw [texts, if_pos h, Path.steps, hpieces, List.tail_cons, List.getLast?_cons_cons]
  simp only [beq_iff_eq]
  split
  · rw [List.dropLast_cons_cons, List.tail_cons]
  · rw [List.tail_cons]

theorem texts_of_isRelative {path : Path} (h : path.isAbsolute = false) :
    texts path = path.steps := by
  rw [texts, h, Path.steps]
  simp only [Bool.false_eq_true, if_false, beq_iff_eq]

/-- The components of a joined pattern come after those of its base. -/
theorem texts_join (base : Path) {below : String} (hrelative : Path.isAbsolute ⟨below⟩ = false) :
    texts (base.join below) = texts base ++ texts ⟨below⟩ := by
  have hjoin := base.isAbsolute_join hrelative
  rw [texts_of_isRelative hrelative]
  cases habsolute : base.isAbsolute with
  | true =>
    have hne : base.steps ≠ [] := by
      obtain ⟨rest, hrest⟩ := Path.exists_steps_of_isAbsolute habsolute
      rw [hrest]
      exact List.cons_ne_nil _ _
    rw [texts_of_isAbsolute (hjoin.trans habsolute), texts_of_isAbsolute habsolute,
      base.steps_join hrelative, List.tail_append_of_ne_nil hne]
  | false =>
    rw [texts_of_isRelative (hjoin.trans habsolute), texts_of_isRelative habsolute,
      base.steps_join hrelative]

theorem texts_subset (path : Path) : texts path ⊆ path.pieces := by
  have hsteps : path.steps ⊆ path.pieces := by
    rw [Path.steps]
    split
    · exact List.dropLast_subset _
    · exact List.Subset.refl _
  cases habsolute : path.isAbsolute with
  | true =>
    rw [texts_of_isAbsolute habsolute]
    exact fun text htext => hsteps (List.mem_of_mem_tail htext)
  | false => rwa [texts_of_isRelative habsolute]

theorem filter_texts (path : Path) :
    (texts path).filter Path.isSignificant = path.pieces.filter Path.isSignificant := by
  have hempty : [""].filter Path.isSignificant = [] := by decide
  have hsteps : path.steps.filter Path.isSignificant = path.pieces.filter Path.isSignificant := by
    rcases path.steps_cases with hpieces | hpieces
    · rw [hpieces]
    · rw [hpieces, List.filter_append, hempty, List.append_nil]
  cases habsolute : path.isAbsolute with
  | false => rw [texts_of_isRelative habsolute, hsteps]
  | true =>
    obtain ⟨rest, hrest⟩ := Path.exists_steps_of_isAbsolute habsolute
    rw [texts_of_isAbsolute habsolute, ← hsteps, hrest, List.tail_cons,
      List.filter_cons_of_neg (by decide)]

/-! ## Reading components -/

theorem parse_ordinary {text : String} (htext : ∀ c ∈ text.toList, Glob.isOrdinary c) :
    parse text = .ok (.literal text) := by
  have hliteral : Glob.literal? ⟨text.toList.map .char⟩ = some text := by
    have hchars : ∀ chars : List Char,
        Glob.literal? ⟨chars.map .char⟩ = some (String.ofList chars) := by
      intro chars
      rw [Glob.literal?, Option.map_eq_some_iff]
      refine ⟨chars, ?_, rfl⟩
      induction chars with
      | nil => rfl
      | cons c chars ih =>
        rw [List.map_cons, List.mapM_cons, ih]
        rfl
    rw [hchars, String.ofList_toList]
  have hrecursive : Glob.isRecursive ⟨text.toList.map .char⟩ = false := by
    rw [Glob.isRecursive, List.contains_eq_mem, decide_eq_false_iff_not]
    intro hmem
    obtain ⟨c, -, hc⟩ := List.mem_map.mp hmem
    cases hc
  rw [parse, Glob.parse_ordinary htext]
  show (if _ then _ else _) = _
  rw [hrecursive, hliteral]
  rfl

theorem mapM_parse_ordinary {texts : List String}
    (htexts : ∀ text ∈ texts, ∀ c ∈ text.toList, Glob.isOrdinary c) (others : List String) :
    (texts ++ others).mapM parse =
      (others.mapM parse).map (texts.map .literal ++ ·) := by
  induction texts with
  | nil =>
    cases hothers : others.mapM parse with
    | error fault => exact hothers
    | ok segments => exact hothers
  | cons text texts ih =>
    obtain ⟨htext, htexts⟩ := List.forall_mem_cons.mp htexts
    rw [List.cons_append, List.mapM_cons, parse_ordinary htext, ih htexts]
    cases others.mapM parse with
    | error fault => rfl
    | ok segments => rfl

/-- Literal components stay in front of the others. -/
theorem collapse_append_literals (names : List String) (segments : List GlobSegment) :
    collapse (names.map .literal ++ segments) = names.map .literal ++ collapse segments := by
  induction names with
  | nil => rfl
  | cons name names ih =>
    rw [List.map_cons, List.cons_append, collapse, ih, List.cons_append]
    exact nofun

/-- The components of a pattern joined to an ordinary base: the pieces of the base, and the
components of the pattern. It is malformed when the pattern is. -/
theorem ofPattern_join {base : Path} (hbase : base.isOrdinary) {below : String}
    (hrelative : Path.isAbsolute ⟨below⟩ = false) :
    (ofPattern (base.join below)).toOption =
      (ofPattern ⟨below⟩).toOption.map ((texts base).map .literal ++ ·) := by
  have hbind (path : Path) : (ofPattern path).toOption =
      if (Glob.parse path.text).isOk then ((texts path).mapM parse).toOption.map collapse
      else none := by
    rw [ofPattern]
    cases Glob.parse path.text with
    | error fault => rfl
    | ok glob =>
      cases (texts path).mapM parse with
      | error fault => rfl
      | ok segments => rfl
  obtain ⟨hlead, hslash⟩ := Path.isOrdinary_lead hbase
  have htexts : ∀ text ∈ texts base, ∀ c ∈ text.toList, Glob.isOrdinary c :=
    fun text htext => Path.isOrdinary_of_mem_pieces hbase (texts_subset base htext)
  have hok : (Glob.parse (base.join below).text).isOk = (Glob.parse below).isOk := by
    rw [Path.join_eq base hrelative]
    exact Glob.isOk_parse_append hlead hslash below
  rw [hbind, hbind, hok, texts_join base hrelative, mapM_parse_ordinary htexts]
  split
  · cases (texts ⟨below⟩).mapM parse with
    | error fault => rfl
    | ok segments => exact congrArg some (collapse_append_literals (texts base) segments)
  · rfl

end GlobSegment

namespace FileTree

/-! ## Everything below a directory -/

/-- A path with names added one after the other, as in the paths of patterns. -/
def belowAll (path : Path) (names : List String) : Path :=
  names.foldl below path

theorem mem_descendantsOf_iff {path : Path} {entries : List (String × FileEntry)}
    {found : Path × String × FileEntry} :
    found ∈ descendantsOf path entries ↔ ∃ name entry, (name, entry) ∈ entries ∧
      (found = (below path name, name, entry) ∨ found ∈ descendants (below path name) entry) := by
  induction entries with
  | nil => simp [descendantsOf]
  | cons head rest ih =>
    obtain ⟨known, below⟩ := head
    rw [descendantsOf, List.mem_append, List.mem_cons, ih]
    constructor
    · rintro (hhead | ⟨name, entry, hentry, hfound⟩)
      · exact ⟨known, below, List.mem_cons_self, hhead⟩
      · exact ⟨name, entry, List.mem_cons_of_mem _ hentry, hfound⟩
    · rintro ⟨name, entry, hentry, hfound⟩
      rcases List.mem_cons.mp hentry with heq | hrest
      · cases heq
        exact .inl hfound
      · exact .inr ⟨name, entry, hrest, hfound⟩

/-- What is below an entry is there by the names on the way. -/
theorem exists_of_mem_descendants {path found : Path} {name : String} {entry last : FileEntry}
    (hproper : entry.isProper) (hmem : (found, name, last) ∈ descendants path entry) :
    ∃ front, (∀ step ∈ front ++ [name], Path.isName step) ∧
      entry.descend? (front ++ [name]) = some last ∧ found = belowAll path (front ++ [name]) := by
  match entry with
  | .file content => cases hmem
  | .directory entries =>
    rw [FileEntry.isProper, Bool.and_eq_true, decide_eq_true_eq] at hproper
    obtain ⟨first, below, hbelow, hfound⟩ := mem_descendantsOf_iff.mp hmem
    have hlookup := FileEntry.lookup_of_mem hproper.1 hbelow
    obtain ⟨hfirst, hbelowProper⟩ := FileEntry.areProper_iff.mp hproper.2 first below hbelow
    have hdescend (names : List String) :
        (FileEntry.directory entries).descend? (first :: names) = below.descend? names := by
      rw [FileEntry.descend?_cons, FileEntry.child?, FileEntry.entries, hlookup, Option.bind_some]
    rcases hfound with heq | hmem
    · cases heq
      exact ⟨[], List.forall_mem_singleton.mpr hfirst, hdescend [], rfl⟩
    · obtain ⟨front, hfront, hlast, heq⟩ := exists_of_mem_descendants hbelowProper hmem
      exact ⟨first :: front, List.forall_mem_cons.mpr ⟨hfirst, hfront⟩,
        (hdescend (front ++ [name])).trans hlast, heq⟩
termination_by sizeOf entry
decreasing_by
  have hsize := List.sizeOf_lt_of_mem hbelow
  simp only [Prod.mk.sizeOf_spec] at hsize
  simp only [FileEntry.directory.sizeOf_spec]
  omega

/-- Everything below an entry is found. -/
theorem mem_descendants_of_descend? {path : Path} {name : String} {front : List String}
    {entry last : FileEntry} (h : entry.descend? (front ++ [name]) = some last) :
    (belowAll path (front ++ [name]), name, last) ∈ descendants path entry := by
  induction front generalizing path entry with
  | nil =>
    cases entry with
    | file content => cases h
    | directory entries =>
      rw [List.nil_append, FileEntry.descend?_cons] at h
      obtain ⟨below, hbelow, hlast⟩ := Option.bind_eq_some_iff.mp h
      cases hlast
      exact mem_descendantsOf_iff.mpr ⟨name, last, FileEntry.mem_of_lookup hbelow, .inl rfl⟩
  | cons first front ih =>
    cases entry with
    | file content => cases h
    | directory entries =>
      rw [List.cons_append, FileEntry.descend?_cons] at h
      obtain ⟨below, hbelow, hlast⟩ := Option.bind_eq_some_iff.mp h
      exact mem_descendantsOf_iff.mpr
        ⟨first, below, FileEntry.mem_of_lookup hbelow, .inr (ih hlast)⟩

/-! ## Literal components -/

variable {tree : FileTree} {path : Path} {location : List String}

theorem locate?_of_isCurrent (hpath : tree.locate? path = some location)
    (hcurrent : path.isCurrent) :
    location = tree.current := by
  obtain ⟨hrelative, hpieces⟩ := Path.pieces_of_isCurrent hcurrent
  have hstay := foldlM_filter_of_foldlM (locate?_eq_some_iff.mp hpath).2
  rw [hpieces, start, hrelative] at hstay
  exact (Option.some.inj hstay).symm

/-- Where one more piece leads from a path that leads somewhere. -/
theorem locate?_below (hpath : tree.locate? path = some location) {piece : String}
    (hslash : '/' ∉ piece.toList) (hcalm : path.isCurrent → piece ≠ "") :
    tree.locate? (below path piece) = tree.follow? location piece := by
  have hrelative := Path.isAbsolute_of_slash_not_mem hslash
  have hpieces : Path.pieces ⟨piece⟩ = [piece] := Path.pieces_of_not_mem hslash
  have hfold (start : List String) :
      [piece].foldlM tree.follow? start = tree.follow? start piece := by
    simp only [List.foldlM_cons, List.foldlM_nil, Option.bind_eq_bind, Option.pure_def,
      Option.bind_fun_some]
  rw [below]
  split
  · next hcurrent =>
    rw [locate?, String.isEmpty_eq_false_iff.mpr (hcalm hcurrent), hpieces, start, hrelative,
      locate?_of_isCurrent hpath hcurrent]
    exact hfold _
  · rw [locate?_join hpath hrelative, hpieces, hfold]

/-- A literal component leads to one path when its name can be followed. -/
theorem expandLiteral_eq (hpath : tree.locate? path = some location) {name : String}
    (hslash : '/' ∉ name.toList) (hcalm : path.isCurrent → name ≠ "") :
    tree.expandLiteral name path =
      if (tree.follow? location name).isSome then [below path name] else [] := by
  rw [expandLiteral]
  split
  · next hdots =>
    -- `.` and `..` can be followed from every directory, and from nothing else
    have hdirectory : tree.isDirectory path = (tree.follow? location name).isSome := by
      rw [isDirectory, entry?, hpath, Option.bind_eq_bind, Option.bind_some, follow?]
      cases tree.root.descend? location with
      | none => rfl
      | some entry =>
        cases entry with
        | file content => rfl
        | directory entries =>
          rw [Bool.or_eq_true, beq_iff_eq, beq_iff_eq] at hdots
          rcases hdots with rfl | rfl
          · rfl
          · rfl
    rw [hdirectory]
  · have hcontains : tree.contains (below path name) = (tree.follow? location name).isSome := by
      rw [contains, entry?, locate?_below hpath hslash hcalm]
      cases hfollow : tree.follow? location name with
      | none => rfl
      | some found => exact isSome_descend?_of_follow? hfollow
    rw [hcontains]

theorem isCurrent_of_join (hpath : path.text ≠ "") {below : String}
    (hrelative : Path.isAbsolute ⟨below⟩ = false) (h : (path.join below).isCurrent) :
    path.isCurrent := by
  rw [Path.isCurrent, beq_iff_eq, Path.components_join hpath hrelative] at h
  rw [Path.isCurrent, beq_iff_eq]
  rcases List.append_eq_singleton_iff.mp h with ⟨hnil, -⟩ | ⟨hcurrent, -⟩
  · exact absurd hnil (Path.components_ne_nil hpath)
  · exact hcurrent

theorem isCurrent_of_below (hpath : path.text ≠ "") {name : String} (hslash : '/' ∉ name.toList)
    (h : (below path name).isCurrent) : path.isCurrent := by
  rw [below] at h
  split at h
  · assumption
  · exact isCurrent_of_join hpath (Path.isAbsolute_of_slash_not_mem hslash) h

/-- A piece below a path adds its component at most. -/
theorem components_below_subset (hpath : path.text ≠ "") {name : String}
    (hslash : '/' ∉ name.toList) :
    (below path name).components ⊆
      path.components ++ ([name].filter Path.isSignificant).map Path.component := by
  have hrelative := Path.isAbsolute_of_slash_not_mem hslash
  have hpieces : Path.pieces ⟨name⟩ = [name] := Path.pieces_of_not_mem hslash
  rw [below]
  split
  · next hcurrent =>
    rw [Path.isCurrent, beq_iff_eq] at hcurrent
    by_cases hdot : name = "."
    · subst hdot
      rw [hcurrent]
      exact List.subset_append_left _ _
    · have hhead : (Path.mk name).pieces.head? ≠ some "." := by
        rw [hpieces]
        exact fun heq => hdot (Option.some.inj heq)
      rw [Path.components_eq hhead, hpieces, hrelative]
      exact List.subset_append_right _ _
  · rw [Path.components_join hpath hrelative, hpieces]
    exact List.Subset.refl _

/-- Literal components whose names can be followed lead to one path, with those names at its end. -/
theorem exists_expandFrom_literals {names : List String} {found : List String}
    (hslash : ∀ name ∈ names, '/' ∉ name.toList) (hpath : tree.locate? path = some location)
    (hcalm : path.isCurrent → "" ∉ names)
    (hnames : names.foldlM tree.follow? location = some found) :
    ∃ next, tree.locate? next = some found ∧
      (next.components ⊆ path.components ++ (names.filter Path.isSignificant).map Path.component) ∧
      (¬ path.isCurrent → next.components =
        path.components ++ (names.filter Path.isSignificant).map Path.component) ∧
      ∀ rest, tree.expandFrom (names.map .literal ++ rest) path = tree.expandFrom rest next := by
  induction names generalizing path location with
  | nil =>
    obtain rfl := Option.some.inj hnames
    exact ⟨path, hpath, List.subset_append_left _ _, fun _ => (List.append_nil _).symm,
      fun _ => rfl⟩
  | cons name names ih =>
    obtain ⟨hname, hslash⟩ := List.forall_mem_cons.mp hslash
    rw [List.foldlM_cons] at hnames
    obtain ⟨step, hstep, hnames⟩ := Option.bind_eq_some_iff.mp hnames
    have hne : path.isCurrent → name ≠ "" := by
      rintro hcurrent rfl
      exact hcalm hcurrent List.mem_cons_self
    have hpath' := (locate?_eq_some_iff.mp hpath).1
    have hbelow := locate?_below hpath hname hne
    have hback : (below path name).isCurrent → path.isCurrent := isCurrent_of_below hpath' hname
    obtain ⟨next, hnext, hsubset, hcomponents, hexpand⟩ := ih hslash (hbelow.trans hstep)
      (fun h hmem => hcalm (hback h) (List.mem_cons_of_mem name hmem)) hnames
    have hsplit : ((name :: names).filter Path.isSignificant).map Path.component =
        ([name].filter Path.isSignificant).map Path.component ++
          (names.filter Path.isSignificant).map Path.component := by
      rw [← List.map_append, ← List.filter_append, List.singleton_append]
    rw [hsplit, ← List.append_assoc]
    refine ⟨next, hnext, ?_, fun h => ?_, fun rest => ?_⟩
    · exact fun c hc => List.mem_append.mpr ((List.mem_append.mp (hsubset hc)).imp_left
        fun hc => components_below_subset hpath' hname hc)
    · have hrelative := Path.isAbsolute_of_slash_not_mem hname
      rw [hcomponents (mt hback h), below, if_neg h, Path.components_join hpath' hrelative,
        Path.pieces_of_not_mem hname]
    · rw [List.map_cons, List.cons_append, expandFrom, expandLiteral_eq hpath hname hne, hstep,
        Option.isSome_some, if_pos rfl, List.flatMap_cons, List.flatMap_nil, List.append_nil,
          hexpand]

end FileTree

end LogCensus
