import LogCensus.Path

/-!
# Paths made of names

A name is a piece of a path that leads one step down: it counts, it is not `..`, and it has no
slash. Joining names to a path adds them at the end of its pieces, except that an empty piece at the
end (the path ends in a slash, or is empty) makes room for the first name. Pieces that do not count
and repeated slashes are left out in the simplified form of a path, and so they are in its
components.

* `Path.lead`: the text that stands in front of what is joined to a path.
* `Path.pieces_join`, `Path.components_join`: the pieces and components of a joined path.
* `Path.join_cases`: a text of names is joined name by name.
* `Path.simplified`: a path without `.` and empty pieces.
-/

namespace LogCensus

/-- Whether a component is a step of the way, and not a mark at the start of a path. -/
def PathComponent.isStep : PathComponent → Bool
  | .root => false
  | .current => false
  | .parent => true
  | .name _ => true

namespace Path

/-- Whether a piece leads one step down. -/
def isName (piece : String) : Bool :=
  isSignificant piece && piece != ".." && !piece.toList.contains '/'

/-- A path with names joined to it one after the other. -/
def joinAll (base : Path) (names : List String) : Path :=
  names.foldl join base

/-- The text of a path as it stands in front of what is joined to it. -/
def lead (path : Path) : String :=
  if path.text.isEmpty || path.endsInSlash then path.text else path.text ++ "/"

/-- The start of a path and its pieces that count. -/
def simplified (path : Path) : Bool × List String :=
  (path.isAbsolute, path.pieces.filter isSignificant)

/-- The pieces of a text, without an empty one at the end. -/
def steps (path : Path) : List String :=
  if path.pieces.getLast? = some "" then path.pieces.dropLast else path.pieces

/-! ## Pieces -/

theorem splitSlashes_ne_nil (chars : List Char) : splitSlashes chars ≠ [] := by
  cases chars with
  | nil => exact List.cons_ne_nil _ _
  | cons c rest =>
    rw [splitSlashes]
    split
    · exact List.cons_ne_nil _ _
    · split
      · exact List.cons_ne_nil _ _
      · exact List.cons_ne_nil _ _

theorem splitSlashes_of_not_mem {chars : List Char} (h : '/' ∉ chars) :
    splitSlashes chars = [chars] := by
  induction chars with
  | nil => rfl
  | cons c rest ih =>
    obtain ⟨hc, hrest⟩ := not_or.mp (mt List.mem_cons.mpr h)
    rw [splitSlashes, if_neg (Ne.symm hc), ih hrest]

/-- A slash ends a piece. -/
theorem splitSlashes_append (before after : List Char) :
    splitSlashes (before ++ '/' :: after) = splitSlashes before ++ splitSlashes after := by
  induction before with
  | nil => rfl
  | cons c rest ih =>
    rw [List.cons_append, splitSlashes, splitSlashes, ih]
    split
    · rfl
    · cases hrest : splitSlashes rest with
      | nil => exact absurd hrest (splitSlashes_ne_nil rest)
      | cons first others => rfl

theorem pieces_slash (before after : String) :
    pieces ⟨before ++ "/" ++ after⟩ = pieces ⟨before⟩ ++ pieces ⟨after⟩ := by
  have htext : (before ++ "/" ++ after).toList = before.toList ++ '/' :: after.toList := by
    simp [String.toList_append]
  rw [pieces, htext, splitSlashes_append, List.map_append]
  rfl

theorem pieces_of_not_mem {text : String} (h : '/' ∉ text.toList) : pieces ⟨text⟩ = [text] := by
  rw [pieces, splitSlashes_of_not_mem h, List.map_singleton, String.ofList_toList]

theorem isAbsolute_append {before : String} (h : before ≠ "") (after : String) :
    isAbsolute ⟨before ++ after⟩ = isAbsolute ⟨before⟩ := by
  rw [isAbsolute, isAbsolute, String.toList_append]
  cases hchars : before.toList with
  | nil => exact absurd (String.toList_eq_nil_iff.mp hchars) h
  | cons c rest => rfl

theorem pieces_ne_nil (path : Path) : path.pieces ≠ [] :=
  mt List.map_eq_nil_iff.mp (splitSlashes_ne_nil _)

theorem eq_of_splitSlashes_eq_singleton {chars piece : List Char}
    (h : splitSlashes chars = [piece]) : chars = piece := by
  by_cases hslash : '/' ∈ chars
  · obtain ⟨before, after, rfl⟩ := List.append_of_mem hslash
    rw [splitSlashes_append] at h
    have hlength := congrArg List.length h
    have hbefore := List.length_pos_iff.mpr (splitSlashes_ne_nil before)
    have hafter := List.length_pos_iff.mpr (splitSlashes_ne_nil after)
    rw [List.length_append, List.length_singleton] at hlength
    omega
  · exact List.singleton_inj.mp ((splitSlashes_of_not_mem hslash).symm.trans h)

theorem exists_of_splitSlashes_eq_cons {chars first second : List Char} {others : List (List Char)}
    (h : splitSlashes chars = first :: second :: others) :
    ∃ rest, chars = first ++ '/' :: rest ∧ splitSlashes rest = second :: others := by
  induction chars generalizing first with
  | nil => cases h
  | cons c chars ih =>
    rw [splitSlashes] at h
    split at h
    · next hc =>
      obtain ⟨rfl, hrest⟩ := List.cons.inj h
      exact ⟨chars, by rw [hc, List.nil_append], hrest⟩
    · cases hpieces : splitSlashes chars with
      | nil => exact absurd hpieces (splitSlashes_ne_nil chars)
      | cons head tail =>
        rw [hpieces] at h
        obtain ⟨rfl, rfl⟩ := List.cons.inj h
        obtain ⟨rest, rfl, hrest⟩ := ih hpieces
        exact ⟨rest, rfl, hrest⟩

/-- A text with several pieces is its first piece, a slash and a text with the others. -/
theorem exists_of_pieces_eq_cons {text first second : String} {others : List String}
    (h : pieces ⟨text⟩ = first :: second :: others) :
    ∃ rest, text = first ++ "/" ++ rest ∧ pieces ⟨rest⟩ = second :: others := by
  obtain ⟨head, tail, hsplit, rfl, htail⟩ := List.map_eq_cons_iff.mp h
  obtain ⟨head', tail', rfl, rfl, rfl⟩ := List.map_eq_cons_iff.mp htail
  obtain ⟨rest, htext, hrest⟩ := exists_of_splitSlashes_eq_cons hsplit
  refine ⟨String.ofList rest, String.toList_injective ?_, ?_⟩
  · simp [htext, String.toList_append, String.toList_ofList]
  · rw [pieces, String.toList_ofList, hrest, List.map_cons]

theorem eq_of_pieces_eq_singleton {text piece : String} (h : pieces ⟨text⟩ = [piece]) :
    text = piece := by
  obtain ⟨chars, hsplit, rfl⟩ := List.map_eq_singleton_iff.mp h
  rw [← eq_of_splitSlashes_eq_singleton hsplit, String.ofList_toList]

/-- An absolute path has an empty first piece and others. -/
theorem exists_of_isAbsolute {text : String} (h : isAbsolute ⟨text⟩) :
    ∃ second others, pieces ⟨text⟩ = "" :: second :: others := by
  obtain ⟨chars, hchars⟩ := List.head?_eq_some_iff.mp (beq_iff_eq.mp h)
  have htext : text = "" ++ "/" ++ String.ofList chars := by
    apply String.toList_injective
    rw [hchars]
    simp [String.toList_append, String.toList_ofList]
  obtain ⟨second, others, hrest⟩ := List.exists_cons_of_ne_nil (pieces_ne_nil ⟨String.ofList chars⟩)
  refine ⟨second, others, ?_⟩
  rw [htext, pieces_slash, hrest]
  rfl

theorem steps_cases (path : Path) :
    path.pieces = path.steps ∨ path.pieces = path.steps ++ [""] := by
  rw [steps]
  split
  · next hlast =>
    obtain ⟨front, hfront⟩ := List.getLast?_eq_some_iff.mp hlast
    rw [hfront, List.dropLast_concat]
    exact .inr rfl
  · exact .inl rfl

theorem getLast?_splitSlashes {chars : List Char} (h : (splitSlashes chars).getLast? = some []) :
    chars = [] ∨ chars.getLast? = some '/' := by
  induction chars with
  | nil => exact .inl rfl
  | cons c rest ih =>
    right
    rw [splitSlashes] at h
    cases hrest : splitSlashes rest with
    | nil => exact absurd hrest (splitSlashes_ne_nil rest)
    | cons first others =>
      rw [hrest] at h ih
      have hcons (last : Char) : rest.getLast? = some last → (c :: rest).getLast? = some last := by
        cases rest with
        | nil => exact nofun
        | cons c' rest => exact fun hlast => by rwa [List.getLast?_cons_cons]
      split at h
      · next hc =>
        rw [List.getLast?_cons_cons] at h
        rcases ih h with rfl | hlast
        · rw [hc]
          rfl
        · exact hcons '/' hlast
      · cases others with
        | nil => cases h
        | cons second others =>
          rw [List.getLast?_cons_cons] at h
          rcases ih (by rwa [List.getLast?_cons_cons]) with rfl | hlast
          · cases hrest
          · exact hcons '/' hlast

/-- Only the empty path and a path with a slash at the end have an empty piece there. -/
theorem empty_or_slash_of_getLast?_pieces {path : Path} (h : path.pieces.getLast? = some "") :
    path.text = "" ∨ path.endsInSlash := by
  rw [pieces, List.getLast?_map] at h
  obtain ⟨last, hlast, hempty⟩ := Option.map_eq_some_iff.mp h
  obtain rfl : last = [] := by
    rw [← String.toList_ofList (l := last), hempty]
    rfl
  rcases getLast?_splitSlashes hlast with hnil | hslash
  · exact .inl (String.toList_eq_nil_iff.mp hnil)
  · exact .inr (beq_iff_eq.mpr hslash)

/-! ## Names -/

section

variable {name : String} (hname : isName name)

include hname

theorem ne_parent_of_isName : name ≠ ".." := by
  simp only [isName, Bool.and_eq_true, bne_iff_ne] at hname
  exact hname.1.2

theorem slash_not_mem_of_isName : '/' ∉ name.toList := by
  simp only [isName, Bool.and_eq_true, Bool.not_eq_true', List.contains_eq_mem,
    decide_eq_false_iff_not] at hname
  exact hname.2

theorem ne_empty_of_isName : name ≠ "" := by
  rintro rfl
  exact absurd hname (by decide)

theorem pieces_of_isName : pieces ⟨name⟩ = [name] :=
  pieces_of_not_mem (slash_not_mem_of_isName hname)

theorem isAbsolute_of_isName : isAbsolute ⟨name⟩ = false := by
  rw [isAbsolute, beq_eq_false_iff_ne]
  intro hhead
  exact slash_not_mem_of_isName hname (List.mem_of_head? hhead)

end

/-! ## Joined names -/

theorem endsInSlash_iff {base : Path} :
    base.endsInSlash ↔ ∃ front, base.text = front ++ "/" := by
  rw [endsInSlash, beq_iff_eq]
  constructor
  · intro hlast
    obtain ⟨front, hfront⟩ := List.getLast?_eq_some_iff.mp hlast
    refine ⟨String.ofList front, String.toList_injective ?_⟩
    rw [hfront, String.toList_append, String.toList_ofList]
    rfl
  · rintro ⟨front, hfront⟩
    rw [hfront, String.toList_append]
    exact List.getLast?_concat

/-- A path that is neither empty nor ends in a slash gets one in front of what is joined to it. -/
theorem lead_cases (base : Path) :
    base.text = "" ∧ base.lead = "" ∨
    (∃ front, base.text = front ++ "/" ∧ base.lead = front ++ "/") ∨
    base.text ≠ "" ∧ base.lead = base.text ++ "/" := by
  rw [lead]
  by_cases hempty : base.text = ""
  · left
    simp [hempty]
  right
  by_cases hslash : base.endsInSlash
  · left
    obtain ⟨front, hfront⟩ := endsInSlash_iff.mp hslash
    refine ⟨front, hfront, ?_⟩
    simp [hslash, hfront]
  · right
    exact ⟨hempty, by simp [hempty, hslash]⟩

theorem join_eq (base : Path) {below : String} (hrelative : isAbsolute ⟨below⟩ = false) :
    base.join below = ⟨base.lead ++ below⟩ := by
  rw [join, hrelative, if_neg Bool.false_ne_true, lead]
  split
  · rfl
  · rfl

theorem join_ne_empty (base : Path) {name : String} (hname : isName name) :
    (base.join name).text ≠ "" := by
  rw [join_eq base (isAbsolute_of_isName hname)]
  simp [ne_empty_of_isName hname]

theorem lead_slash (front : String) : lead ⟨front ++ "/"⟩ = front ++ "/" := by
  have hslash : endsInSlash ⟨front ++ "/"⟩ := endsInSlash_iff.mpr ⟨front, rfl⟩
  simp [lead, hslash]

/-- A slash at the end of a path does not matter for what is joined to it. -/
theorem lead_join_empty (base : Path) : (base.join "").lead = base.lead := by
  rw [join_eq base rfl, String.append_empty]
  rcases lead_cases base with ⟨-, hlead⟩ | ⟨front, -, hlead⟩ | ⟨-, hlead⟩
  · rw [hlead]
    rfl
  · rw [hlead, lead_slash]
  · rw [hlead, lead_slash]

theorem isAbsolute_join (base : Path) {below : String} (hrelative : isAbsolute ⟨below⟩ = false) :
    (base.join below).isAbsolute = base.isAbsolute := by
  rw [join_eq base hrelative]
  rcases lead_cases base with ⟨hempty, hlead⟩ | ⟨front, hfront, hlead⟩ | ⟨hne, hlead⟩
  · rw [hlead, String.empty_append, hrelative, isAbsolute, hempty]
    rfl
  · have hne : front ++ "/" ≠ "" := by simp
    rw [hlead, isAbsolute_append hne, isAbsolute, isAbsolute, hfront]
  · rw [hlead, String.append_assoc, isAbsolute_append hne]

/-- A relative text is joined after the steps of a path. -/
theorem pieces_join (base : Path) {below : String} (hrelative : isAbsolute ⟨below⟩ = false) :
    (base.join below).pieces = base.steps ++ pieces ⟨below⟩ := by
  rw [join_eq base hrelative]
  by_cases hempty : base.text = ""
  · have hpieces : base.pieces = [""] := by
      rw [pieces, hempty]
      rfl
    rw [lead, hempty, steps, hpieces]
    rfl
  by_cases hslash : base.endsInSlash
  · obtain ⟨front, hfront⟩ := endsInSlash_iff.mp hslash
    have hbase : base = ⟨front ++ "/" ++ ""⟩ := by
      rw [String.append_empty, ← hfront]
    have hpieces : base.pieces = pieces ⟨front⟩ ++ [""] := by
      rw [hbase, pieces_slash]
      rfl
    rw [lead, if_pos (by rw [hslash, Bool.or_true]), hfront, pieces_slash, steps, hpieces,
      if_pos List.getLast?_concat, List.dropLast_concat]
  · rw [lead, if_neg (by simp [hempty, hslash]), pieces_slash, steps, if_neg]
    exact fun hlast => (empty_or_slash_of_getLast?_pieces hlast).elim hempty hslash

theorem steps_join (base : Path) {below : String} (hrelative : isAbsolute ⟨below⟩ = false) :
    (base.join below).steps = base.steps ++ steps ⟨below⟩ := by
  have hlast := List.getLast?_eq_some_getLast (pieces_ne_nil ⟨below⟩)
  rw [steps, pieces_join base hrelative, List.getLast?_append, hlast, Option.some_or,
    List.dropLast_append_of_ne_nil (pieces_ne_nil ⟨below⟩), steps.eq_def ⟨below⟩, hlast]
  split
  · rfl
  · rfl

theorem exists_steps_of_isAbsolute {path : Path} (h : path.isAbsolute) :
    ∃ rest, path.steps = "" :: rest := by
  obtain ⟨second, others, hpieces⟩ := exists_of_isAbsolute h
  rw [steps, hpieces]
  split
  · exact ⟨_, List.dropLast_cons_cons⟩
  · exact ⟨_, rfl⟩

/-- A relative path that is not empty has a first piece that is not empty. -/
theorem exists_steps_of_relative {path : Path} (hpath : path.text ≠ "")
    (hrelative : path.isAbsolute = false) :
    ∃ first rest, first ≠ "" ∧ path.pieces.head? = some first ∧ path.steps = first :: rest := by
  obtain ⟨first, others, hpieces⟩ := List.exists_cons_of_ne_nil (pieces_ne_nil path)
  have hfirst : first ≠ "" := by
    rintro rfl
    cases others with
    | nil => exact hpath (eq_of_pieces_eq_singleton hpieces)
    | cons second others =>
      obtain ⟨rest, htext, -⟩ := exists_of_pieces_eq_cons hpieces
      have habsolute : isAbsolute ⟨"/" ++ rest⟩ := by
        rw [isAbsolute_append (by decide)]
        decide
      rw [isAbsolute, htext, String.empty_append] at hrelative
      exact Bool.eq_false_iff.mp hrelative habsolute
  rw [steps, hpieces]
  cases others with
  | nil => exact ⟨first, [], hfirst, rfl, if_neg fun hlast => hfirst (Option.some.inj hlast)⟩
  | cons second others =>
    split
    · exact ⟨first, (second :: others).dropLast, hfirst, rfl, List.dropLast_cons_cons⟩
    · exact ⟨first, second :: others, hfirst, rfl, rfl⟩

/-- A relative text is joined after the pieces of a path, in place of an empty one at the end. -/
theorem exists_pieces_join_text (base : Path) {below : String}
    (hrelative : isAbsolute ⟨below⟩ = false) :
    ∃ front, (base.pieces = front ∨ base.pieces = front ++ [""]) ∧
      (base.join below).pieces = front ++ pieces ⟨below⟩ :=
  ⟨base.steps, base.steps_cases, base.pieces_join hrelative⟩

/-- A name is joined after the pieces of a path, in place of an empty one at the end. -/
theorem exists_pieces_join (base : Path) {name : String} (hname : isName name) :
    ∃ front, (base.pieces = front ∨ base.pieces = front ++ [""]) ∧
      (base.join name).pieces = front ++ [name] := by
  have hjoin := exists_pieces_join_text base (isAbsolute_of_isName hname)
  rwa [pieces_of_isName hname] at hjoin

/-- A path has the components of what it is joined to, and those of the pieces that count. -/
theorem components_join {base : Path} (hbase : base.text ≠ "") {below : String}
    (hrelative : isAbsolute ⟨below⟩ = false) :
    (base.join below).components =
      base.components ++ ((pieces ⟨below⟩).filter isSignificant).map component := by
  obtain ⟨front, hpieces, hjoin⟩ := exists_pieces_join_text base hrelative
  cases front with
  | nil =>
    refine absurd ?_ hbase
    rcases hpieces with hpieces | hpieces
    · exact absurd hpieces (pieces_ne_nil base)
    · exact eq_of_pieces_eq_singleton hpieces
  | cons first rest =>
    have hothers : ∃ others, base.pieces = first :: others ∧
        others.filter isSignificant = rest.filter isSignificant := by
      rcases hpieces with hpieces | hpieces
      · exact ⟨rest, hpieces, rfl⟩
      · have hempty : [""].filter isSignificant = [] := by decide
        refine ⟨rest ++ [""], hpieces, ?_⟩
        rw [List.filter_append, hempty, List.append_nil]
    obtain ⟨others, hothers, hfilter⟩ := hothers
    rw [components, components, hjoin, hothers, isAbsolute_join base hrelative]
    simp only [List.cons_append, List.filter_append, List.map_append, hfilter]
    split
    · rfl
    · split
      · rfl
      · split
        · rfl
        · rfl

/-- Nothing joined to a path leaves an empty piece at the end. -/
theorem exists_pieces_join_empty (base : Path) :
    ∃ front, (base.join "").pieces = front ++ [""] := by
  rw [join_eq base rfl]
  rcases lead_cases base with ⟨-, hlead⟩ | ⟨front, -, hlead⟩ | ⟨-, hlead⟩
  · rw [hlead]
    exact ⟨[], rfl⟩
  · rw [hlead, pieces_slash]
    exact ⟨pieces ⟨front⟩, rfl⟩
  · rw [hlead, pieces_slash]
    exact ⟨base.pieces, rfl⟩

/-- A path that ends in a name is neither empty nor ends in a slash. -/
theorem lead_append_name (front : String) {name : String} (hname : isName name) :
    lead ⟨front ++ name⟩ = front ++ name ++ "/" := by
  have hne : name ≠ "" := ne_empty_of_isName hname
  have hslash : ¬ endsInSlash ⟨front ++ name⟩ := by
    rw [endsInSlash, beq_iff_eq, String.toList_append, List.getLast?_append]
    intro hlast
    cases hchar : name.toList.getLast? with
    | none => exact hne (String.toList_eq_nil_iff.mp (List.getLast?_eq_none_iff.mp hchar))
    | some c =>
      rw [hchar, Option.some_or, Option.some.injEq] at hlast
      exact slash_not_mem_of_isName hname (hlast ▸ List.mem_of_getLast? hchar)
  simp [lead, hne, hslash]

theorem join_slash (base : Path) {name : String} (hname : isName name) {rest : String}
    (hrelative : isAbsolute ⟨rest⟩ = false) :
    base.join (name ++ "/" ++ rest) = (base.join name).join rest := by
  have hrelative' : isAbsolute ⟨name ++ "/" ++ rest⟩ = false := by
    rw [String.append_assoc, isAbsolute_append (ne_empty_of_isName hname),
      isAbsolute_of_isName hname]
  rw [join_eq base hrelative', join_eq base (isAbsolute_of_isName hname), join_eq _ hrelative,
    lead_append_name _ hname]
  simp only [String.append_assoc]

/-- A text whose pieces are names, but for the last one, is joined piece by piece. -/
theorem join_eq_joinAll (base : Path) {text : String}
    (hnames : ∀ piece ∈ (pieces ⟨text⟩).dropLast, isName piece) :
    base.join text = base.joinAll (pieces ⟨text⟩) := by
  generalize hpieces : pieces ⟨text⟩ = ps at hnames
  induction ps generalizing base text with
  | nil => exact absurd hpieces (pieces_ne_nil _)
  | cons first others ih =>
    cases others with
    | nil =>
      rw [eq_of_pieces_eq_singleton hpieces]
      rfl
    | cons second others =>
      obtain ⟨rest, rfl, hrest⟩ := exists_of_pieces_eq_cons hpieces
      obtain ⟨hfirst, hothers⟩ := List.forall_mem_cons.mp hnames
      have hrelative : isAbsolute ⟨rest⟩ = false := by
        rw [← Bool.not_eq_true]
        intro habsolute
        -- an absolute rest has an empty piece that is not the last one
        obtain ⟨third, tail, habsolute⟩ := exists_of_isAbsolute habsolute
        obtain ⟨rfl, rfl⟩ := List.cons.inj (hrest.symm.trans habsolute)
        exact ne_empty_of_isName (hothers "" List.mem_cons_self) rfl
      rw [join_slash base hfirst hrelative, ih (base.join first) hrest hothers]
      rfl

/-- A text whose steps are names is joined name by name, perhaps with a slash at the end. -/
theorem join_cases (base : Path) {text : String} (hnames : ∀ piece ∈ steps ⟨text⟩, isName piece) :
    base.join text = base.joinAll (steps ⟨text⟩) ∨
      base.join text = (base.joinAll (steps ⟨text⟩)).join "" := by
  rcases steps_cases ⟨text⟩ with hsteps | hsteps
  · left
    rw [← hsteps] at hnames ⊢
    exact join_eq_joinAll base fun piece hpiece => hnames piece (List.dropLast_subset _ hpiece)
  · right
    rw [join_eq_joinAll base (by rwa [hsteps, List.dropLast_concat]), hsteps, joinAll,
      List.foldl_append]
    rfl

theorem joinAll_append (base : Path) (names others : List String) :
    base.joinAll (names ++ others) = (base.joinAll names).joinAll others :=
  List.foldl_append

/-- Names joined to a path with a slash at the end are joined to the path. -/
theorem joinAll_join_empty (base : Path) {names : List String}
    (hnames : ∀ name ∈ names, isName name) (hne : names ≠ []) :
    (base.join "").joinAll names = base.joinAll names := by
  cases names with
  | nil => exact absurd rfl hne
  | cons name names =>
    have hrelative := isAbsolute_of_isName (hnames name List.mem_cons_self)
    have hjoin : (base.join "").join name = base.join name := by
      rw [join_eq _ hrelative, lead_join_empty, join_eq base hrelative]
    rw [joinAll, List.foldl_cons, hjoin]
    rfl

/-! ## Components -/

theorem slash_not_mem_of_mem_splitSlashes {chars piece : List Char}
    (h : piece ∈ splitSlashes chars) : '/' ∉ piece := by
  induction chars generalizing piece with
  | nil =>
    rw [splitSlashes, List.mem_singleton] at h
    rw [h]
    exact List.not_mem_nil
  | cons c rest ih =>
    rw [splitSlashes] at h
    split at h
    · rcases List.mem_cons.mp h with rfl | h
      · exact List.not_mem_nil
      · exact ih h
    · next hc =>
      cases hrest : splitSlashes rest with
      | nil => exact absurd hrest (splitSlashes_ne_nil rest)
      | cons first others =>
        rw [hrest] at h ih
        rcases List.mem_cons.mp h with rfl | h
        · intro hmem
          rcases List.mem_cons.mp hmem with heq | hmem
          · exact hc heq.symm
          · exact ih List.mem_cons_self hmem
        · exact ih (List.mem_cons_of_mem first h)

theorem slash_not_mem_of_mem_pieces {path : Path} {piece : String} (h : piece ∈ path.pieces) :
    '/' ∉ piece.toList := by
  obtain ⟨chars, hchars, rfl⟩ := List.mem_map.mp h
  rw [String.toList_ofList]
  exact slash_not_mem_of_mem_splitSlashes hchars

theorem isAbsolute_of_slash_not_mem {text : String} (h : '/' ∉ text.toList) :
    isAbsolute ⟨text⟩ = false := by
  rw [isAbsolute, beq_eq_false_iff_ne]
  exact fun hhead => h (List.mem_of_head? hhead)

theorem component_of_isName {name : String} (hname : isName name) :
    component name = .name name := by
  rw [component, if_neg]
  rw [beq_iff_eq]
  exact ne_parent_of_isName hname

theorem isName_iff {piece : String} :
    isName piece ↔ isSignificant piece ∧ piece ≠ ".." ∧ '/' ∉ piece.toList := by
  simp [isName, and_assoc]

theorem components_ne_nil {path : Path} (hpath : path.text ≠ "") : path.components ≠ [] := by
  rw [components]
  cases hpieces : path.pieces with
  | nil => exact absurd hpieces (pieces_ne_nil path)
  | cons first rest =>
    dsimp only
    split
    · exact List.cons_ne_nil _ _
    · next habsolute =>
      split
      · exact List.cons_ne_nil _ _
      · split
        · next hempty =>
          rw [String.isEmpty_iff] at hempty
          subst hempty
          cases rest with
          | nil => exact absurd (eq_of_pieces_eq_singleton hpieces) hpath
          | cons second others =>
            -- an empty first piece with others behind it makes the path absolute
            obtain ⟨rest, htext, -⟩ := exists_of_pieces_eq_cons hpieces
            refine absurd ?_ habsolute
            rw [isAbsolute, htext]
            simp
        · exact List.cons_ne_nil _ _

/-- The components of a path without a `.` at its start are those of its pieces that count. -/
theorem components_eq {path : Path} (h : path.pieces.head? ≠ some ".") :
    path.components =
      (if path.isAbsolute then [.root] else []) ++
        (path.pieces.filter isSignificant).map component := by
  cases habsolute : path.isAbsolute with
  | true =>
    obtain ⟨second, others, hpieces⟩ := exists_of_isAbsolute habsolute
    rw [components, hpieces, List.filter_cons_of_neg (by decide)]
    simp only [habsolute, if_true, List.singleton_append]
  | false =>
    obtain ⟨first, rest, hpieces⟩ := List.exists_cons_of_ne_nil (pieces_ne_nil path)
    have hfirst : (first == ".") = false := by
      rw [hpieces] at h
      exact beq_eq_false_iff_ne.mpr fun heq => h (congrArg some heq)
    rw [components, hpieces]
    simp only [habsolute, hfirst, Bool.false_eq_true, if_false, List.nil_append]
    split
    · next hempty => rw [List.filter_cons_of_neg (by simp [isSignificant, hempty])]
    · next hempty =>
      rw [List.filter_cons_of_pos (by simp [isSignificant, hempty, hfirst]), List.map_cons]

theorem isAbsolute_of_dotted {path : Path} (h : path.pieces.head? = some ".") :
    path.isAbsolute = false := by
  rw [← Bool.not_eq_true]
  intro habsolute
  obtain ⟨second, others, hpieces⟩ := exists_of_isAbsolute habsolute
  rw [hpieces] at h
  exact absurd (Option.some.inj h) (by decide)

/-- The components of a path with a `.` at its start. -/
theorem components_of_dotted {path : Path} (h : path.pieces.head? = some ".") :
    path.components = .current :: (path.pieces.tail.filter isSignificant).map component := by
  obtain ⟨rest, hrest⟩ := List.head?_eq_some_iff.mp h
  rw [components, hrest]
  simp only [isAbsolute_of_dotted h, Bool.false_eq_true, if_false, beq_self_eq_true, if_true,
    List.tail_cons]

theorem mem_map_component_iff {name : String} (hname : isName name) {pieces : List String} :
    .name name ∈ (pieces.filter isSignificant).map component ↔ name ∈ pieces := by
  rw [List.mem_map]
  constructor
  · rintro ⟨piece, hpiece, heq⟩
    rw [component] at heq
    split at heq
    · cases heq
    · cases heq
      exact (List.mem_filter.mp hpiece).1
  · intro hmem
    exact ⟨name, List.mem_filter.mpr ⟨hmem, (isName_iff.mp hname).1⟩, component_of_isName hname⟩

/-- The components of a path, apart from what marks its start, are those of its pieces that
count. -/
theorem filter_components (path : Path) :
    path.components.filter PathComponent.isStep =
      (path.pieces.filter isSignificant).map component := by
  have hothers (pieces : List String) :
      ((pieces.filter isSignificant).map component).filter PathComponent.isStep =
        (pieces.filter isSignificant).map component := by
    rw [List.filter_eq_self]
    intro c hc
    obtain ⟨piece, -, rfl⟩ := List.mem_map.mp hc
    rw [component]
    split
    · rfl
    · rfl
  by_cases hdotted : path.pieces.head? = some "."
  · obtain ⟨rest, hrest⟩ := List.head?_eq_some_iff.mp hdotted
    rw [components_of_dotted hdotted, hrest, List.filter_cons_of_neg (by decide),
      List.filter_cons_of_neg (by decide), hothers, List.tail_cons]
  · rw [components_eq hdotted, List.filter_append, hothers]
    split
    · rfl
    · rfl

end Path

end LogCensus
