import LogCensus.Proofs.Path
import Mathlib.Data.List.Infix

/-!
# The way up from a path

Above a path stand the paths made by leaving out components at its end. Here the list of them is
described step by step: the first one has one component less, and the others stand above that one.

* `Path.stepUp_cases`: one step up, or the end of the way.
* `Path.upwardInduction`: induction along the way.
* `Path.components_upward`: the components of everything on the way up from an absolute path.
* `Path.toList_prefix_of_mem_upward`: the texts on the way are beginnings of the first one.
-/

namespace LogCensus.Path

/-- A path and all paths above it, the nearest first. -/
def upward (path : Path) : List Path :=
  path :: path.above

/-- One step up leads to the path without its last component. Its pieces are the first ones of the
path, unless only the root or the empty path is left. -/
structure StepUp (path parent : Path) : Prop where
  above_eq : path.above = parent :: parent.above
  exists_last : ∃ last, path.components = parent.components ++ [last]
  isAbsolute_eq : parent.isAbsolute = path.isAbsolute
  pieces_prefix : parent.pieces <+: path.pieces ∨ parent = ⟨if path.isAbsolute then "/" else ""⟩

/-! ## What is left of the pieces -/

theorem remainders_dropWhile (pieces : List String) :
    remainders (pieces.dropWhile fun piece => !isSignificant piece) = remainders pieces := by
  induction pieces with
  | nil => rfl
  | cons piece rest ih =>
    by_cases hpiece : isSignificant piece
    · rw [List.dropWhile_cons_of_neg (by simp [hpiece])]
    · rw [List.dropWhile_cons_of_pos (by simp [hpiece]), ih, remainders, if_neg hpiece]

theorem filter_dropWhile (pieces : List String) :
    (pieces.dropWhile fun piece => !isSignificant piece).filter isSignificant =
      pieces.filter isSignificant := by
  induction pieces with
  | nil => rfl
  | cons piece rest ih =>
    by_cases hpiece : isSignificant piece
    · rw [List.dropWhile_cons_of_neg (by simp [hpiece])]
    · rw [List.dropWhile_cons_of_pos (by simp [hpiece]), ih, List.filter_cons_of_neg hpiece]

/-- Taking away one piece that counts leaves pieces from which more can be taken away, unless no
piece counts. -/
theorem remainders_cases (pieces : List String) :
    remainders pieces = [] ∧ pieces.filter isSignificant = [] ∨
    ∃ last rest, remainders pieces = rest :: remainders rest ∧ rest <:+ pieces ∧
      pieces.filter isSignificant = last :: rest.filter isSignificant := by
  induction pieces with
  | nil => exact .inl ⟨rfl, rfl⟩
  | cons piece rest ih =>
    rw [remainders]
    by_cases hpiece : isSignificant piece
    · right
      refine ⟨piece, rest.dropWhile fun piece => !isSignificant piece, ?_, ?_, ?_⟩
      · rw [if_pos hpiece, remainders_dropWhile]
      · exact (List.dropWhile_suffix _).trans (List.suffix_cons piece rest)
      · rw [List.filter_cons_of_pos hpiece, filter_dropWhile]
    · rw [if_neg hpiece, List.filter_cons_of_neg hpiece]
      rcases ih with ⟨hnone, hfilter⟩ | ⟨last, remaining, hsome, hsuffix, hfilter⟩
      · exact .inl ⟨hnone, hfilter⟩
      · exact .inr ⟨last, remaining, hsome, hsuffix.trans (List.suffix_cons piece rest), hfilter⟩

/-! ## Paths from pieces -/

theorem pieces_intercalate {pieces : List String} (hne : pieces ≠ [])
    (hslash : ∀ piece ∈ pieces, '/' ∉ piece.toList) :
    Path.pieces ⟨String.intercalate "/" pieces⟩ = pieces := by
  induction pieces with
  | nil => exact absurd rfl hne
  | cons first rest ih =>
    obtain ⟨hfirst, hrest⟩ := List.forall_mem_cons.mp hslash
    cases rest with
    | nil => rw [String.intercalate_singleton, pieces_of_not_mem hfirst]
    | cons second rest =>
      rw [String.intercalate_cons_cons, pieces_slash, pieces_of_not_mem hfirst,
        ih (List.cons_ne_nil second rest) hrest, List.singleton_append]

/-- The path of a first piece and of what is left of the others, the last one first. -/
def remaining (absolute : Bool) (first : String) (rest : List String) : Path :=
  if absolute && rest.isEmpty then ⟨"/"⟩
  else ⟨String.intercalate "/" (first :: rest.reverse)⟩

theorem above_eq {path : Path} {first : String} {rest : List String}
    (h : path.pieces = first :: rest) :
    path.above = (remainders rest.reverse).map (remaining path.isAbsolute first) ++
      if first.isEmpty then [] else [⟨""⟩] := by
  rw [above, h]
  dsimp only
  split
  · exact (List.append_nil _).symm
  · rfl

/-- A path is absolute when its first piece is empty and not the only one. -/
theorem isAbsolute_iff {path : Path} {first : String} {rest : List String}
    (h : path.pieces = first :: rest) : path.isAbsolute ↔ first = "" ∧ rest ≠ [] := by
  constructor
  · intro habsolute
    obtain ⟨second, others, hpieces⟩ := exists_of_isAbsolute habsolute
    obtain ⟨rfl, rfl⟩ := List.cons.inj (h.symm.trans hpieces)
    exact ⟨rfl, List.cons_ne_nil second others⟩
  · rintro ⟨rfl, hrest⟩
    obtain ⟨second, others, rfl⟩ := List.exists_cons_of_ne_nil hrest
    obtain ⟨text, htext, -⟩ := exists_of_pieces_eq_cons h
    rw [isAbsolute, htext]
    simp

theorem ne_empty_of_isAbsolute {path : Path} (h : path.isAbsolute) : path.text ≠ "" := by
  intro hempty
  rw [isAbsolute, hempty] at h
  exact absurd h (by decide)

/-- The components that the first piece of a path gives. -/
def leading (absolute : Bool) (first : String) : List PathComponent :=
  if absolute then [.root]
  else if first == "." then [.current]
  else if first.isEmpty then []
  else [component first]

theorem components_eq_leading {path : Path} {first : String} {rest : List String}
    (h : path.pieces = first :: rest) :
    path.components =
      leading path.isAbsolute first ++ (rest.filter isSignificant).map component := by
  rw [components, h, leading]
  dsimp only
  split
  · rfl
  · split
    · rfl
    · split
      · rfl
      · rfl

theorem exists_leading_of_ne {first : String} (h : first ≠ "") :
    ∃ last, leading false first = [last] := by
  rw [leading, if_neg Bool.false_ne_true]
  split
  · exact ⟨.current, rfl⟩
  · rw [if_neg (by rwa [String.isEmpty_iff])]
    exact ⟨component first, rfl⟩

/-! ## One step up -/

theorem pieces_remaining {path : Path} {first : String} {others rest : List String}
    (h : path.pieces = first :: others) (hfront : rest.reverse <+: others)
    (hroot : ¬ (path.isAbsolute && rest.isEmpty)) :
    (remaining path.isAbsolute first rest).pieces = first :: rest.reverse := by
  rw [remaining, if_neg hroot]
  refine pieces_intercalate (List.cons_ne_nil _ _) fun piece hpiece => ?_
  have hmem : piece ∈ path.pieces := h ▸ ((List.prefix_cons_inj first).mpr hfront).subset hpiece
  exact slash_not_mem_of_mem_pieces hmem

theorem isAbsolute_remaining {path : Path} {first : String} {others rest : List String}
    (h : path.pieces = first :: others) (hothers : others ≠ []) (hfront : rest.reverse <+: others)
    (hroot : ¬ (path.isAbsolute && rest.isEmpty)) :
    (remaining path.isAbsolute first rest).isAbsolute = path.isAbsolute := by
  rw [Bool.eq_iff_iff, isAbsolute_iff (pieces_remaining h hfront hroot), isAbsolute_iff h]
  refine and_congr_right fun hfirst => iff_of_true (fun hnil => hroot ?_) hothers
  rw [(isAbsolute_iff h).mpr ⟨hfirst, hothers⟩, List.reverse_eq_nil_iff.mp hnil]
  rfl

/-- What is left of a path when the last piece that counts is taken away. -/
theorem stepUp_remaining {path : Path} {first last : String} {others rest : List String}
    (h : path.pieces = first :: others)
    (habove : remainders others.reverse = rest :: remainders rest) (hrest : rest <:+ others.reverse)
    (hfilter : others.reverse.filter isSignificant = last :: rest.filter isSignificant) :
    StepUp path (remaining path.isAbsolute first rest) := by
  have hprefix : rest.reverse <+: others := by
    rw [← List.reverse_suffix, List.reverse_reverse]
    exact hrest
  have hlast : (others.filter isSignificant).map component =
      (rest.reverse.filter isSignificant).map component ++ [component last] := by
    rw [← List.reverse_reverse others, List.filter_reverse, hfilter, List.reverse_cons,
      List.map_append, ← List.filter_reverse, List.map_singleton]
  have hpathAbove : path.above = remaining path.isAbsolute first rest ::
      ((remainders rest).map (remaining path.isAbsolute first) ++
        if first.isEmpty then [] else [⟨""⟩]) := by
    rw [above_eq h, habove, List.map_cons, List.cons_append]
  by_cases hroot : path.isAbsolute && rest.isEmpty
  · obtain ⟨habsolute, hempty⟩ := Bool.and_eq_true_iff.mp hroot
    obtain rfl := List.isEmpty_iff.mp hempty
    obtain ⟨rfl, -⟩ := (isAbsolute_iff h).mp habsolute
    rw [habsolute] at hpathAbove ⊢
    exact {
      above_eq := hpathAbove
      exists_last := ⟨component last, by rw [components_eq_leading h, habsolute, hlast]; rfl⟩
      isAbsolute_eq := habsolute.symm
      pieces_prefix := .inr (by rw [habsolute]; rfl) }
  · have hothers : others ≠ [] := by
      rintro rfl
      exact List.cons_ne_nil _ _ hfilter.symm
    have hpieces := pieces_remaining h hprefix hroot
    have habsolute := isAbsolute_remaining h hothers hprefix hroot
    constructor
    · rw [Path.above_eq hpieces, habsolute, List.reverse_reverse, hpathAbove]
    · refine ⟨component last, ?_⟩
      rw [components_eq_leading hpieces, components_eq_leading h, habsolute, hlast,
        List.append_assoc]
    · exact habsolute
    · rw [hpieces, h]
      exact .inl ((List.prefix_cons_inj first).mpr hprefix)

/-- There is a step up from every path but the root and the empty path. -/
theorem stepUp_cases (path : Path) :
    path.above = [] ∧ (path.components = [] ∨ path.components = [.root]) ∨
    ∃ parent, StepUp path parent := by
  obtain ⟨first, others, h⟩ := List.exists_cons_of_ne_nil (pieces_ne_nil path)
  rcases remainders_cases others.reverse with
    ⟨hnone, hfilter⟩ | ⟨last, rest, hsome, hsuffix, hfilter⟩
  · -- at most the first piece counts
    have hothers : others.filter isSignificant = [] := by
      rw [← List.reverse_eq_nil_iff, ← List.filter_reverse, hfilter]
    have habove := above_eq h
    have hcomponents := components_eq_leading h
    rw [hnone, List.map_nil, List.nil_append] at habove
    rw [hothers, List.map_nil, List.append_nil] at hcomponents
    by_cases hfirst : first = ""
    · left
      rw [habove, hcomponents, hfirst]
      refine ⟨rfl, ?_⟩
      cases path.isAbsolute with
      | true => exact .inr rfl
      | false => exact .inl rfl
    · right
      have habsolute : path.isAbsolute = false := by
        rw [← Bool.not_eq_true, isAbsolute_iff h]
        exact fun hand => hfirst hand.1
      rw [if_neg (by rwa [String.isEmpty_iff])] at habove
      rw [habsolute] at hcomponents
      obtain ⟨last, hlast⟩ := exists_leading_of_ne hfirst
      exact ⟨⟨""⟩, {
        above_eq := habove
        exists_last := ⟨last, hcomponents.trans hlast⟩
        isAbsolute_eq := habsolute.symm
        pieces_prefix := .inr (by rw [habsolute]; rfl) }⟩
  · exact .inr ⟨_, stepUp_remaining h hsome hsuffix hfilter⟩

/-! ## The whole way -/

/-- What holds at the end of the way and passes from each path to the one below it holds
everywhere. -/
theorem upwardInduction {P : Path → Prop}
    (top : ∀ path, path.above = [] → path.components = [] ∨ path.components = [.root] → P path)
    (step : ∀ path parent, StepUp path parent → P parent → P path) (path : Path) : P path := by
  rcases stepUp_cases path with ⟨habove, hcomponents⟩ | ⟨parent, hstep⟩
  · exact top path habove hcomponents
  · have hshorter : parent.components.length < path.components.length := by
      obtain ⟨last, hlast⟩ := hstep.exists_last
      rw [hlast, List.length_append]
      exact Nat.lt_succ_self _
    exact step path parent hstep (upwardInduction top step parent)
termination_by path.components.length

theorem upward_of_above_eq_nil {path : Path} (h : path.above = []) : path.upward = [path] := by
  rw [upward, h]

theorem StepUp.upward_eq {path parent : Path} (h : StepUp path parent) :
    path.upward = path :: parent.upward := by
  rw [upward, upward, h.above_eq]

/-- On the way up from an absolute path stand absolute paths. -/
theorem isAbsolute_of_mem_upward {path directory : Path} (habsolute : path.isAbsolute)
    (h : directory ∈ path.upward) : directory.isAbsolute := by
  induction path using upwardInduction with
  | top path habove _ =>
    rw [upward_of_above_eq_nil habove, List.mem_singleton] at h
    rwa [h]
  | step path parent hstep ih =>
    rw [hstep.upward_eq] at h
    rcases List.mem_cons.mp h with rfl | h
    · exact habsolute
    · exact ih (hstep.isAbsolute_eq.trans habsolute) h

/-- The way up from an absolute path: the path, then one component less with each step, down to the
root alone. -/
theorem components_upward {path : Path} (habsolute : path.isAbsolute) :
    path.upward.map components = path.components.inits.tail.reverse := by
  induction path using upwardInduction with
  | top path habove hcomponents =>
    obtain ⟨rest, hrest⟩ : ∃ rest, path.components = .root :: rest := by
      obtain ⟨second, others, hpieces⟩ := exists_of_isAbsolute habsolute
      exact ⟨_, by rw [components_eq_leading hpieces, habsolute]; rfl⟩
    have hroot : path.components = [.root] :=
      hcomponents.resolve_left (hrest ▸ List.cons_ne_nil _ _)
    rw [upward_of_above_eq_nil habove, List.map_singleton, hroot]
    rfl
  | step path parent hstep ih =>
    obtain ⟨last, hlast⟩ := hstep.exists_last
    have hinits : parent.components.inits ≠ [] :=
      List.ne_nil_of_mem ((List.mem_inits _ _).mpr List.nil_prefix)
    rw [hstep.upward_eq, List.map_cons, ih (hstep.isAbsolute_eq.trans habsolute), hlast,
      List.inits_append, List.tail_append_of_ne_nil hinits, List.reverse_append]
    rfl

theorem components_prefix_of_mem_upward {path directory : Path} (h : directory ∈ path.upward) :
    directory.components <+: path.components := by
  induction path using upwardInduction with
  | top path habove _ =>
    rw [upward_of_above_eq_nil habove, List.mem_singleton] at h
    rw [h]
  | step path parent hstep ih =>
    rw [hstep.upward_eq] at h
    rcases List.mem_cons.mp h with rfl | h
    · exact List.prefix_rfl
    · obtain ⟨last, hlast⟩ := hstep.exists_last
      exact hlast ▸ (ih h).trans (List.prefix_append _ _)

/-- The rest of the way up from a path is the way up from where it starts. -/
theorem upward_of_append {path directory : Path} {nearer farther : List Path}
    (h : path.upward = nearer ++ directory :: farther) :
    directory.upward = directory :: farther := by
  induction path using upwardInduction generalizing nearer with
  | top path habove _ =>
    have hway := upward_of_above_eq_nil habove
    cases nearer with
    | nil =>
      obtain ⟨rfl, rfl⟩ := List.cons.inj (hway.symm.trans h)
      exact hway
    | cons first nearer =>
      obtain ⟨-, hnil⟩ := List.cons.inj (hway.symm.trans h)
      exact absurd hnil.symm (List.append_ne_nil_of_right_ne_nil _ (List.cons_ne_nil _ _))
  | step path parent hstep ih =>
    cases nearer with
    | nil =>
      obtain ⟨rfl, hfarther⟩ := List.cons.inj (h : path :: path.above = directory :: farther)
      rw [← hfarther, upward]
    | cons first nearer => exact ih (List.cons.inj (hstep.upward_eq.symm.trans h)).2

/-! ## Texts on the way -/

theorem intercalate_pieces (path : Path) : String.intercalate "/" path.pieces = path.text := by
  obtain ⟨text⟩ := path
  generalize hpieces : pieces ⟨text⟩ = ps
  induction ps generalizing text with
  | nil => exact absurd hpieces (pieces_ne_nil _)
  | cons first others ih =>
    cases others with
    | nil => rw [String.intercalate_singleton, eq_of_pieces_eq_singleton hpieces]
    | cons second others =>
      obtain ⟨rest, rfl, hrest⟩ := exists_of_pieces_eq_cons hpieces
      rw [String.intercalate_cons_cons, ih rest hrest]

theorem toList_prefix_of_pieces_prefix {path parent : Path} (h : parent.pieces <+: path.pieces) :
    parent.text.toList <+: path.text.toList := by
  obtain ⟨rest, hrest⟩ := h
  rw [← intercalate_pieces path, ← intercalate_pieces parent, ← hrest]
  cases rest with
  | nil => rw [List.append_nil]
  | cons piece rest =>
    rw [String.intercalate_append_of_ne_nil (pieces_ne_nil parent) (List.cons_ne_nil piece rest),
      String.toList_append, String.toList_append, List.append_assoc]
    exact List.prefix_append _ _

/-- The text of everything on the way up is a beginning of the text of the path. -/
theorem toList_prefix_of_mem_upward {path directory : Path} (h : directory ∈ path.upward) :
    directory.text.toList <+: path.text.toList := by
  induction path using upwardInduction with
  | top path habove _ =>
    rw [upward_of_above_eq_nil habove, List.mem_singleton] at h
    rw [h]
  | step path parent hstep ih =>
    rw [hstep.upward_eq] at h
    rcases List.mem_cons.mp h with rfl | h
    · exact List.prefix_rfl
    · refine (ih h).trans ?_
      rcases hstep.pieces_prefix with hprefix | rfl
      · exact toList_prefix_of_pieces_prefix hprefix
      · split
        · next habsolute =>
          obtain ⟨chars, hchars⟩ := List.head?_eq_some_iff.mp (beq_iff_eq.mp habsolute)
          rw [hchars]
          exact ⟨chars, rfl⟩
        · exact List.nil_prefix

end LogCensus.Path
