import LogCensus.Glob.Matching
import LogCensus.Proofs.Glob.Reading
import LogCensus.Proofs.Path

/-!
# Patterns for a directory anywhere

A name between double stars matches the paths that lead through a directory with that name: those
with the name among their pieces before the last one.

* `Glob.anywhere`: the pattern for a name.
* `Glob.accepts_anywhere`: what it matches.
-/

namespace LogCensus.Glob

/-- The pattern for everything below directories with a name. -/
def anywhere (name : String) : String :=
  "**/" ++ name ++ "/**"

/-- Whether a name stands for itself in a pattern. -/
def isPlainName (name : String) : Bool :=
  Path.isName name && name.toList.all isOrdinary

/-- The tokens of the pattern for everything below directories with a name. -/
def anywhereTokens (name : List Char) : List GlobToken :=
  .anyComponents :: (name.map .char ++ [.char '/', .anyComponents])

theorem parse_anywhere {name : String} (hname : ∀ c ∈ name.toList, isOrdinary c) :
    parse (anywhere name) = .ok ⟨anywhereTokens name.toList⟩ := by
  have htext : (anywhere name).toList = '*' :: '*' :: '/' :: (name.toList ++ ['/', '*', '*']) := by
    simp [anywhere, String.toList_append]
  have hstart (rest : List Char) : read .outside 0 none [] ('*' :: '*' :: '/' :: rest) =
      read .outside 3 (some '/') [.anyComponents] rest := by
    simp [read, startsComponent, pushComponents]
  have hend (position : Nat) (tokens : List GlobToken) :
      read .outside position (some '/') (.char '/' :: tokens) ['*', '*'] =
        .ok (GlobToken.anyComponents :: .char '/' :: tokens).reverse := by
    simp [read, startsComponent, pushComponents]
  rw [parse, htext, hstart, read_ordinary_append hname, read_ordinary (by decide), hend]
  simp [anywhereTokens, Except.map]

/-! ## What the pattern matches -/

theorem nil_mem_componentEnds (text : List Char) : [] ∈ componentEnds text := by
  induction text with
  | nil => exact List.mem_singleton_self _
  | cons c rest ih =>
    rw [componentEnds]
    split
    · exact List.mem_cons_of_mem _ ih
    · exact ih

/-- The ends after the first separator of a text. -/
theorem componentEnds_append {first : List Char} (hfirst : '/' ∉ first) (rest : List Char) :
    componentEnds (first ++ '/' :: rest) = rest :: componentEnds rest := by
  induction first with
  | nil => rfl
  | cons c first ih =>
    obtain ⟨hc, hfirst⟩ := not_or.mp (mt List.mem_cons.mpr hfirst)
    rw [List.cons_append, componentEnds, if_neg (Ne.symm hc), ih hfirst]

theorem componentEnds_of_not_mem {text : List Char} (htext : '/' ∉ text) :
    componentEnds text = [[]] := by
  induction text with
  | nil => rfl
  | cons c rest ih =>
    obtain ⟨hc, hrest⟩ := not_or.mp (mt List.mem_cons.mpr htext)
    rw [componentEnds, if_neg (Ne.symm hc), ih hrest]

theorem matchTokens_char (expected c : Char) (tokens : List GlobToken) (text : List Char) :
    matchTokens (.char expected :: tokens) (c :: text) =
      (c == expected && matchTokens tokens text) :=
  rfl

theorem matchTokens_chars (chars : List Char) (tokens : List GlobToken) (text : List Char) :
    matchTokens (chars.map .char ++ tokens) text ↔
      ∃ rest, text = chars ++ rest ∧ matchTokens tokens rest := by
  induction chars generalizing text with
  | nil => exact ⟨fun h => ⟨text, rfl, h⟩, fun ⟨_, hrest, h⟩ => hrest ▸ h⟩
  | cons c chars ih =>
    rw [List.map_cons, List.cons_append]
    cases text with
    | nil => exact ⟨nofun, nofun⟩
    | cons c' text =>
      rw [matchTokens_char, Bool.and_eq_true, ih]
      constructor
      · rintro ⟨hc, rest, rfl, hrest⟩
        rw [beq_iff_eq] at hc
        exact ⟨rest, by rw [hc, List.cons_append], hrest⟩
      · rintro ⟨rest, htext, hrest⟩
        obtain ⟨rfl, rfl⟩ := List.cons.inj htext
        exact ⟨beq_self_eq_true _, rest, rfl, hrest⟩

/-- The pieces of a text before the last one are what stands between separators. -/
theorem mem_dropLast_splitSlashes_iff {name : List Char} (hname : '/' ∉ name) {text : List Char} :
    name ∈ (Path.splitSlashes text).dropLast ↔
      ∃ last ∈ text :: componentEnds text, ∃ rest, last = name ++ '/' :: rest := by
  generalize hpieces : Path.splitSlashes text = pieces
  induction pieces generalizing text with
  | nil => exact absurd hpieces (Path.splitSlashes_ne_nil text)
  | cons first others ih =>
    have hfirst : '/' ∉ first :=
      Path.slash_not_mem_of_mem_splitSlashes (hpieces ▸ List.mem_cons_self)
    cases others with
    | nil =>
      obtain rfl := Path.eq_of_splitSlashes_eq_singleton hpieces
      rw [componentEnds_of_not_mem hfirst]
      refine iff_of_false List.not_mem_nil ?_
      rintro ⟨last, hlast, rest, rfl⟩
      rcases List.mem_cons.mp hlast with heq | hlast
      · exact hfirst (heq ▸ List.mem_append_right _ List.mem_cons_self)
      · exact absurd (List.mem_singleton.mp hlast) (by simp)
    | cons second others =>
      obtain ⟨rest, rfl, hrest⟩ := Path.exists_of_splitSlashes_eq_cons hpieces
      rw [List.dropLast_cons_cons, List.mem_cons, ih hrest, componentEnds_append hfirst]
      have hhead : (∃ rest', first ++ '/' :: rest = name ++ '/' :: rest') ↔ name = first := by
        constructor
        · rintro ⟨rest', heq⟩
          have hsplit := congrArg Path.splitSlashes heq
          rw [Path.splitSlashes_append, Path.splitSlashes_append,
            Path.splitSlashes_of_not_mem hfirst, Path.splitSlashes_of_not_mem hname] at hsplit
          exact (List.cons.inj hsplit).1.symm
        · rintro rfl
          exact ⟨rest, rfl⟩
      rw [← hhead]
      simp only [List.mem_cons, exists_eq_or_imp]

/-- A name between double stars matches the paths that lead through a directory with that name. -/
theorem accepts_anywhere {name : String} (hname : '/' ∉ name.toList) (text : String) :
    Glob.accepts ⟨anywhereTokens name.toList⟩ text ↔ name ∈ (Path.pieces ⟨text⟩).dropLast := by
  have hpieces : name ∈ (Path.pieces ⟨text⟩).dropLast ↔
      name.toList ∈ (Path.splitSlashes text.toList).dropLast := by
    rw [Path.pieces, ← List.map_dropLast, List.mem_map]
    constructor
    · rintro ⟨chars, hchars, rfl⟩
      rwa [String.toList_ofList]
    · intro hmem
      exact ⟨name.toList, hmem, String.ofList_toList⟩
  have hrest (last : List Char) : matchTokens [.char '/', .anyComponents] last ↔
      ∃ rest, last = '/' :: rest := by
    cases last with
    | nil => simp [matchTokens]
    | cons c rest =>
      have hany : (rest :: componentEnds rest).any (matchTokens []) :=
        List.any_eq_true.mpr ⟨[], List.mem_cons_of_mem _ (nil_mem_componentEnds rest), rfl⟩
      have hmatch : matchTokens [.char '/', .anyComponents] (c :: rest) = (c == '/') := by
        rw [matchTokens_char, matchTokens, hany, Bool.and_true]
      rw [hmatch, beq_iff_eq]
      constructor
      · intro hc
        exact ⟨rest, by rw [hc]⟩
      · rintro ⟨_, heq⟩
        exact (List.cons.inj heq).1
  rw [accepts_eq_matchTokens, anywhereTokens, matchTokens, hpieces,
    mem_dropLast_splitSlashes_iff hname, List.any_eq_true]
  refine exists_congr fun last => and_congr_right fun _ => ?_
  rw [matchTokens_chars]
  simp only [hrest]
  constructor
  · rintro ⟨_, rfl, rest, rfl⟩
    exact ⟨rest, rfl⟩
  · rintro ⟨rest, rfl⟩
    exact ⟨_, rfl, rest, rfl⟩

end LogCensus.Glob
