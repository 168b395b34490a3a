import LogCensus.Glob

/-!
# Reading patterns

What the reader of patterns does on a stretch of ordinary characters, and what decides whether a
pattern is well formed: not what stands in front of it, as long as a component may start there.

* `Glob.parse_ordinary`: a text of ordinary characters is a pattern for itself.
* `Glob.isOk_parse_append`: an ordinary directory in front of a pattern.
-/

namespace LogCensus.Glob

/-- Whether a character stands for itself in a pattern. -/
def isOrdinary (c : Char) : Bool :=
  c != '*' && c != '?' && c != '['

/-- Two places of the reader where the same text can follow. -/
inductive Mode.Alike : Mode → Mode → Prop
  | outside : Alike .outside .outside
  | opened (start start' : Nat) : Alike (.opened start) (.opened start')
  | negated (start start' : Nat) : Alike (.negated start) (.negated start')
  | inside (start start' : Nat) (negated : Bool) (members members' : List Char) :
    Alike (.inside start negated members) (.inside start' negated members')

theorem read_ordinary {c : Char} (hc : isOrdinary c) (position : Nat) (previous : Option Char)
    (tokens : List GlobToken) (rest : List Char) :
    read .outside position previous tokens (c :: rest) =
      read .outside (position + 1) (some c) (.char c :: tokens) rest := by
  simp only [isOrdinary, Bool.and_eq_true, bne_iff_ne] at hc
  obtain ⟨⟨hstar, hmark⟩, hbracket⟩ := hc
  rw [read.eq_def]
  split
  · contradiction
  · rename_i heq
    obtain ⟨rfl, rfl⟩ := List.cons.inj heq
    dsimp only
    split <;> first | contradiction | rfl

/-- A stretch of ordinary characters is read character by character. -/
theorem read_ordinary_append {chars : List Char} (hchars : ∀ c ∈ chars, isOrdinary c)
    (position : Nat) (previous : Option Char) (tokens : List GlobToken) (rest : List Char) :
    read .outside position previous tokens (chars ++ rest) =
      read .outside (position + chars.length) (chars.getLast?.or previous)
        ((chars.map .char).reverse ++ tokens) rest := by
  induction chars generalizing position previous tokens with
  | nil => rfl
  | cons c chars ih =>
    obtain ⟨hc, hchars⟩ := List.forall_mem_cons.mp hchars
    rw [List.cons_append, read_ordinary hc, ih hchars]
    simp only [List.length_cons, List.map_cons, List.reverse_cons, List.append_assoc,
      List.singleton_append]
    have hposition : position + 1 + chars.length = position + (chars.length + 1) := by omega
    have hprevious : chars.getLast?.or (some c) = ((c :: chars).getLast?).or previous := by
      cases chars with
      | nil => rfl
      | cons c' chars => simp [List.getLast?_cons]
    rw [hposition, hprevious]

theorem parse_ordinary {text : String} (htext : ∀ c ∈ text.toList, isOrdinary c) :
    parse text = .ok ⟨text.toList.map .char⟩ := by
  have hread := read_ordinary_append htext 0 none [] []
  rw [List.append_nil, List.append_nil] at hread
  rw [parse, hread, read.eq_def]
  simp [Except.map]

/-- Whether a text is read without an error does not depend on what was read before. -/
theorem isOk_read {mode mode' : Mode} (hmode : mode.Alike mode') {previous previous' : Option Char}
    (hprevious : startsComponent previous = startsComponent previous') (position position' : Nat)
    (tokens tokens' : List GlobToken) (rest : List Char) :
    (read mode position previous tokens rest).isOk =
      (read mode' position' previous' tokens' rest).isOk := by
  fun_induction read mode position previous tokens rest
    generalizing mode' position' previous' tokens' <;> cases hmode
  case case1 => rfl
  case case2 => rfl
  case case3 => rfl
  case case4 => rfl
  case case5 ih _ =>
    rw [read.eq_def (Mode.opened _)]
    exact ih (.negated _ _) rfl _ _
  case case6 hne ih _ =>
    rw [read.eq_def (Mode.opened _)]
    simp only [if_neg hne]
    exact ih (.inside _ _ _ _ _) rfl _ _
  case case7 ih _ => exact ih (.inside _ _ _ _ _) rfl _ _
  case case8 ih _ _ =>
    rw [read.eq_def (Mode.inside _ _ _)]
    exact ih .outside rfl _ _
  case case9 hne ih _ _ =>
    rw [read.eq_def (Mode.inside _ _ _) position']
    simp only [if_neg hne]
    exact ih (.inside _ _ _ _ _) rfl _ _
  case case10 ih => exact ih .outside rfl _ _
  case case11 ih => exact ih (.opened _ _) rfl _ _
  case case12 => rfl
  case case13 hstart _ =>
    rw [hprevious] at hstart
    simp only [read, hstart, if_true]
    rfl
  case case14 hstart _ _ ih =>
    rw [hprevious] at hstart
    simp only [read, hstart, if_true]
    exact ih .outside rfl _ _
  case case15 hstar hstart hnil hslash =>
    rw [hprevious] at hstart
    rw [read.eq_def]
    simp only [hstart, if_true]
    rfl
  case case16 hstar hstart =>
    rw [hprevious] at hstart
    rw [read.eq_def]
    simp [hstart]
    rfl
  case case17 h1 h2 ih =>
    simp only [read]
    exact ih .outside rfl _ _
  case case18 ih =>
    simp only [read]
    exact ih .outside rfl _ _

/-- An ordinary directory in front of a pattern does not make it malformed, nor well formed. -/
theorem isOk_parse_append {lead : String} (hlead : ∀ c ∈ lead.toList, isOrdinary c)
    (hslash : lead = "" ∨ lead.toList.getLast? = some '/') (pattern : String) :
    (parse (lead ++ pattern)).isOk = (parse pattern).isOk := by
  have hmap (result : Except GlobError (List GlobToken)) :
      (result.map Glob.mk).isOk = result.isOk := by
    cases result <;> rfl
  rw [parse, parse, hmap, hmap, String.toList_append, read_ordinary_append hlead]
  refine isOk_read .outside ?_ _ _ _ _ _
  rcases hslash with rfl | hslash
  · rfl
  · rw [hslash]
    rfl

end LogCensus.Glob
