import LogCensus.Proofs.Template.Runs

/-!
# Templates that go on

What is written behind a text can only touch its last run of braces. A placeholder is closed by a
run, so it stays what it is unless closing braces are written behind that very run: they may turn it
into a sequence of doubled braces. An opening run at the end of a text, or a placeholder that is
still open there, has given no name yet.

* `RealRun.append_right`, `RealRun.of_append_right`: the runs of a text inside a longer one.
* `Reading.placeholder_append`: a placeholder inside a longer text.
* `parse_append`: the names of a text stay when the text goes on.
-/

namespace LogCensus.Template

/-- The text behind does not continue a run of braces at the end of the text in front. -/
def EndsRun (brace : Brace) (text more : List Char) : Prop :=
  text.getLast? = some brace.char → more.head? ≠ some brace.char

/-! ## Runs inside a longer text -/

namespace RealRun

variable {brace : Brace} {text more : List Char} {start length : Nat}

/-- All braces of a run stand in the text. -/
theorem end_le_length (h : RealRun brace text start length) : start + length ≤ text.length := by
  have hpos := h.pos
  obtain ⟨hlt, -⟩ := List.getElem?_eq_some_iff.mp (h.inside (length - 1) (by omega))
  omega

/-- A run ends in front of every run that starts behind it. -/
theorem end_le_start {start' length' : Nat} (h : RealRun brace text start length)
    (h' : RealRun brace text start' length') (hlt : start < start') : start + length ≤ start' := by
  refine Nat.le_of_not_lt fun hover => ?_
  have hbrace := h.inside (start' - 1 - start) (by omega)
  rw [show start + (start' - 1 - start) = start' - 1 by omega] at hbrace
  exact h'.before (start' - 1) (by omega) hbrace

/-- A run that ends before the text does, or is not continued, is one in the longer text. -/
theorem append_right (h : RealRun brace text start length)
    (hend : start + length = text.length → more.head? ≠ some brace.char) :
    RealRun brace (text ++ more) start length where
  odd := h.odd
  inside i hi := by
    have hle := h.end_le_length
    rw [List.getElem?_append_left (by omega)]
    exact h.inside i hi
  before i hi := by
    have hle := h.end_le_length
    rw [List.getElem?_append_left (by omega)]
    exact h.before i hi
  after := by
    rcases Nat.lt_or_eq_of_le h.end_le_length with hlt | heq
    · rw [List.getElem?_append_left hlt]
      exact h.after
    · rw [List.getElem?_append_right (by omega), heq, Nat.sub_self, ← List.head?_eq_getElem?]
      exact hend heq

/-- A run of the longer text that ends before the text in front does is one of that text. -/
theorem of_append_right (h : RealRun brace (text ++ more) start length)
    (hlt : start + length < text.length) : RealRun brace text start length where
  odd := h.odd
  inside i hi := by
    rw [← List.getElem?_append_left (by omega)]
    exact h.inside i hi
  before i hi := by
    rw [← List.getElem?_append_left (by omega)]
    exact h.before i hi
  after := by
    rw [← List.getElem?_append_left hlt]
    exact h.after

/-- Where a run ends with the text, the text ends in a brace of that run. -/
theorem getLast?_eq (h : RealRun brace text start length)
    (hend : start + length = text.length) : text.getLast? = some brace.char := by
  have hpos := h.pos
  rw [List.getLast?_eq_getElem?, show text.length - 1 = start + (length - 1) by omega]
  exact h.inside (length - 1) (by omega)

end RealRun

/-- A first run that is not continued stays the first one: the runs in front of it end before the
text does. -/
theorem FirstRealRun.append_right {brace : Brace} {text more : List Char}
    {bound start length : Nat} (h : FirstRealRun brace text bound start length)
    (hend : start + length = text.length → more.head? ≠ some brace.char) :
    FirstRealRun brace (text ++ more) bound start length where
  toRealRun := h.toRealRun.append_right hend
  bound_le := h.bound_le
  le_start start' length' hrun hbound := by
    refine Nat.le_of_not_lt fun hbefore => ?_
    have hle := h.end_le_length
    have hpos := h.pos
    have hends := hrun.end_le_start (h.toRealRun.append_right hend) (by omega)
    have hstart := h.le_start _ _ (hrun.of_append_right (by omega)) hbound
    omega

/-! ## Readings of a longer text -/

namespace Reading

variable {text more : List Char} {start length close closeLength : Nat}

/-- A placeholder is one in the longer text when its closing run is not continued. -/
theorem placeholder_append (hfirst : FirstRealRun .opening text 0 start length)
    (hclose : FirstRealRun .closing text (start + length) close closeLength)
    (hend : close + closeLength = text.length → more.head? ≠ some Brace.closing.char)
    {names : List String} (hrest : Reading (text.drop (close + 1) ++ more) names) :
    Reading (text ++ more) (nameInside ((text.take close).drop (start + length)) :: names) := by
  have hbound := hclose.bound_le
  have hpos := hclose.pos
  have hle := hclose.end_le_length
  -- the opening run ends in front of the closing one
  have hopen : FirstRealRun .opening (text ++ more) 0 start length :=
    hfirst.append_right fun hwhole => by omega
  rw [← List.drop_append_of_le_length (by omega)] at hrest
  have hreading := Reading.placeholder hopen (hclose.append_right hend) hrest
  rwa [List.take_append_of_le_length (by omega)] at hreading

/-- The names of a text are read first in the longer text. -/
theorem exists_append {names : List String} (h : Reading text names)
    (hends : EndsRun .closing text more) :
    ∃ others, Reading (text ++ more) (names ++ others) := by
  induction h with
  | literal _ => exact ⟨_, reading_parse _⟩
  | unclosed _ _ => exact ⟨_, reading_parse _⟩
  | @placeholder text start length close closeLength names hfirst hclose _ ih =>
    -- the rest ends as the text does
    have hrest : EndsRun .closing (text.drop (close + 1)) more := by
      intro hlast
      apply hends
      rw [List.getLast?_drop] at hlast
      split at hlast
      · cases hlast
      · exact hlast
    obtain ⟨others, hothers⟩ := ih hrest
    exact ⟨others, placeholder_append hfirst hclose
      (fun hwhole => hends (hclose.toRealRun.getLast?_eq hwhole)) hothers⟩

end Reading

/-! ## Names of a longer text -/

/-- What is read first in a longer text is a prefix of its names. -/
theorem prefix_of_reading {text more : String} {names others : List String}
    (h : Reading (text.toList ++ more.toList) (names ++ others)) :
    names <+: parse (text ++ more) := by
  have hparse := reading_parse (text.toList ++ more.toList)
  rw [← String.toList_append, String.ofList_toList, String.toList_append] at hparse
  exact ⟨others, h.unique hparse⟩

theorem reading_parse_toList (text : String) : Reading text.toList (parse text) := by
  have hparse := reading_parse text.toList
  rwa [String.ofList_toList] at hparse

/-- Text written behind a template leaves the names that were found, in their order, wherever the
template stops: inside a placeholder, in a run of opening braces or between doubled braces. Only a
closing brace behind a closing brace is excluded. -/
theorem parse_append (text more : String)
    (hapart : ¬ (text.toList.getLast? = some '}' ∧ more.toList.head? = some '}')) :
    parse text <+: parse (text ++ more) := by
  have hends : EndsRun .closing text.toList more.toList :=
    fun hlast hhead => hapart ⟨hlast, hhead⟩
  obtain ⟨others, hothers⟩ := (reading_parse_toList text).exists_append hends
  exact prefix_of_reading hothers

/-- A text that stops in a run of opening braces, which goes on behind it. -/
theorem parse_append_openRun :
    let text := "{User}: ".push '{'
    ¬ (text.toList.getLast? = some '}' ∧ "{Group}".toList.head? = some '}') ∧
      parse text <+: parse (text ++ "{Group}") := by
  intro text
  have hapart : ¬ (text.toList.getLast? = some '}' ∧ "{Group}".toList.head? = some '}') := by
    decide
  exact ⟨hapart, parse_append _ _ hapart⟩

end LogCensus.Template
