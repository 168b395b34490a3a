import LogCensus.Proofs.Template.Reading

/-!
# Templates by runs of braces

The scan over the bytes of a template finds the braces that its runs of braces hold. A run is real
when its length is odd: it stands for doubled braces and one brace that counts, the last one of an
opening run and the first one of a closing run. A placeholder goes from the brace of the first real
opening run to that of the first real closing run behind it.

* `RealRun`, `FirstRealRun`: runs as positions in a list of characters.
* `Brace.find_cases`: the scan finds the brace of the first real run.
* `Reading`: the names that the runs of a text give.
* `parse_reads_runs`: a template is read by its runs.
-/

namespace LogCensus.Template

open Text

/-- A run of an odd number of braces, with no more of them on either side. -/
structure RealRun (brace : Brace) (text : List Char) (start length : Nat) : Prop where
  odd : length % 2 = 1
  inside : ∀ i < length, text[start + i]? = some brace.char
  before : ∀ i, i + 1 = start → text[i]? ≠ some brace.char
  after : text[start + length]? ≠ some brace.char

/-- The first real run among those that start at a position or behind it. -/
structure FirstRealRun (brace : Brace) (text : List Char) (bound start length : Nat) : Prop extends
    RealRun brace text start length where
  bound_le : bound ≤ start
  le_start : ∀ start' length', RealRun brace text start' length' → bound ≤ start' → start ≤ start'

/-- The position of the brace that counts in a real run. -/
def Brace.pick : Brace → Nat → Nat → Nat
  | .opening, start, length => start + length - 1
  | .closing, start, _ => start

/-- `Reading text names`: the runs of braces in the text give these names. -/
inductive Reading : List Char → List String → Prop
  | literal {text : List Char} :
    (∀ start length, ¬ RealRun .opening text start length) → Reading text []
  | unclosed {text : List Char} {start length : Nat} :
    FirstRealRun .opening text 0 start length →
    (∀ start' length', RealRun .closing text start' length' → start' < start + length) →
    Reading text []
  | placeholder {text : List Char} {start length close closeLength : Nat} {names : List String} :
    FirstRealRun .opening text 0 start length →
    FirstRealRun .closing text (start + length) close closeLength →
    Reading (text.drop (close + 1)) names →
    Reading text (nameInside ((text.take close).drop (start + length)) :: names)

/-! ## Runs -/

namespace RealRun

variable {brace : Brace} {text : List Char} {start length : Nat}

theorem pos (h : RealRun brace text start length) : 0 < length := by
  have := h.odd
  omega

/-- Runs that start at one position have one length. -/
theorem length_unique {length' : Nat} (h : RealRun brace text start length)
    (h' : RealRun brace text start length') : length = length' := by
  rcases Nat.lt_trichotomy length length' with hlt | heq | hlt
  · exact absurd (h'.inside length hlt) h.after
  · exact heq
  · exact absurd (h.inside length' hlt) h'.after

/-- A prefix that does not end in the brace moves the runs behind it. -/
theorem append_iff {passed rest : List Char} (hpassed : passed.getLast? ≠ some brace.char) :
    RealRun brace (passed ++ rest) (passed.length + start) length ↔
      RealRun brace rest start length := by
  have hmove : ∀ i, (passed ++ rest)[passed.length + i]? = rest[i]? := by
    intro i
    rw [List.getElem?_append_right (by omega), Nat.add_sub_cancel_left]
  constructor
  · intro h
    refine ⟨h.odd, ?_, ?_, ?_⟩
    · intro i hi
      rw [← hmove, ← Nat.add_assoc]
      exact h.inside i hi
    · rintro i rfl
      rw [← hmove]
      exact h.before _ (by omega)
    · rw [← hmove, ← Nat.add_assoc]
      exact h.after
  · intro h
    refine ⟨h.odd, ?_, ?_, ?_⟩
    · intro i hi
      rw [Nat.add_assoc, hmove]
      exact h.inside i hi
    · intro i hi
      cases start with
      | zero =>
        -- the character in front of the rest is the last one of the prefix
        rw [List.getElem?_append_left (by omega), show i = passed.length - 1 by omega,
          ← List.getLast?_eq_getElem?]
        exact hpassed
      | succ start =>
        rw [show i = passed.length + start by omega, hmove]
        exact h.before start rfl
    · rw [Nat.add_assoc, hmove]
      exact h.after

/-- No real run starts in an even run at the start of a text or right behind it. -/
theorem lt_start_of_even {count : Nat} (heven : count % 2 = 0) {rest : List Char}
    (hrest : rest.head? ≠ some brace.char)
    (h : RealRun brace (List.replicate count brace.char ++ rest) start length) :
    count < start := by
  have hrun : ∀ i < count, (List.replicate count brace.char ++ rest)[i]? = some brace.char := by
    intro i hi
    rw [List.getElem?_append_left (by simpa using hi), List.getElem?_replicate_of_lt hi]
  refine Nat.lt_of_not_le fun hstart => ?_
  by_cases hzero : start = 0
  · -- the run is the even one
    subst hzero
    rcases Nat.lt_trichotomy length count with hlt | heq | hlt
    · exact h.after (by rw [Nat.zero_add]; exact hrun length hlt)
    · have := h.odd
      omega
    · have hnext := h.inside count hlt
      rw [Nat.zero_add, List.getElem?_append_right (by simp), List.length_replicate, Nat.sub_self,
        ← List.head?_eq_getElem?] at hnext
      exact hrest hnext
  · -- a brace of the even run stands in front of it
    exact h.before (start - 1) (by omega) (hrun (start - 1) (by omega))

end RealRun

namespace FirstRealRun

variable {brace : Brace} {text : List Char} {bound start length : Nat}

theorem unique {start' length' : Nat} (h : FirstRealRun brace text bound start length)
    (h' : FirstRealRun brace text bound start' length') : start = start' ∧ length = length' := by
  have hstart : start = start' := Nat.le_antisymm
    (h.le_start _ _ h'.toRealRun h'.bound_le) (h'.le_start _ _ h.toRealRun h.bound_le)
  subst hstart
  exact ⟨rfl, h.toRealRun.length_unique h'.toRealRun⟩

/-- An odd run at the start of a text is its first real run. -/
theorem of_odd {count : Nat} (hodd : count % 2 = 1) {rest : List Char}
    (hrest : rest.head? ≠ some brace.char) :
    FirstRealRun brace (List.replicate count brace.char ++ rest) 0 0 count where
  odd := hodd
  inside i hi := by
    rw [Nat.zero_add, List.getElem?_append_left (by simpa using hi),
      List.getElem?_replicate_of_lt hi]
  before i hi := nomatch hi
  after := by
    rw [Nat.zero_add, List.getElem?_append_right (by simp), List.length_replicate, Nat.sub_self,
      ← List.head?_eq_getElem?]
    exact hrest
  bound_le := Nat.le_refl 0
  le_start _ _ _ _ := Nat.zero_le _

/-- A prefix that does not end in the brace moves the first run behind it. -/
theorem append {passed rest : List Char} (hpassed : passed.getLast? ≠ some brace.char)
    (h : FirstRealRun brace rest bound start length) :
    FirstRealRun brace (passed ++ rest) (passed.length + bound) (passed.length + start) length where
  toRealRun := (RealRun.append_iff hpassed).mpr h.toRealRun
  bound_le := Nat.add_le_add_left h.bound_le _
  le_start start' length' h' hbound := by
    obtain ⟨distance, rfl⟩ := Nat.exists_eq_add_of_le (Nat.le_of_add_right_le hbound)
    have := h.le_start distance length' ((RealRun.append_iff hpassed).mp h') (by omega)
    omega

end FirstRealRun

/-! ## The scan -/

/-- The characters of a text in front of another one: a number of braces, then none. -/
theorem exists_run (c : Char) (text : List Char) :
    ∃ count rest, text = List.replicate count c ++ rest ∧ rest.head? ≠ some c := by
  induction text with
  | nil => exact ⟨0, [], rfl, by simp⟩
  | cons first text ih =>
    by_cases hfirst : first = c
    · obtain ⟨count, rest, rfl, hrest⟩ := ih
      exact ⟨count + 1, rest, by rw [hfirst]; rfl, hrest⟩
    · exact ⟨0, first :: text, rfl, by simpa using hfirst⟩

theorem Brace.scan_opening_run (count offset run mark : Nat) (rest : List Char) :
    Brace.opening.scan offset run mark
        (encode (List.replicate (count + 1) Brace.opening.char ++ rest)) =
      Brace.opening.scan (offset + (count + 1)) (run + (count + 1)) (offset + count)
        (encode rest) := by
  induction count generalizing offset run mark with
  | zero => exact Brace.opening.scan_brace offset run mark rest
  | succ count ih =>
    rw [List.replicate_succ, List.cons_append, scan_brace, if_neg (by simp), ih]
    congr 1 <;> omega

theorem Brace.scan_closing_run (count offset run mark : Nat) (hrun : 0 < run) (rest : List Char) :
    Brace.closing.scan offset run mark
        (encode (List.replicate count Brace.closing.char ++ rest)) =
      Brace.closing.scan (offset + count) (run + count) mark (encode rest) := by
  induction count generalizing offset run with
  | zero => rfl
  | succ count ih =>
    rw [List.replicate_succ, List.cons_append, scan_brace, if_pos ⟨rfl, hrun⟩, ih _ _ (by omega)]
    congr 1 <;> omega

/-- Braces are a byte each. -/
theorem Brace.length_encode_take (brace : Brace) {count taken : Nat} (htaken : taken ≤ count)
    (rest : List Char) :
    (encode ((List.replicate count brace.char ++ rest).take taken)).length = taken := by
  induction taken generalizing count with
  | zero => rfl
  | succ taken ih =>
    obtain ⟨previous, rfl⟩ : ∃ previous, count = previous + 1 := ⟨count - 1, by omega⟩
    rw [List.replicate_succ, List.cons_append, List.take_succ_cons, brace.encode_char,
      List.length_cons, ih (by omega)]

theorem Brace.pick_le (brace : Brace) (length : Nat) : brace.pick 0 length ≤ length := by
  cases brace <;> simp [pick]

theorem Brace.pick_add (brace : Brace) (distance start : Nat) {length : Nat} (hpos : 0 < length) :
    brace.pick (distance + start) length = distance + brace.pick start length := by
  cases brace
  · simp only [pick]
    omega
  · rfl

/-- The search for a brace over a run at the start of a text. -/
theorem Brace.find_run (brace : Brace) (count : Nat) (rest : List Char) :
    brace.find 0 (encode (List.replicate (count + 1) brace.char ++ rest)) =
      brace.scan (count + 1) (count + 1) (brace.pick 0 (count + 1)) (encode rest) := by
  unfold find
  cases brace with
  | opening =>
    rw [scan_opening_run, Nat.zero_add, Nat.zero_add, pick]
    congr 1
    omega
  | closing =>
    rw [List.replicate_succ, List.cons_append, scan_brace, if_neg (by simp),
      scan_closing_run _ _ _ _ (by omega)]
    congr 1 <;> omega

/-- A stretch that is passed over: an even run and the other character behind it. -/
def Brace.Passes (brace : Brace) (passed : List Char) : Prop :=
  ∃ count c, count % 2 = 0 ∧ c ≠ brace.char ∧ passed = List.replicate count brace.char ++ [c]

/-- A text starts with an odd run, is an even run or starts with a stretch that is passed over. -/
theorem Brace.text_cases (brace : Brace) (text : List Char) :
    (∃ count rest, count % 2 = 1 ∧ rest.head? ≠ some brace.char ∧
      text = List.replicate count brace.char ++ rest) ∨
    (∃ count, count % 2 = 0 ∧ text = List.replicate count brace.char) ∨
    ∃ passed rest, brace.Passes passed ∧ text = passed ++ rest := by
  obtain ⟨count, rest, rfl, hrest⟩ := exists_run brace.char text
  rcases Nat.mod_two_eq_zero_or_one count with heven | hodd
  · right
    cases rest with
    | nil => exact .inl ⟨count, heven, List.append_nil _⟩
    | cons c rest =>
      have hc : c ≠ brace.char := by simpa using hrest
      exact .inr ⟨_, rest, ⟨count, c, heven, hc, rfl⟩, by simp⟩
  · exact .inl ⟨count, rest, hodd, hrest, rfl⟩

namespace Brace.Passes

variable {brace : Brace} {passed rest : List Char} (h : brace.Passes passed)

include h

theorem ne_nil : passed ≠ [] := by
  obtain ⟨count, c, -, -, rfl⟩ := h
  simp

theorem getLast?_ne : passed.getLast? ≠ some brace.char := by
  obtain ⟨count, c, -, hc, rfl⟩ := h
  simpa using hc

/-- The real runs are those of the rest. -/
theorem exists_of_realRun {start length : Nat}
    (hrun : RealRun brace (passed ++ rest) start length) :
    ∃ distance, start = passed.length + distance ∧ RealRun brace rest distance length := by
  have hstart : passed.length ≤ start := by
    obtain ⟨count, c, heven, hc, rfl⟩ := h
    rw [List.append_assoc] at hrun
    have hlt := hrun.lt_start_of_even heven (by simpa using hc)
    rw [List.length_append, List.length_replicate, List.length_singleton]
    exact hlt
  obtain ⟨distance, rfl⟩ := Nat.exists_eq_add_of_le hstart
  exact ⟨distance, rfl, (RealRun.append_iff h.getLast?_ne).mp hrun⟩

theorem firstRealRun {start length : Nat} (hfirst : FirstRealRun brace rest 0 start length) :
    FirstRealRun brace (passed ++ rest) 0 (passed.length + start) length where
  toRealRun := (RealRun.append_iff h.getLast?_ne).mpr hfirst.toRealRun
  bound_le := Nat.zero_le _
  le_start start' length' hrun _ := by
    obtain ⟨distance, rfl, hrest⟩ := h.exists_of_realRun hrun
    exact Nat.add_le_add_left (hfirst.le_start _ _ hrest (Nat.zero_le _)) _

theorem find : brace.find 0 (encode (passed ++ rest)) =
    (brace.find 0 (encode rest)).map ((encode passed).length + ·) := by
  obtain ⟨count, c, heven, hc, rfl⟩ := h
  rw [← brace.find_shift, Nat.add_zero]
  cases count with
  | zero =>
    have hother : brace.char ∉ [c] := by simpa using Ne.symm hc
    have hskip := brace.find_skip hother 0 rest
    rwa [Nat.zero_add] at hskip
  | succ count =>
    have hlength : (encode (List.replicate (count + 1) brace.char)).length = count + 1 := by
      have htake := brace.length_encode_take (Nat.le_refl (count + 1)) []
      rwa [List.append_nil, List.take_of_length_le (by simp)] at htake
    rw [List.append_assoc, find_run, List.singleton_append, scan_char hc, if_neg (by omega),
      encode_append, List.length_append, hlength, encode_cons, encode_nil, List.append_nil]
    exact brace.scan_mark ..

end Brace.Passes

/-- The scan finds the brace of the first real run, if there is a real run. -/
theorem Brace.find_cases (brace : Brace) (text : List Char) :
    (brace.find 0 (encode text) = none ∧ ∀ start length, ¬ RealRun brace text start length) ∨
      ∃ start length, FirstRealRun brace text 0 start length ∧
        brace.find 0 (encode text) =
          some (encode (text.take (brace.pick start length))).length := by
  obtain ⟨count, rest, hodd, hrest, rfl⟩ | ⟨count, heven, rfl⟩ | ⟨passed, rest, hpassed, rfl⟩ :=
    brace.text_cases text
  · right
    refine ⟨0, count, .of_odd hodd hrest, ?_⟩
    obtain ⟨previous, rfl⟩ : ∃ previous, count = previous + 1 := ⟨count - 1, by omega⟩
    rw [find_run, scan_odd hodd hrest, brace.length_encode_take (brace.pick_le _)]
  · left
    rw [← List.append_nil (List.replicate count brace.char)]
    constructor
    · cases count with
      | zero => rfl
      | succ count => rw [find_run, encode_nil, scan, if_neg (by omega)]
    · intro start length hrun
      have hstart := hrun.lt_start_of_even heven (by simp)
      have hfirst := hrun.inside 0 hrun.pos
      rw [Nat.add_zero, List.append_nil, List.getElem?_eq_none (by simp; omega)] at hfirst
      cases hfirst
  · rcases brace.find_cases rest with ⟨hnone, hno⟩ | ⟨start, length, hfirst, hsome⟩
    · left
      refine ⟨by rw [hpassed.find, hnone]; rfl, ?_⟩
      intro start length hrun
      obtain ⟨distance, -, hrun⟩ := hpassed.exists_of_realRun hrun
      exact hno distance length hrun
    · right
      refine ⟨passed.length + start, length, hpassed.firstRealRun hfirst, ?_⟩
      rw [hpassed.find, hsome, brace.pick_add _ _ hfirst.pos, List.take_length_add_append,
        encode_append, List.length_append, Option.map_some]
termination_by text.length
decreasing_by
  have := List.length_pos_iff.mpr hpassed.ne_nil
  rw [‹text = passed ++ rest›, List.length_append]
  omega

/-- What the scan finds is the first byte of the brace of the first real run. -/
theorem Brace.find_eq_some_iff (brace : Brace) (text : List Char) (offset : Nat) :
    brace.find 0 (encode text) = some offset ↔ ∃ start length,
      FirstRealRun brace text 0 start length ∧
        offset = (encode (text.take (brace.pick start length))).length := by
  rcases brace.find_cases text with ⟨hnone, hno⟩ | ⟨start, length, hfirst, hsome⟩
  · rw [hnone]
    refine iff_of_false nofun ?_
    rintro ⟨start, length, hfirst, -⟩
    exact hno start length hfirst.toRealRun
  · rw [hsome]
    constructor
    · rintro ⟨⟩
      exact ⟨start, length, hfirst, rfl⟩
    · rintro ⟨start', length', hfirst', rfl⟩
      obtain ⟨rfl, rfl⟩ := hfirst.unique hfirst'
      rfl

/-! ## Readings -/

theorem split_at {text : List Char} {position : Nat} {c : Char} (h : text[position]? = some c) :
    text = text.take position ++ c :: text.drop (position + 1) := by
  obtain ⟨hlt, hc⟩ := List.getElem?_eq_some_iff.mp h
  rw [← hc, ← List.drop_eq_getElem_cons hlt, List.take_append_drop]

namespace FirstRealRun

variable {text : List Char} {start length : Nat} (h : FirstRealRun .opening text 0 start length)

include h

theorem getElem?_last : text[start + length - 1]? = some Brace.opening.char := by
  have hpos := h.pos
  rw [Nat.add_sub_assoc hpos]
  exact h.inside (length - 1) (by omega)

/-- A text is cut at the brace that opens its first placeholder. -/
theorem split : text =
    text.take (start + length - 1) ++ Brace.opening.char :: text.drop (start + length) := by
  have hpos := h.pos
  have hsplit := split_at h.getElem?_last
  rwa [Nat.sub_add_cancel (by omega)] at hsplit

/-- The beginning of a text up to its first opening run ends in no closing brace. -/
theorem getLast?_take_ne : (text.take (start + length)).getLast? ≠ some Brace.closing.char := by
  have hpos := h.pos
  obtain ⟨hlt, -⟩ := List.getElem?_eq_some_iff.mp h.getElem?_last
  rw [List.getLast?_eq_getElem?, List.length_take, List.getElem?_take_of_lt (by omega),
    Nat.min_eq_left (by omega), h.getElem?_last]
  decide

theorem length_take : (text.take (start + length)).length = start + length := by
  have hpos := h.pos
  obtain ⟨hlt, -⟩ := List.getElem?_eq_some_iff.mp h.getElem?_last
  rw [List.length_take]
  omega

/-- The closing runs behind the opening one are those of the text behind it. -/
theorem realRun_closing_iff {distance closeLength : Nat} :
    RealRun .closing text (start + length + distance) closeLength ↔
      RealRun .closing (text.drop (start + length)) distance closeLength := by
  have hiff : RealRun .closing (text.take (start + length) ++ text.drop (start + length))
      ((text.take (start + length)).length + distance) closeLength ↔ _ :=
    RealRun.append_iff h.getLast?_take_ne
  rwa [List.take_append_drop, h.length_take] at hiff

theorem firstRealRun_closing {close closeLength : Nat}
    (hclose : FirstRealRun .closing (text.drop (start + length)) 0 close closeLength) :
    FirstRealRun .closing text (start + length) (start + length + close) closeLength := by
  have happend := hclose.append h.getLast?_take_ne
  rwa [List.take_append_drop, h.length_take] at happend

end FirstRealRun

/-- The names that are found are given by the runs. -/
theorem reading_parse (text : List Char) : Reading text (parse (String.ofList text)) := by
  rcases Brace.opening.find_cases text with ⟨hopen, hno⟩ | ⟨start, length, hfirst, hopen⟩
  · rw [parse_of_find_opening hopen]
    exact .literal hno
  have hsplit := hfirst.split
  generalize hbefore : text.take (start + length - 1) = before at hsplit
  generalize hafter : text.drop (start + length) = after at hsplit
  rw [Brace.pick, hbefore] at hopen
  rcases Brace.closing.find_cases after with ⟨hclose, hno⟩ | ⟨close, closeLength, hlast, hclose⟩
  · rw [hsplit, parse_of_find_closing (hsplit ▸ hopen) hclose, ← hsplit]
    refine .unclosed hfirst fun start' length' hrun => Nat.lt_of_not_le fun hle => ?_
    obtain ⟨distance, rfl⟩ := Nat.exists_eq_add_of_le hle
    exact hno distance length' (hafter ▸ hfirst.realRun_closing_iff.mp hrun)
  · have hinside := split_at (hlast.inside 0 hlast.pos)
    rw [Nat.add_zero] at hinside
    have hrest : text.drop (start + length + close + 1) = after.drop (close + 1) := by
      rw [← hafter, List.drop_drop, Nat.add_assoc]
    have hname : (text.take (start + length + close)).drop (start + length) = after.take close := by
      rw [List.drop_take, hafter, Nat.add_sub_cancel_left]
    rw [hsplit, hinside, parse_placeholder (hinside ▸ hsplit ▸ hopen) (hinside ▸ hclose), ← hinside,
      ← hsplit, ← hname, ← hrest]
    exact .placeholder hfirst (hfirst.firstRealRun_closing (hafter ▸ hlast)) (reading_parse _)
termination_by text.length
decreasing_by
  obtain ⟨hlt, -⟩ := List.getElem?_eq_some_iff.mp hfirst.getElem?_last
  rw [List.length_drop]
  omega

/-- The runs of a text give one list of names. -/
theorem Reading.unique {text : List Char} {names names' : List String} (h : Reading text names)
    (h' : Reading text names') : names = names' := by
  induction h generalizing names' with
  | literal hno =>
    cases h' with
    | literal _ => rfl
    | unclosed hfirst _ => rfl
    | placeholder hfirst _ _ => exact absurd hfirst.toRealRun (hno _ _)
  | unclosed hfirst hno =>
    cases h' with
    | literal _ => rfl
    | unclosed _ _ => rfl
    | placeholder hfirst' hclose _ =>
      obtain ⟨rfl, rfl⟩ := hfirst.unique hfirst'
      have := hno _ _ hclose.toRealRun
      have := hclose.bound_le
      omega
  | placeholder hfirst hclose _ ih =>
    cases h' with
    | literal hno => exact absurd hfirst.toRealRun (hno _ _)
    | unclosed hfirst' hno =>
      obtain ⟨rfl, rfl⟩ := hfirst.unique hfirst'
      have := hno _ _ hclose.toRealRun
      have := hclose.bound_le
      omega
    | placeholder hfirst' hclose' hrest =>
      obtain ⟨rfl, rfl⟩ := hfirst.unique hfirst'
      obtain ⟨rfl, rfl⟩ := hclose.unique hclose'
      rw [ih hrest]

/-- A template is read by its runs of braces. The scan over its bytes finds exactly the braces of
first real runs, at the byte where their character starts, and the names that are found are exactly
those that the runs give: none without a real opening run or without a real closing run behind it,
and else the trimmed text from the last brace of the opening run to the first comma or colon before
the first brace of the closing run, followed by the names of the text behind that brace. -/
theorem parse_reads_runs (template : String) :
    (∀ (brace : Brace) (offset : Nat), brace.find 0 (bytes template) = some offset ↔
      ∃ start length, FirstRealRun brace template.toList 0 start length ∧
        offset = (encode (template.toList.take (brace.pick start length))).length) ∧
    ∀ names, parse template = names ↔ Reading template.toList names := by
  constructor
  · intro brace offset
    rw [← brace.find_eq_some_iff, ← bytes_ofList, String.ofList_toList]
  · intro names
    have hreading := reading_parse template.toList
    rw [String.ofList_toList] at hreading
    constructor
    · rintro rfl
      exact hreading
    · intro h
      exact hreading.unique h

end LogCensus.Template
