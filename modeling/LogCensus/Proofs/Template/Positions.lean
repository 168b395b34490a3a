import LogCensus.Proofs.Template.Reading

/-!
# Reading a template by positions

A template can be read with nothing but positions: bytes are asked for one at a time, and names are
cut out of the text between two positions. Such a reading breaks off when it asks for a byte outside
the text, or cuts outside the text or inside a character. It never has to, whatever the template: a
real brace is a whole character, and so is what ends a name.

* `Brace.search`, `round?`, `Rounds`: the search for a brace, one round of the reading and all of
  them, by positions.
* `Brace.search_eq`: the search asks for no byte outside the text and finds the next real brace.
* `round?_cases`: what a round does from any position.
* `parse_by_positions`: all rounds end and give the names of the template.
-/

namespace LogCensus.Template

open Text

/-- What breaks off a reading by positions. -/
inductive Fault where
  /-- A byte is asked for outside the text. -/
  | noByte (position : Nat)
  /-- The bounds of a part are out of order, outside the text or inside a character. -/
  | noPart (first last : Nat)
deriving DecidableEq

/-- The brace of a run that counts after one more brace: the first closing one or the last opening
one. -/
def Brace.counting (brace : Brace) (run found position : Nat) : Nat :=
  if brace = .closing ∧ 0 < run then found else position

/-- The position of the next real brace in front of `limit`, or `limit` when there is none. So far
`run` such braces have just been read, and `found` is the position of the one that would count. -/
def Brace.search (brace : Brace) (bytes : List UInt8) (limit found run position : Nat) :
    Except Fault Nat :=
  if position < limit then
    match bytes[position]? with
    | none => .error (.noByte position)
    | some byte =>
      if 0 < run ∧ byte ≠ brace.code then
        if run % 2 = 0 then brace.search bytes limit limit 0 (position + 1) else .ok found
      else if byte = brace.code then
        brace.search bytes limit (brace.counting run found position) (run + 1) (position + 1)
      else brace.search bytes limit found run (position + 1)
  else if 0 < run ∧ run % 2 = 0 then .ok limit
  else .ok found
termination_by limit - position

/-- The bytes between two positions. -/
def bytesBetween (bytes : List UInt8) (first last : Nat) : Except Fault (List UInt8) :=
  if first ≤ last ∧ last ≤ bytes.length then .ok ((bytes.drop first).take (last - first))
  else .error (.noPart first last)

/-- The text between two positions, both of which have to lie between characters. -/
def textBetween (text : String) (first last : Nat) : Except Fault String :=
  if String.Pos.Raw.IsValid text ⟨first⟩ ∧ String.Pos.Raw.IsValid text ⟨last⟩ then
    (bytesBetween (bytes text) first last).bind fun part =>
      (ofBytes? part).elim (.error (.noPart first last)) .ok
  else .error (.noPart first last)

/-- A placeholder that was read from a position on, with its trimmed name. -/
structure Round where
  start : Nat
  span : Span
  name : String
deriving DecidableEq

/-- The placeholder between two braces. -/
def roundBetween (template : String) (start opening closing : Nat) : Except Fault Round := do
  let inside ← bytesBetween (bytes template) (opening + 1) closing
  let nameEnd := (inside.findIdx? isDelimiter).elim closing (opening + 1 + ·)
  let name ← textBetween template (opening + 1) nameEnd
  return ⟨start, ⟨opening, nameEnd, closing⟩, trim name⟩

/-- The next placeholder from a position on, if there is one. -/
def round? (template : String) (start : Nat) : Except Fault (Option Round) := do
  let limit := (bytes template).length
  if limit ≤ start then return none
  let opening ← Brace.opening.search (bytes template) limit limit 0 start
  if opening = limit then return none
  let closing ← Brace.closing.search (bytes template) limit limit 0 opening
  if closing = limit then return none
  return some (← roundBetween template start opening closing)

/-- All rounds from a position on: each starts behind the closing brace of the one before. -/
inductive Rounds (template : String) : Nat → List Round → Prop
  | done {start : Nat} (hround : round? template start = .ok none) : Rounds template start []
  | next {start : Nat} {round : Round} {others : List Round}
      (hround : round? template start = .ok (some round))
      (hothers : Rounds template (round.span.closing + 1) others) :
      Rounds template start (round :: others)

/-- The positions of a round are in order, inside the text and, where a name is cut out, between
characters; and the reading goes on behind its start. -/
structure Round.Sound (template : String) (round : Round) : Prop where
  start_le_opening : round.start ≤ round.span.opening
  opening_lt_closing : round.span.opening < round.span.closing
  closing_lt : round.span.closing < template.utf8ByteSize
  opening_lt_nameEnd : round.span.opening + 1 ≤ round.span.nameEnd
  nameEnd_le_closing : round.span.nameEnd ≤ round.span.closing
  isValid_nameStart : String.Pos.Raw.IsValid template ⟨round.span.opening + 1⟩
  isValid_nameEnd : String.Pos.Raw.IsValid template ⟨round.span.nameEnd⟩
  start_lt_next : round.start < round.span.closing + 1

/-! ## The search for a brace -/

theorem drop_of_getElem? {bytes : List UInt8} {position : Nat} {byte : UInt8}
    (h : bytes[position]? = some byte) :
    bytes.drop position = byte :: bytes.drop (position + 1) := by
  rw [List.drop_eq_getElem?_toList_append, h]
  rfl

/-- A search asks for no byte outside the text, and finds what the scan of the bytes finds. Between
two runs it holds the limit in place of a position. -/
theorem Brace.search_eq {brace : Brace} {bytes : List UInt8} {found run mark position : Nat}
    (hfound : found = if run = 0 then bytes.length else mark) :
    brace.search bytes bytes.length found run position =
      .ok ((brace.scan position run mark (bytes.drop position)).getD bytes.length) := by
  fun_induction Brace.search brace bytes bytes.length found run position generalizing mark with
  | case1 found run position hlt hbyte =>
    rw [List.getElem?_eq_getElem hlt] at hbyte
    cases hbyte
  | case2 found run position hlt byte hbyte hends heven ih =>
    -- an even run holds no brace that counts
    rw [@ih mark rfl, drop_of_getElem? hbyte, scan, if_neg hends.2, if_neg (by omega)]
  | case3 found run position hlt byte hbyte hends hodd =>
    rw [drop_of_getElem? hbyte, scan, if_neg hends.2, if_pos (by omega), Option.getD_some, hfound,
      if_neg (by omega)]
  | case4 found run position hlt hbyte hends ih =>
    have hcounting : brace.counting run found position = brace.counting run mark position := by
      rw [counting, counting]
      split
      · rw [hfound, if_neg (by omega)]
      · rfl
    rw [ih (if_neg (Nat.succ_ne_zero run)).symm, hcounting, drop_of_getElem? hbyte, scan,
      if_pos rfl]
    rfl
  | case5 found run position hlt byte hbyte hends hother ih =>
    obtain rfl : run = 0 := Nat.eq_zero_of_not_pos fun hrun => hends ⟨hrun, hother⟩
    rw [ih hfound, drop_of_getElem? hbyte, scan, if_neg hother, if_neg (by omega)]
  | case6 found run position hend heven =>
    rw [List.drop_eq_nil_of_le (Nat.le_of_not_lt hend), scan, if_neg (by omega), Option.getD_none]
  | case7 found run position hend hodd =>
    rw [List.drop_eq_nil_of_le (Nat.le_of_not_lt hend), scan, hfound]
    by_cases hrun : run = 0
    · rw [if_pos hrun, if_neg (by omega), Option.getD_none]
    · rw [if_neg hrun, if_pos (by omega), Option.getD_some]

/-- A search from a position finds the next real brace from there on, or the limit. -/
theorem Brace.search_eq_find (brace : Brace) (bytes : List UInt8) (position : Nat) :
    brace.search bytes bytes.length bytes.length 0 position =
      .ok ((brace.find position (bytes.drop position)).getD bytes.length) :=
  search_eq rfl

/-- What is found is a brace. -/
theorem Brace.getElem?_of_scan {brace : Brace} {offset run mark found : Nat} {bytes : List UInt8}
    (h : brace.scan offset run mark bytes = some found) :
    0 < run ∧ found = mark ∨ offset ≤ found ∧ bytes[found - offset]? = some brace.code := by
  induction bytes generalizing offset run mark with
  | nil =>
    rw [scan] at h
    split at h
    · exact .inl ⟨by omega, (Option.some.inj h).symm⟩
    · cases h
  | cons byte rest ih =>
    have hrest (hlater : offset + 1 ≤ found ∧ rest[found - (offset + 1)]? = some brace.code) :
        offset ≤ found ∧ (byte :: rest)[found - offset]? = some brace.code := by
      have hsucc : found - offset = found - (offset + 1) + 1 := by omega
      rw [hsucc, List.getElem?_cons_succ]
      exact ⟨by omega, hlater.2⟩
    rw [scan] at h
    split at h
    · next hbyte =>
      dsimp only at h
      rcases ih h with ⟨-, hmark⟩ | hlater
      · split at hmark
        · next hkept => exact .inl ⟨hkept.2, hmark⟩
        · right
          rw [hmark, Nat.sub_self, hbyte]
          exact ⟨Nat.le_refl offset, rfl⟩
      · exact .inr (hrest hlater)
    · split at h
      · exact .inl ⟨by omega, (Option.some.inj h).symm⟩
      · rcases ih h with ⟨hrun, -⟩ | hlater
        · exact absurd hrun (Nat.lt_irrefl 0)
        · exact .inr (hrest hlater)

theorem Brace.getElem?_of_find {brace : Brace} {bytes : List UInt8} {position found : Nat}
    (h : brace.find position (bytes.drop position) = some found) :
    position ≤ found ∧ bytes[found]? = some brace.code := by
  rcases getElem?_of_scan h with ⟨hrun, -⟩ | ⟨hle, hcode⟩
  · exact absurd hrun (Nat.lt_irrefl 0)
  · rw [List.getElem?_drop, Nat.add_sub_cancel' hle] at hcode
    exact ⟨hle, hcode⟩

/-! ## Parts of a text -/

theorem bytesBetween_of_le {bytes : List UInt8} {first last : Nat} (hle : first ≤ last)
    (hlast : last ≤ bytes.length) :
    bytesBetween bytes first last = .ok ((bytes.drop first).take (last - first)) :=
  if_pos ⟨hle, hlast⟩

/-- A part between two characters can be cut out. -/
theorem textBetween_ofList (before part after : List Char) :
    textBetween (String.ofList (before ++ (part ++ after))) (encode before).length
      (encode (before ++ part)).length = .ok (String.ofList part) := by
  have hvalid := isValid_length_encode (before ++ part) after
  rw [List.append_assoc] at hvalid
  have hpart : ((encode (before ++ (part ++ after))).drop (encode before).length).take
      ((encode (before ++ part)).length - (encode before).length) = encode part := by
    simp only [encode_append, List.drop_left, List.length_append, Nat.add_sub_cancel_left,
      List.take_left]
  rw [textBetween, if_pos ⟨isValid_length_encode before (part ++ after), hvalid⟩, bytes_ofList,
    bytesBetween_of_le, hpart, Except.bind, ofBytes?_encode, Option.elim_some]
  · simp only [encode_append, List.length_append]
    omega
  · simp only [encode_append, List.length_append]
    omega

/-! ## The end of a name -/

theorem length_takeWhile_not_isDelimiter (inside : List UInt8) :
    (inside.takeWhile fun byte => !isDelimiter byte).length = inside.findIdx isDelimiter := by
  rw [List.takeWhile_eq_take_findIdx_not, List.length_take]
  simp only [Bool.not_not]
  exact Nat.min_eq_left List.findIdx_le_length

/-- Without a delimiter the name ends at the closing brace. -/
theorem elim_findIdx? {inside : List UInt8} {first last : Nat}
    (hlast : first + inside.length = last) :
    (inside.findIdx? isDelimiter).elim last (first + ·) = first + inside.findIdx isDelimiter := by
  rw [List.findIdx_eq_getD_findIdx?]
  cases inside.findIdx? isDelimiter with
  | none => exact hlast.symm
  | some index => rfl

theorem exists_char_of_isDelimiter {byte : UInt8} (h : isDelimiter byte = true) :
    ∃ c : Char, c.toNat < 0x80 ∧ byte = UInt8.ofNat c.toNat := by
  rw [isDelimiter, Bool.or_eq_true, beq_iff_eq, beq_iff_eq] at h
  rcases h with rfl | rfl
  · exact ⟨',', by decide, rfl⟩
  · exact ⟨':', by decide, rfl⟩

/-- The byte that ends a name is an ASCII character: a delimiter or the closing brace. -/
theorem exists_char_at_nameEnd {bytes : List UInt8} {first last : Nat} (hle : first ≤ last)
    (hclosing : bytes[last]? = some Brace.closing.code) :
    ∃ c : Char, c.toNat < 0x80 ∧
      bytes[first + ((bytes.drop first).take (last - first)).findIdx isDelimiter]? =
        some (UInt8.ofNat c.toNat) := by
  have hlength : ((bytes.drop first).take (last - first)).length = last - first := by
    have hlast := (List.getElem?_eq_some_iff.mp hclosing).1
    rw [List.length_take, List.length_drop]
    omega
  by_cases hfound : ((bytes.drop first).take (last - first)).findIdx isDelimiter <
      ((bytes.drop first).take (last - first)).length
  · obtain ⟨c, hc, hbyte⟩ := exists_char_of_isDelimiter (List.findIdx_getElem (w := hfound))
    refine ⟨c, hc, ?_⟩
    rw [← hbyte, ← List.getElem?_eq_getElem hfound, List.getElem?_take,
      if_pos (Nat.lt_of_lt_of_eq hfound hlength), List.getElem?_drop]
  · have hend := Nat.le_antisymm List.findIdx_le_length (Nat.le_of_not_lt hfound)
    refine ⟨Brace.closing.char, Brace.closing.char_lt, ?_⟩
    rw [hend, hlength, Nat.add_sub_cancel' hle, hclosing, Brace.code_eq]

/-! ## One round -/

/-- Where a real opening and a real closing brace are found, the text behind the opening one starts
with the name. -/
theorem exists_name_of_find {template : List Char} {start first last : Nat}
    (hopen : Brace.opening.find start ((encode template).drop start) = some first)
    (hclose : Brace.closing.find first ((encode template).drop first) = some last) :
    start ≤ first ∧ first < last ∧ last < (encode template).length ∧
      ∃ front name after, template = front ++ (name ++ after) ∧
        (encode front).length = first + 1 ∧
        (encode name).length =
          (((encode template).drop (first + 1)).take (last - (first + 1))).findIdx isDelimiter := by
  obtain ⟨hstart, hfirst⟩ := Brace.getElem?_of_find hopen
  obtain ⟨hle, hlast⟩ := Brace.getElem?_of_find hclose
  have hlt : first < last := by
    refine Nat.lt_of_le_of_ne hle ?_
    rintro rfl
    exact absurd (hfirst.symm.trans hlast) (by decide)
  refine ⟨hstart, hlt, (List.getElem?_eq_some_iff.mp hlast).1, ?_⟩
  rw [Brace.code_eq] at hfirst
  obtain ⟨before, rest, rfl, rfl⟩ := exists_append_of_getElem?_encode Brace.opening.char_lt hfirst
  have hfront : (encode (before ++ [Brace.opening.char])).length = (encode before).length + 1 := by
    rw [encode_append, Brace.encode_char, List.length_append]
    rfl
  have hdrop : (encode (before ++ Brace.opening.char :: rest)).drop ((encode before).length + 1) =
      encode rest := by
    rw [List.append_cons, encode_append, ← hfront, List.drop_left]
  -- the byte at the end of the name is a whole character as well
  obtain ⟨c, hc, hend⟩ := exists_char_at_nameEnd hlt hlast
  rw [hdrop, ← List.getElem?_drop, hdrop] at hend
  obtain ⟨name, after, rfl, hname⟩ := exists_append_of_getElem?_encode hc hend
  rw [hdrop]
  exact ⟨before ++ [Brace.opening.char], name, c :: after, List.append_cons .., hfront, hname.symm⟩

theorem ok_bind {α β : Type} (value : α) (next : α → Except Fault β) :
    (Except.ok value >>= next) = next value := rfl

section

variable {front name after : List Char} {start first last : Nat}

theorem name_ofList (hfront : (encode front).length = first + 1) :
    Span.name ⟨first, first + 1 + (encode name).length, last⟩
      (encode (front ++ (name ++ after))) = trim (String.ofList name) := by
  have hbytes : Span.nameBytes ⟨first, first + 1 + (encode name).length, last⟩
      (encode (front ++ (name ++ after))) = encode name := by
    rw [Span.nameBytes, Nat.add_sub_cancel_left, encode_append, ← hfront, List.drop_left,
      encode_append, List.take_left]
  rw [Span.name, hbytes, ofBytes?_encode, Option.getD_some]

-- from here on the name stands behind the first of two braces

variable (hfront : (encode front).length = first + 1)
  (hname : (encode name).length = (((encode (front ++ (name ++ after))).drop (first + 1)).take
    (last - (first + 1))).findIdx isDelimiter)
  (hlt : first < last) (hlast : last < (encode (front ++ (name ++ after))).length)

include hfront hname hlt hlast

theorem roundBetween_ofList :
    roundBetween (String.ofList (front ++ (name ++ after))) start first last =
      .ok ⟨start, ⟨first, first + 1 + (encode name).length, last⟩, trim (String.ofList name)⟩ := by
  have hcutInside := bytesBetween_of_le (show first + 1 ≤ last from hlt) (Nat.le_of_lt hlast)
  have hlength : (((encode (front ++ (name ++ after))).drop (first + 1)).take
      (last - (first + 1))).length = last - (first + 1) := by
    rw [List.length_take, List.length_drop]
    omega
  have hcutName : textBetween (String.ofList (front ++ (name ++ after))) (first + 1)
      (first + 1 + (encode name).length) = .ok (String.ofList name) := by
    have hboth : (encode (front ++ name)).length = first + 1 + (encode name).length := by
      rw [encode_append, List.length_append, hfront]
    rw [← hboth, ← hfront]
    exact textBetween_ofList front name after
  rw [roundBetween, bytes_ofList, hcutInside, ok_bind]
  dsimp only
  rw [elim_findIdx? (by omega), ← hname, hcutName, ok_bind]
  rfl

theorem sound_ofList (hstart : start ≤ first) :
    Round.Sound (String.ofList (front ++ (name ++ after)))
      ⟨start, ⟨first, first + 1 + (encode name).length, last⟩, trim (String.ofList name)⟩ := by
  have hnameEnd : (encode name).length ≤ last - (first + 1) := by
    rw [hname]
    exact Nat.le_trans List.findIdx_le_length (List.length_take_le _ _)
  have hstartValid := isValid_length_encode front (name ++ after)
  have hendValid := isValid_length_encode (front ++ name) after
  rw [hfront] at hstartValid
  rw [encode_append, List.length_append, hfront, List.append_assoc] at hendValid
  constructor <;> dsimp only
  · exact hstart
  · exact hlt
  · rw [← length_bytes, bytes_ofList]
    exact hlast
  · omega
  · omega
  · exact hstartValid
  · exact hendValid
  · omega

end

section

variable {template : String} {start first last : Nat}

theorem round?_of_find_opening
    (hopen : Brace.opening.find start ((bytes template).drop start) = none) :
    round? template start = .ok none := by
  rw [round?]
  split
  · rfl
  · rw [Brace.search_eq_find, hopen, Option.getD_none, ok_bind]
    exact if_pos rfl

theorem round?_of_find_closing
    (hopen : Brace.opening.find start ((bytes template).drop start) = some first)
    (hclose : Brace.closing.find first ((bytes template).drop first) = none) :
    round? template start = .ok none := by
  rw [round?]
  split
  · rfl
  · rw [Brace.search_eq_find, hopen, Option.getD_some, ok_bind]
    split
    · rfl
    · rw [Brace.search_eq_find, hclose, Option.getD_none, ok_bind]
      exact if_pos rfl

theorem round?_of_find
    (hopen : Brace.opening.find start ((bytes template).drop start) = some first)
    (hclose : Brace.closing.find first ((bytes template).drop first) = some last) :
    round? template start = (roundBetween template start first last).map some := by
  obtain ⟨hstart, hfirst⟩ := Brace.getElem?_of_find hopen
  obtain ⟨-, hlast⟩ := Brace.getElem?_of_find hclose
  have hfirst := (List.getElem?_eq_some_iff.mp hfirst).1
  have hlast := (List.getElem?_eq_some_iff.mp hlast).1
  rw [round?, if_neg (Nat.not_le_of_lt (Nat.lt_of_le_of_lt hstart hfirst)), Brace.search_eq_find,
    hopen, Option.getD_some, ok_bind, if_neg (Nat.ne_of_lt hfirst), Brace.search_eq_find, hclose,
    Option.getD_some, ok_bind, if_neg (Nat.ne_of_lt hlast)]
  rfl

/-- Between two real braces a placeholder can be read, with all positions in bounds. -/
theorem roundBetween_of_find
    (hopen : Brace.opening.find start ((bytes template).drop start) = some first)
    (hclose : Brace.closing.find first ((bytes template).drop first) = some last) :
    ∃ round, roundBetween template start first last = .ok round ∧ round.Sound template ∧
      round.start = start ∧ round.name = round.span.name (bytes template) ∧
      round.span = ⟨first, first + 1 + ((((bytes template).drop (first + 1)).take
        (last - (first + 1))).takeWhile fun byte => !isDelimiter byte).length, last⟩ := by
  obtain ⟨text, rfl⟩ : ∃ text, template = String.ofList text :=
    ⟨template.toList, String.ofList_toList.symm⟩
  rw [bytes_ofList] at hopen hclose ⊢
  obtain ⟨hstart, hlt, hlast, front, name, after, rfl, hfront, hname⟩ :=
    exists_name_of_find hopen hclose
  refine ⟨⟨start, ⟨first, first + 1 + (encode name).length, last⟩, trim (String.ofList name)⟩,
    roundBetween_ofList hfront hname hlt hlast,
    sound_ofList hfront hname hlt hlast hstart, rfl, (name_ofList hfront).symm, ?_⟩
  rw [length_takeWhile_not_isDelimiter, hname]

end

/-- What a round does from any position: it reads the next placeholder, with all positions in
bounds, or stops where no placeholder follows. -/
theorem round?_cases (template : String) (start : Nat) :
    (round? template start = .ok none ∧ spansFrom start ((bytes template).drop start) = []) ∨
    ∃ round, round? template start = .ok (some round) ∧ round.start = start ∧
      round.Sound template ∧ round.name = round.span.name (bytes template) ∧
      spansFrom start ((bytes template).drop start) =
        round.span :: spansFrom (round.span.closing + 1)
          ((bytes template).drop (round.span.closing + 1)) := by
  cases hopen : Brace.opening.find start ((bytes template).drop start) with
  | none => exact .inl ⟨round?_of_find_opening hopen, spansFrom_of_find_opening hopen⟩
  | some first =>
    have hstart := (Brace.getElem?_of_find hopen).1
    have hdrop : ((bytes template).drop start).drop (first - start) =
        (bytes template).drop first := by
      rw [List.drop_drop, Nat.add_sub_cancel' hstart]
    cases hclose : Brace.closing.find first ((bytes template).drop first) with
    | none =>
      refine .inl ⟨round?_of_find_closing hopen hclose, spansFrom_of_find_closing hopen ?_⟩
      rw [hdrop, hclose]
    | some last =>
      have hle := (Brace.getElem?_of_find hclose).1
      obtain ⟨round, hround, hsound, hroundStart, hname, hspan⟩ := roundBetween_of_find hopen hclose
      refine .inr ⟨round, ?_, hroundStart, hsound, hname, ?_⟩
      · rw [round?_of_find hopen hclose, hround]
        rfl
      · have hinside : ((bytes template).drop start).drop (first + 1 - start) =
            (bytes template).drop (first + 1) := by
          rw [List.drop_drop, Nat.add_sub_cancel' (by omega)]
        have hnext : ((bytes template).drop start).drop (last + 1 - start) =
            (bytes template).drop (last + 1) := by
          rw [List.drop_drop, Nat.add_sub_cancel' (by omega)]
        rw [spansFrom_of_find hopen (by rw [hdrop, hclose]), hinside, hnext, hspan]

/-! ## All rounds -/

theorem Rounds.unique {template : String} {start : Nat} {rounds others : List Round}
    (h : Rounds template start rounds) (h' : Rounds template start others) : rounds = others := by
  induction h generalizing others with
  | done hround =>
    cases h' with
    | done => rfl
    | next hround' => cases hround.symm.trans hround'
  | next hround _ ih =>
    cases h' with
    | done hround' => cases hround.symm.trans hround'
    | next hround' hothers =>
      cases hround.symm.trans hround'
      rw [ih hothers]

/-- The rounds from any position end, and read the placeholders that follow. -/
theorem exists_rounds (template : String) (start : Nat) :
    ∃ rounds, Rounds template start rounds ∧
      rounds.map Round.span = spansFrom start ((bytes template).drop start) ∧
      ∀ round ∈ rounds, round.Sound template ∧ round.name = round.span.name (bytes template) := by
  rcases round?_cases template start with
    ⟨hround, hspans⟩ | ⟨round, hround, hstart, hsound, hname, hspans⟩
  · exact ⟨[], .done hround, hspans.symm, List.forall_mem_nil _⟩
  · have hnext := hsound.start_lt_next
    have hclosing := hsound.closing_lt
    obtain ⟨others, hothers, hmap, hall⟩ := exists_rounds template (round.span.closing + 1)
    refine ⟨round :: others, .next hround hothers, ?_,
      List.forall_mem_cons.mpr ⟨⟨hsound, hname⟩, hall⟩⟩
    rw [List.map_cons, hmap, hspans]
termination_by template.utf8ByteSize - start
decreasing_by omega

/-- A template can be read by positions, whatever it is. No search asks for a byte outside the text.
Every round, from any position, does what it is meant to: no part is cut out of bounds or inside a
character, and it ends with the reading or leads to a later position. So all rounds from the start
end, in one way only, and they give the names of the template. -/
theorem parse_by_positions (template : String) :
    (∀ brace : Brace, ∀ start, ∃ position,
      brace.search (bytes template) (bytes template).length (bytes template).length 0 start =
        .ok position) ∧
    (∀ start, round? template start = .ok none ∨
      ∃ round, round? template start = .ok (some round) ∧ round.start = start ∧
        round.Sound template) ∧
    ∃ rounds, (∀ others, Rounds template 0 others ↔ others = rounds) ∧
      (∀ round ∈ rounds, round.Sound template) ∧
      rounds.map Round.span = spans template ∧ rounds.map Round.name = parse template := by
  refine ⟨fun brace start => ⟨_, brace.search_eq_find (bytes template) start⟩, fun start => ?_, ?_⟩
  · rcases round?_cases template start with ⟨hround, -⟩ | ⟨round, hround, hstart, hsound, -⟩
    · exact .inl hround
    · exact .inr ⟨round, hround, hstart, hsound⟩
  · obtain ⟨rounds, hrounds, hspans, hall⟩ := exists_rounds template 0
    refine ⟨rounds, fun others => ⟨fun hothers => hothers.unique hrounds, ?_⟩,
      fun round hround => (hall round hround).1, hspans, ?_⟩
    · rintro rfl
      exact hrounds
    · rw [parse, spans]
      rw [List.drop_zero] at hspans
      rw [← hspans, List.map_map]
      exact List.map_congr_left fun round hround => (hall round hround).2

/-- Positions count bytes: each of the two letters takes two of them. -/
example : (round? "é {ü,4}" 0).toOption = some (some ⟨0, ⟨3, 6, 8⟩, "ü"⟩) := by
  decide +kernel

end LogCensus.Template
