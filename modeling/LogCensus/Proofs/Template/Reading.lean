import LogCensus.Proofs.Template.Scanning

/-!
# Reading a template placeholder by placeholder

The placeholders of a template are found as byte offsets into the whole text. Here the offsets are
resolved: a template is read as its first placeholder followed by the reading of the text after it.

* `parse_placeholder`: the first placeholder, and the rest.
* `parse_of_find_opening`, `parse_of_find_closing`: a text without a placeholder.
-/

namespace LogCensus.Template

open Text

/-! ## One placeholder at a time -/

theorem spansFrom_of_find_opening {offset : Nat} {bytes : List UInt8}
    (hopen : Brace.opening.find offset bytes = none) : spansFrom offset bytes = [] := by
  rw [spansFrom]
  split
  · rfl
  · next hfound => rw [hopen] at hfound; cases hfound

theorem spansFrom_of_find_closing {offset first : Nat} {bytes : List UInt8}
    (hopen : Brace.opening.find offset bytes = some first)
    (hclose : Brace.closing.find first (bytes.drop (first - offset)) = none) :
    spansFrom offset bytes = [] := by
  rw [spansFrom]
  split
  · rfl
  · next hfound =>
    obtain rfl := Option.some.inj (hopen.symm.trans hfound)
    split
    · rfl
    · next hlast => rw [hclose] at hlast; cases hlast

theorem spansFrom_of_find {offset first last : Nat} {bytes : List UInt8}
    (hopen : Brace.opening.find offset bytes = some first)
    (hclose : Brace.closing.find first (bytes.drop (first - offset)) = some last) :
    spansFrom offset bytes =
      ⟨first, first + 1 + (((bytes.drop (first + 1 - offset)).take (last - (first + 1))).takeWhile
          fun byte => !isDelimiter byte).length, last⟩ ::
        spansFrom (last + 1) (bytes.drop (last + 1 - offset)) := by
  rw [spansFrom]
  split
  · next hnone => rw [hopen] at hnone; cases hnone
  · next hfound =>
    obtain rfl := Option.some.inj (hopen.symm.trans hfound)
    split
    · next hnone => rw [hclose] at hnone; cases hnone
    · next hlast =>
      obtain rfl := Option.some.inj (hclose.symm.trans hlast)
      rfl

/-! ## Placeholders of a later part -/

/-- A placeholder that starts a number of bytes later. -/
def Span.shift (distance : Nat) (span : Span) : Span :=
  ⟨distance + span.opening, distance + span.nameEnd, distance + span.closing⟩

/-- The offset at which the bytes start only moves the placeholders. -/
theorem spansFrom_shift (distance offset : Nat) (bytes : List UInt8) :
    spansFrom (distance + offset) bytes = (spansFrom offset bytes).map (Span.shift distance) := by
  -- along the recursion of the reader, where both searches move with the offset
  fun_induction spansFrom offset bytes with
  | case1 offset bytes hopen =>
    rw [spansFrom_of_find_opening (by rw [Brace.find_shift, hopen]; rfl)]
    rfl
  | case2 offset bytes first hopen hclose =>
    have hopen' : Brace.opening.find (distance + offset) bytes = some (distance + first) := by
      rw [Brace.find_shift, hopen]
      rfl
    rw [spansFrom_of_find_closing hopen']
    · rfl
    · rw [Nat.add_sub_add_left, Brace.find_shift, hclose]
      rfl
  | case3 offset bytes first hopen last hclose inside name ih =>
    have hopen' : Brace.opening.find (distance + offset) bytes = some (distance + first) := by
      rw [Brace.find_shift, hopen]
      rfl
    have hclose' : Brace.closing.find (distance + first)
        (bytes.drop (distance + first - (distance + offset))) = some (distance + last) := by
      rw [Nat.add_sub_add_left, Brace.find_shift, hclose]
      rfl
    rw [spansFrom_of_find hopen' hclose']
    simp only [Nat.add_assoc, Nat.add_sub_add_left, List.map_cons, ih]
    rfl

/-- The name of a placeholder does not depend on what stands before the bytes. -/
theorem Span.name_shift (before bytes : List UInt8) (span : Span) :
    (span.shift before.length).name (before ++ bytes) = span.name bytes := by
  have hname : (span.shift before.length).nameBytes (before ++ bytes) = span.nameBytes bytes := by
    unfold nameBytes shift
    simp only [Nat.add_assoc, Nat.add_sub_add_left, List.drop_length_add_append]
  unfold name
  rw [hname]

/-- The names found in the later part of a text are those of that part read on its own. -/
theorem map_name_spansFrom (before bytes : List UInt8) :
    (spansFrom before.length bytes).map (fun span => span.name (before ++ bytes)) =
      (spansFrom 0 bytes).map fun span => span.name bytes := by
  have hshift := spansFrom_shift before.length 0 bytes
  rw [Nat.add_zero] at hshift
  rw [hshift, List.map_map]
  exact List.map_congr_left fun span _ => span.name_shift before bytes

/-! ## Names -/

/-- Whether a character ends the name inside a placeholder: a comma or a colon. -/
def endsName (c : Char) : Bool :=
  c == ',' || c == ':'

/-- The name that the text between two braces gives. -/
def nameInside (inside : List Char) : String :=
  String.ofList (trimBlanks (inside.takeWhile fun c => !endsName c))

theorem utf8EncodeChar_of_endsName {c : Char} (h : endsName c = true) :
    ∃ byte, String.utf8EncodeChar c = [byte] ∧ isDelimiter byte = true := by
  simp only [endsName, Bool.or_eq_true, beq_iff_eq] at h
  rcases h with rfl | rfl
  · exact ⟨0x2C, rfl, rfl⟩
  · exact ⟨0x3A, rfl, rfl⟩

theorem isDelimiter_of_mem {c : Char} (h : endsName c = false) {byte : UInt8}
    (hmem : byte ∈ String.utf8EncodeChar c) : isDelimiter byte = false := by
  simp only [endsName, Bool.or_eq_false_iff, beq_eq_false_iff_ne] at h
  simp only [isDelimiter, Bool.or_eq_false_iff, beq_eq_false_iff_ne]
  constructor
  · rintro rfl
    have hcomma : ','.toNat < 0x80 := by decide
    exact h.1 ((mem_utf8EncodeChar hcomma c).mp hmem)
  · rintro rfl
    have hcolon : ':'.toNat < 0x80 := by decide
    exact h.2 ((mem_utf8EncodeChar hcolon c).mp hmem)

/-- The first delimiter among the bytes is the first one among the characters. -/
theorem takeWhile_encode (inside : List Char) :
    (encode inside).takeWhile (fun byte => !isDelimiter byte) =
      encode (inside.takeWhile fun c => !endsName c) := by
  induction inside with
  | nil => rfl
  | cons c rest ih =>
    rw [encode_cons]
    cases hc : endsName c with
    | true =>
      obtain ⟨byte, hbytes, hdelimiter⟩ := utf8EncodeChar_of_endsName hc
      rw [hbytes, List.takeWhile_cons_of_neg (by simp [hc])]
      exact List.takeWhile_cons_of_neg (by simp [hdelimiter])
    | false =>
      rw [List.takeWhile_append_of_pos, ih, List.takeWhile_cons_of_pos (by simp [hc]), encode_cons]
      intro byte hmem
      simp [isDelimiter_of_mem hc hmem]

/-- The name of a placeholder, taken from the bytes of the whole text. -/
theorem Span.name_between (before inside after : List UInt8) {text : List Char} (last : Nat)
    (hinside : inside = encode text) :
    Span.name ⟨before.length, before.length + 1 +
        (inside.takeWhile fun byte => !isDelimiter byte).length, last⟩
      (before ++ Brace.opening.code :: (inside ++ after)) = nameInside text := by
  subst hinside
  -- the name is a beginning of what follows the opening brace
  have hfound : (encode text).takeWhile (fun byte => !isDelimiter byte) <+: encode text ++ after :=
    (List.takeWhile_prefix _).trans (List.prefix_append _ _)
  unfold name nameBytes
  rw [Nat.add_sub_cancel_left, List.drop_length_add_append, List.drop_one, List.tail_cons,
    ← List.prefix_iff_eq_take.mp hfound, takeWhile_encode, ofBytes?_encode]
  simp [trim, nameInside]

/-! ## The reading of a text -/

theorem parse_ofList (text : List Char) :
    parse (String.ofList text) =
      (spansFrom 0 (encode text)).map fun span => span.name (encode text) := by
  unfold parse spans
  rw [bytes_ofList]

/-- Without a real opening brace there is no placeholder. -/
theorem parse_of_find_opening {text : List Char}
    (hopen : Brace.opening.find 0 (encode text) = none) : parse (String.ofList text) = [] := by
  rw [parse_ofList, spansFrom_of_find_opening hopen]
  rfl

/-- The search for the closing brace may as well start behind the opening one. -/
theorem find_closing_of_opening (offset : Nat) (text : List Char) :
    Brace.closing.find offset (encode (Brace.opening.char :: text)) =
      (Brace.closing.find 0 (encode text)).map (offset + 1 + ·) := by
  have hother : Brace.closing.char ∉ [Brace.opening.char] := by decide
  have hskip := Brace.closing.find_skip hother offset text
  rw [List.singleton_append] at hskip
  rw [hskip]
  exact Brace.closing.find_shift (offset + 1) 0 (encode text)

/-- An opening brace without a real closing one opens no placeholder. -/
theorem parse_of_find_closing {before after : List Char}
    (hopen : Brace.opening.find 0 (encode (before ++ Brace.opening.char :: after)) =
      some (encode before).length)
    (hclose : Brace.closing.find 0 (encode after) = none) :
    parse (String.ofList (before ++ Brace.opening.char :: after)) = [] := by
  rw [parse_ofList, spansFrom_of_find_closing hopen]
  · rfl
  · rw [Nat.sub_zero, encode_append, List.drop_left, find_closing_of_opening, hclose]
    rfl

/-- A text with a real opening and a real closing brace is read as the name between them, followed
by the reading of the text behind them. -/
theorem parse_placeholder {before inside after : List Char}
    (hopen : Brace.opening.find 0
        (encode (before ++ Brace.opening.char :: (inside ++ Brace.closing.char :: after))) =
      some (encode before).length)
    (hclose : Brace.closing.find 0 (encode (inside ++ Brace.closing.char :: after)) =
      some (encode inside).length) :
    parse (String.ofList
        (before ++ Brace.opening.char :: (inside ++ Brace.closing.char :: after))) =
      nameInside inside :: parse (String.ofList after) := by
  have hbytes : encode (before ++ Brace.opening.char :: (inside ++ Brace.closing.char :: after)) =
      encode before ++ Brace.opening.code ::
        (encode inside ++ encode (Brace.closing.char :: after)) := by
    rw [encode_append, Brace.encode_char, encode_append]
  have hlast : Brace.closing.find (encode before).length
      ((encode (before ++ Brace.opening.char :: (inside ++ Brace.closing.char :: after))).drop
        ((encode before).length - 0)) =
      some ((encode before).length + 1 + (encode inside).length) := by
    rw [Nat.sub_zero, encode_append, List.drop_left, find_closing_of_opening, hclose]
    rfl
  rw [parse_ofList, spansFrom_of_find hopen hlast, List.map_cons, List.cons.injEq]
  constructor
  · -- the name lies between the two braces
    have hinside : ((encode (before ++ Brace.opening.char ::
        (inside ++ Brace.closing.char :: after))).drop ((encode before).length + 1 - 0)).take
          ((encode before).length + 1 + (encode inside).length - ((encode before).length + 1)) =
        encode inside := by
      rw [hbytes, Nat.sub_zero, List.drop_length_add_append, List.drop_one, List.tail_cons,
        Nat.add_sub_cancel_left, List.take_left]
    rw [hinside, hbytes]
    exact Span.name_between (encode before) (encode inside) _ _ rfl
  · -- what follows is read as a text of its own
    let read := encode before ++ Brace.opening.code :: (encode inside ++ [Brace.closing.code])
    have hread : read.length = (encode before).length + 1 + (encode inside).length + 1 := by
      simp only [read, List.length_append, List.length_cons, List.length_nil]
      omega
    have hsplit : encode (before ++ Brace.opening.char ::
        (inside ++ Brace.closing.char :: after)) = read ++ encode after := by
      simp only [hbytes, Brace.encode_char, read, List.append_assoc, List.cons_append,
        List.nil_append]
    rw [hsplit, Nat.sub_zero, ← hread, List.drop_left, map_name_spansFrom, parse_ofList]

end LogCensus.Template
