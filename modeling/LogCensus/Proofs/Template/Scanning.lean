import LogCensus.Proofs.Text.Encoding
import LogCensus.Template

/-!
# The scan for a brace, character by character

The scan for a real brace runs over bytes. Here it is described by the characters that the bytes
spell: what one character does to the state of the scan, and that the offset at which the bytes
start only shifts the answer.

* `Brace.scan_char`, `Brace.scan_brace`: one step over any other character, and over the brace.
* `Brace.find_skip`: a text without the brace is passed over.
* `Brace.find_shift`: the answer moves with the offset.
-/

namespace LogCensus.Template

open Text

/-- The character of a brace. -/
def Brace.char : Brace → Char
  | .opening => '{'
  | .closing => '}'

theorem Brace.char_lt (brace : Brace) : brace.char.toNat < 0x80 := by
  cases brace <;> decide

theorem Brace.code_eq (brace : Brace) : brace.code = UInt8.ofNat brace.char.toNat := by
  cases brace <;> rfl

/-- A brace is encoded as its one byte. -/
theorem Brace.encode_char (brace : Brace) (text : List Char) :
    encode (brace.char :: text) = brace.code :: encode text := by
  rw [encode_cons, utf8EncodeChar_of_lt brace.char_lt, brace.code_eq]
  rfl

/-- No byte of another character is the byte of the brace. -/
theorem Brace.code_not_mem {brace : Brace} {c : Char} (hc : c ≠ brace.char) :
    brace.code ∉ String.utf8EncodeChar c := by
  rw [brace.code_eq, mem_utf8EncodeChar brace.char_lt]
  exact hc

theorem Brace.code_not_mem_encode {brace : Brace} {text : List Char} (h : brace.char ∉ text) :
    brace.code ∉ encode text := by
  intro hmem
  obtain ⟨c, hc, hbyte⟩ := List.mem_flatMap.mp hmem
  exact code_not_mem (fun heq => h (heq ▸ hc)) hbyte

/-! ## Steps of the scan -/

/-- Between two runs the mark is not yet set, and its value does not matter. -/
theorem Brace.scan_mark (brace : Brace) (offset mark mark' : Nat) (bytes : List UInt8) :
    brace.scan offset 0 mark bytes = brace.scan offset 0 mark' bytes := by
  induction bytes generalizing offset with
  | nil => rfl
  | cons byte rest ih =>
    simp only [scan, Nat.lt_irrefl, and_false, if_false]
    split
    · -- the first brace of a run sets the mark
      rfl
    · simpa using ih (offset + 1)

/-- Bytes that are not the brace are passed over between two runs. -/
theorem Brace.scan_skip {brace : Brace} {skipped : List UInt8} (h : brace.code ∉ skipped)
    (offset mark : Nat) (rest : List UInt8) :
    brace.scan offset 0 mark (skipped ++ rest) =
      brace.scan (offset + skipped.length) 0 mark rest := by
  induction skipped generalizing offset with
  | nil => rfl
  | cons byte skipped ih =>
    rw [List.mem_cons, not_or] at h
    rw [List.cons_append, scan, if_neg (Ne.symm h.1), if_neg (by omega), ih h.2,
      List.length_cons, Nat.add_assoc, Nat.add_comm 1]

/-- One more brace of a run. -/
theorem Brace.scan_brace (brace : Brace) (offset run mark : Nat) (text : List Char) :
    brace.scan offset run mark (encode (brace.char :: text)) =
      brace.scan (offset + 1) (run + 1)
        (if brace = .closing ∧ 0 < run then mark else offset) (encode text) := by
  rw [brace.encode_char, scan, if_pos rfl]

/-- Any other character ends a run: the run's own brace is found when the run is odd. -/
theorem Brace.scan_char {brace : Brace} {c : Char} (hc : c ≠ brace.char)
    (offset run mark : Nat) (text : List Char) :
    brace.scan offset run mark (encode (c :: text)) =
      if run % 2 = 1 then some mark
      else brace.scan (offset + (String.utf8EncodeChar c).length) 0 mark (encode text) := by
  have hbytes := brace.code_not_mem hc
  rw [encode_cons]
  cases hcode : String.utf8EncodeChar c with
  | nil => exact absurd hcode String.utf8EncodeChar_ne_nil
  | cons byte others =>
    -- the first byte ends the run, and the others are passed over
    rw [hcode, List.mem_cons, not_or] at hbytes
    rw [List.cons_append, scan, if_neg (Ne.symm hbytes.1), scan_skip hbytes.2,
      List.length_cons, Nat.add_assoc, Nat.add_comm 1]

/-- An odd run that nothing continues gives its brace. -/
theorem Brace.scan_odd {brace : Brace} {run : Nat} (hodd : run % 2 = 1) {text : List Char}
    (hend : text.head? ≠ some brace.char) (offset mark : Nat) :
    brace.scan offset run mark (encode text) = some mark := by
  cases text with
  | nil => rw [encode_nil, scan, if_pos hodd]
  | cons c rest =>
    have hc : c ≠ brace.char := fun heq => hend (by rw [heq]; rfl)
    rw [scan_char hc, if_pos hodd]

/-- A text without the brace is passed over by the search. -/
theorem Brace.find_skip (brace : Brace) {skipped : List Char} (h : brace.char ∉ skipped)
    (offset : Nat) (rest : List Char) :
    brace.find offset (encode (skipped ++ rest)) =
      brace.find (offset + (encode skipped).length) (encode rest) := by
  unfold find
  rw [encode_append, scan_skip (code_not_mem_encode h)]
  exact brace.scan_mark ..

/-! ## Offsets -/

theorem Brace.scan_shift (brace : Brace) (distance offset run mark : Nat) (bytes : List UInt8) :
    brace.scan (distance + offset) run (distance + mark) bytes =
      (brace.scan offset run mark bytes).map (distance + ·) := by
  induction bytes generalizing offset run mark with
  | nil => simp only [scan]; split <;> rfl
  | cons byte rest ih =>
    simp only [scan]
    split
    · rw [← ih, Nat.add_assoc]
      split <;> rfl
    · split
      · rfl
      · rw [← ih, Nat.add_assoc]

/-- The answer of a search moves with the offset of the bytes. -/
theorem Brace.find_shift (brace : Brace) (distance offset : Nat) (bytes : List UInt8) :
    brace.find (distance + offset) bytes = (brace.find offset bytes).map (distance + ·) :=
  brace.scan_shift distance offset 0 offset bytes

end LogCensus.Template
