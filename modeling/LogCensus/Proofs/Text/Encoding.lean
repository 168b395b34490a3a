import LogCensus.Text.Utf8

/-!
# Encoded characters

A text is searched as a list of bytes, and its meaning is a list of characters. `encode` leads from
the one to the other, character by character. A byte below 0x80 is always a whole character, so a
search for an ASCII character among the bytes finds exactly that character (`mem_utf8EncodeChar`).
-/

namespace LogCensus.Text

/-- The bytes of a list of characters. -/
def encode (text : List Char) : List UInt8 :=
  text.flatMap String.utf8EncodeChar

@[simp] theorem encode_nil : encode [] = [] := rfl

theorem encode_cons (c : Char) (text : List Char) :
    encode (c :: text) = String.utf8EncodeChar c ++ encode text := rfl

@[simp] theorem encode_append (left right : List Char) :
    encode (left ++ right) = encode left ++ encode right :=
  List.flatMap_append

theorem utf8Encode_eq (text : List Char) : text.utf8Encode = ⟨(encode text).toArray⟩ := by
  apply ByteArray.ext
  simp [List.utf8Encode, encode]

theorem bytes_ofList (text : List Char) : bytes (String.ofList text) = encode text := by
  unfold bytes
  rw [String.toUTF8_eq_toByteArray, String.toByteArray_ofList, utf8Encode_eq]

theorem ofBytes?_encode (text : List Char) :
    ofBytes? (encode text) = some (String.ofList text) := by
  have hvalid : (⟨(encode text).toArray⟩ : ByteArray).IsValidUTF8 :=
    ⟨text, (utf8Encode_eq text).symm⟩
  unfold ofBytes? String.fromUTF8?
  rw [dif_pos hvalid]
  -- texts with the same bytes are equal
  congr 1
  rw [← String.toByteArray_inj, String.toByteArray_ofList, utf8Encode_eq]
  rfl

/-- A text is read back from its bytes. -/
theorem ofBytes?_bytes (text : String) : ofBytes? (bytes text) = some text := by
  rw [← String.ofList_toList (s := text), bytes_ofList, ofBytes?_encode]

/-- An ASCII character is one byte. -/
theorem utf8EncodeChar_of_lt {c : Char} (h : c.toNat < 0x80) :
    String.utf8EncodeChar c = [UInt8.ofNat c.toNat] := by
  have hle : c.val.toNat ≤ 0x7f := Nat.le_of_lt_succ h
  unfold String.utf8EncodeChar
  rw [if_pos hle]
  rfl

/-- Every byte of any other character has its highest bit set. -/
theorem le_of_mem_utf8EncodeChar {c : Char} {byte : UInt8} (h : 0x80 ≤ c.toNat)
    (hmem : byte ∈ String.utf8EncodeChar c) : 0x80 ≤ byte.toNat := by
  have hle : ¬ c.val.toNat ≤ 0x7f := by
    show ¬ c.toNat ≤ 0x7f
    omega
  unfold String.utf8EncodeChar at hmem
  simp only [if_neg hle] at hmem
  -- two, three or four bytes; each adds its bits to a tag of at least 0x80
  split at hmem
  · simp only [List.mem_cons, List.not_mem_nil, or_false] at hmem
    rcases hmem with rfl | rfl <;> simp only [UInt8.toNat_ofNat'] <;> omega
  · split at hmem
    · simp only [List.mem_cons, List.not_mem_nil, or_false] at hmem
      rcases hmem with rfl | rfl | rfl <;> simp only [UInt8.toNat_ofNat'] <;> omega
    · simp only [List.mem_cons, List.not_mem_nil, or_false] at hmem
      rcases hmem with rfl | rfl | rfl | rfl <;> simp only [UInt8.toNat_ofNat'] <;> omega

/-- The byte of an ASCII character occurs only in the encoding of that character. -/
theorem mem_utf8EncodeChar {mark : Char} (h : mark.toNat < 0x80) (c : Char) :
    UInt8.ofNat mark.toNat ∈ String.utf8EncodeChar c ↔ c = mark := by
  constructor
  · intro hmem
    by_cases hc : c.toNat < 0x80
    · rw [utf8EncodeChar_of_lt hc, List.mem_singleton] at hmem
      have hcode : mark.toNat = c.toNat := by
        have := congrArg UInt8.toNat hmem
        simp only [UInt8.toNat_ofNat'] at this
        omega
      exact Char.ext (UInt32.toNat_inj.mp hcode.symm)
    · have := le_of_mem_utf8EncodeChar (by omega) hmem
      simp only [UInt8.toNat_ofNat'] at this
      omega
  · rintro rfl
    rw [utf8EncodeChar_of_lt h]
    exact List.mem_singleton_self _

/-! ## Positions between characters -/

theorem length_bytes (text : String) : (bytes text).length = text.utf8ByteSize := rfl

/-- A byte that is an ASCII character stands between two characters. -/
theorem exists_append_of_getElem?_encode {text : List Char} {mark : Char}
    (hmark : mark.toNat < 0x80)
    {position : Nat} (h : (encode text)[position]? = some (UInt8.ofNat mark.toNat)) :
    ∃ before after, text = before ++ mark :: after ∧ position = (encode before).length := by
  induction text generalizing position with
  | nil => cases h
  | cons c rest ih =>
    rw [encode_cons] at h
    by_cases hposition : position < (String.utf8EncodeChar c).length
    · rw [List.getElem?_append_left hposition] at h
      have hc : c = mark := (mem_utf8EncodeChar hmark c).mp (List.mem_of_getElem? h)
      subst hc
      rw [utf8EncodeChar_of_lt hmark, List.length_singleton, Nat.lt_one_iff] at hposition
      exact ⟨[], rest, rfl, hposition⟩
    · rw [List.getElem?_append_right (Nat.le_of_not_lt hposition)] at h
      obtain ⟨before, after, rfl, hlength⟩ := ih h
      refine ⟨c :: before, after, rfl, ?_⟩
      rw [encode_cons, List.length_append]
      omega

theorem isValid_length_encode (before after : List Char) :
    String.Pos.Raw.IsValid (String.ofList (before ++ after)) ⟨(encode before).length⟩ := by
  rw [String.Pos.Raw.isValid_ofList]
  refine ⟨before.length, ?_⟩
  rw [List.take_left, ← length_bytes, bytes_ofList]

end LogCensus.Text
