import LogCensus.Text.Blank
import LogCensus.Text.Utf8

/-!
# Message templates

A template is a text with placeholders in braces, as in `User {UserId} logged in at {Time}`. Braces
are read in runs of equal braces: an even run is a sequence of doubled, literal braces, and an odd
run holds one real brace, the last of its run when it opens a placeholder and the first when it
closes one. Inside a placeholder, everything from the first `,` or `:` on is alignment and format
and not part of the name. A template is never refused: an opening brace without a closing one makes
the rest of the text literal.

* `Template.Brace.find`: one pass over the bytes for the next real brace of one kind.
* `Template.spans`: the byte offsets of all placeholders.
* `Template.parse`: the trimmed names, in order and with repetitions.
-/

namespace LogCensus.Template

/-- The two kinds of brace. -/
inductive Brace where
  | opening
  | closing
deriving DecidableEq

/-- The byte of a brace. -/
def Brace.code : Brace → UInt8
  | .opening => 0x7B
  | .closing => 0x7D

/-- The offset of the next real brace in `bytes`, which start at `offset`. So far `run` such braces
have just been read, and `mark` is the offset of the one among them that would count. -/
def Brace.scan (brace : Brace) (offset run mark : Nat) : List UInt8 → Option Nat
  | [] => if run % 2 = 1 then some mark else none
  | byte :: rest =>
    if byte = brace.code then
      -- the first closing brace of a run counts, and the last opening one
      let next := if brace = .closing ∧ 0 < run then mark else offset
      brace.scan (offset + 1) (run + 1) next rest
    else if run % 2 = 1 then some mark
    else brace.scan (offset + 1) 0 mark rest

/-- The offset of the next real brace in `bytes`, which start at `offset`. -/
def Brace.find (brace : Brace) (offset : Nat) (bytes : List UInt8) : Option Nat :=
  brace.scan offset 0 offset bytes

/-- Byte offsets of one placeholder: its opening brace, the end of its name and its closing
brace. -/
structure Span where
  opening : Nat
  nameEnd : Nat
  closing : Nat
deriving DecidableEq

/-- Whether a byte ends the name inside a placeholder: a comma or a colon. -/
def isDelimiter (byte : UInt8) : Bool :=
  byte == 0x2C || byte == 0x3A

/-! ## Bounds of the scan -/

theorem Brace.scan_bounds {brace : Brace} {offset run mark found : Nat} {bytes : List UInt8}
    (marked : 0 < run → mark < offset) (h : brace.scan offset run mark bytes = some found) :
    found < offset + bytes.length ∧ (0 < run ∧ found = mark ∨ offset ≤ found) := by
  induction bytes generalizing offset run mark with
  | nil =>
    simp only [scan] at h
    split at h <;> simp_all
    omega
  | cons byte rest ih =>
    simp only [scan] at h
    split at h
    · by_cases kept : brace = .closing ∧ 0 < run
      · rw [if_pos kept] at h
        have := ih (fun _ => Nat.lt_succ_of_lt (marked kept.2)) h
        simp only [List.length_cons]; omega
      · rw [if_neg kept] at h
        have := ih (fun _ => Nat.lt_succ_self offset) h
        simp only [List.length_cons]; omega
    · split at h
      · next odd =>
        have positive : 0 < run := by omega
        have := marked positive
        simp only [Option.some.injEq] at h
        subst h
        exact ⟨by simp only [List.length_cons]; omega, .inl ⟨positive, rfl⟩⟩
      · have := ih (fun positive => absurd positive (Nat.lt_irrefl 0)) h
        simp only [List.length_cons]; omega

/-- A brace that is found lies inside the bytes that were searched. -/
theorem Brace.find_bounds {brace : Brace} {offset found : Nat} {bytes : List UInt8}
    (h : brace.find offset bytes = some found) :
    offset ≤ found ∧ found < offset + bytes.length := by
  have := scan_bounds (by omega) h
  omega

/-! ## Placeholders -/

/-- The placeholders in `bytes`, which start at `offset`. The closing brace is searched from the
opening one on, and the next placeholder after the closing one. -/
def spansFrom (offset : Nat) (bytes : List UInt8) : List Span :=
  match _opens : Brace.opening.find offset bytes with
  | none => []
  | some first =>
    match closes : Brace.closing.find first (bytes.drop (first - offset)) with
    | none => []
    | some last =>
      let inside := (bytes.drop (first + 1 - offset)).take (last - (first + 1))
      let name := inside.takeWhile fun byte => !isDelimiter byte
      ⟨first, first + 1 + name.length, last⟩ ::
        spansFrom (last + 1) (bytes.drop (last + 1 - offset))
termination_by bytes.length
decreasing_by
  have first_le := Brace.find_bounds _opens
  have last_le := Brace.find_bounds closes
  simp only [List.length_drop] at last_le ⊢
  omega

/-- The placeholders of a template. -/
def spans (template : String) : List Span :=
  spansFrom 0 (Text.bytes template)

/-- The bytes between an opening brace and the end of the name. -/
def Span.nameBytes (span : Span) (bytes : List UInt8) : List UInt8 :=
  (bytes.drop (span.opening + 1)).take (span.nameEnd - (span.opening + 1))

/-- The trimmed name of a placeholder. The bytes between two ASCII characters of a text always spell
a text, so nothing is lost by the default. -/
def Span.name (span : Span) (bytes : List UInt8) : String :=
  Text.trim ((Text.ofBytes? (span.nameBytes bytes)).getD "")

/-- The names of the placeholders of a template, in order and with repetitions. -/
def parse (template : String) : List String :=
  let bytes := Text.bytes template
  (spans template).map fun span => span.name bytes

/-- The number of placeholders of a template. -/
def placeholderCount (template : String) : Nat :=
  (parse template).length

/-- Whether a name is a position such as `0` or `12`. -/
def isPositional (name : String) : Bool :=
  !name.isEmpty && name.toList.all fun c => '0' ≤ c && c ≤ '9'

end LogCensus.Template
