import LogCensus.Proofs.Template.Reading

/-!
# Writing templates

A template is written from literal texts and placeholders: the braces of a literal are doubled, and
a placeholder stands in single braces, its name followed by alignment and format. Where a literal
begins or ends with braces, its doubled braces and the single brace of its neighbour form one run,
and the scan has to take the right brace out of it.

* `escape`, `render`: the written form.
* `Brace.scan_escape_opening`, `Brace.scan_escape_closing`: what a written literal does to a scan.
* `parse_render`: reading a written template gives the names of its placeholders.
-/

namespace LogCensus.Template

open Text

/-- Whether a character is a brace. -/
def isBrace (c : Char) : Bool :=
  c == Brace.opening.char || c == Brace.closing.char

/-- A literal text with every brace doubled. -/
def escape (literal : List Char) : List Char :=
  literal.flatMap fun c => if isBrace c then [c, c] else [c]

/-- What stands between the braces of a placeholder. -/
structure Placeholder where
  name : String
  /-- Alignment and format, with the comma or colon that they start with. -/
  layout : String
  name_plain : ∀ c ∈ name.toList, isBrace c = false ∧ endsName c = false
  name_trimmed : trim name = name
  layout_plain : ∀ c ∈ layout.toList, isBrace c = false
  layout_starts : layout = "" ∨ ∃ c rest, layout.toList = c :: rest ∧ endsName c = true

/-- The text between the braces. -/
def Placeholder.inside (placeholder : Placeholder) : List Char :=
  placeholder.name.toList ++ placeholder.layout.toList

/-- The characters of a template: each placeholder follows a literal, and a last literal ends the
text. -/
def render : List (String × Placeholder) → String → List Char
  | [], last => escape last.toList
  | (literal, placeholder) :: rest, last =>
    escape literal.toList ++
      Brace.opening.char :: (placeholder.inside ++ Brace.closing.char :: render rest last)

/-! ## Written literals under a scan -/

/-- An even run is forgotten behind characters that do not continue it. -/
theorem Brace.scan_even {brace : Brace} {run : Nat} (heven : run % 2 = 0) {passed : List Char}
    (hother : brace.char ∉ passed) (offset mark : Nat) (rest : List Char) :
    ∃ run', run' % 2 = 0 ∧ brace.scan offset run mark (encode (passed ++ rest)) =
      brace.scan (offset + (encode passed).length) run' mark (encode rest) := by
  cases passed with
  | nil => exact ⟨run, heven, rfl⟩
  | cons c passed =>
    rw [List.mem_cons, not_or] at hother
    refine ⟨0, rfl, ?_⟩
    rw [List.cons_append, scan_char (Ne.symm hother.1), if_neg (by omega), encode_append,
      scan_skip (code_not_mem_encode hother.2), encode_cons, List.length_append, Nat.add_assoc]

theorem escape_cons (c : Char) (literal : List Char) :
    escape (c :: literal) = (if isBrace c then [c, c] else [c]) ++ escape literal := rfl

/-- A scan for an opening brace that has read an even run so far has read an even run after a
written literal. -/
theorem Brace.scan_escape_opening (literal rest : List Char) (offset run mark : Nat)
    (heven : run % 2 = 0) :
    ∃ run' mark', run' % 2 = 0 ∧
      Brace.opening.scan offset run mark (encode (escape literal ++ rest)) =
        Brace.opening.scan (offset + (encode (escape literal)).length) run' mark'
          (encode rest) := by
  induction literal generalizing offset run mark with
  | nil => exact ⟨run, mark, heven, rfl⟩
  | cons c literal ih =>
    by_cases hc : c = Brace.opening.char
    · -- two more braces of the run leave it even
      subst hc
      obtain ⟨run', mark', heven', hrest⟩ :=
        ih (offset + 1 + 1) (run + 1 + 1) (offset + 1) (by omega)
      refine ⟨run', mark', heven', ?_⟩
      rw [escape_cons, if_pos (by decide)]
      simp only [List.cons_append, List.nil_append, Brace.encode_char, List.length_cons]
      rw [← Brace.encode_char, ← Brace.encode_char, scan_brace, if_neg (by simp), scan_brace,
        if_neg (by simp), hrest]
      congr 1
      omega
    · -- any other character, doubled or not, ends the run
      have hother : Brace.opening.char ∉ (if isBrace c then [c, c] else [c]) := by
        split <;> simpa using Ne.symm hc
      obtain ⟨run', heven', hpassed⟩ :=
        scan_even heven hother offset mark (escape literal ++ rest)
      obtain ⟨run'', mark'', heven'', hrest⟩ := ih _ run' mark heven'
      refine ⟨run'', mark'', heven'', ?_⟩
      rw [escape_cons, List.append_assoc, hpassed, hrest, encode_append, List.length_append,
        Nat.add_assoc]

/-- A scan for a closing brace that has read an odd run finds its mark, whatever literal follows. -/
theorem Brace.scan_escape_closing (literal : List Char) {rest : List Char}
    (hend : rest.head? ≠ some Brace.closing.char) (offset run mark : Nat) (hodd : run % 2 = 1) :
    Brace.closing.scan offset run mark (encode (escape literal ++ rest)) = some mark := by
  induction literal generalizing offset run with
  | nil => exact scan_odd hodd hend offset mark
  | cons c literal ih =>
    by_cases hc : c = Brace.closing.char
    · -- two more braces of the run leave it odd, and the mark of a closing run stays
      subst hc
      rw [escape_cons, if_pos (by decide)]
      simp only [List.cons_append, List.nil_append]
      rw [scan_brace, if_pos ⟨rfl, by omega⟩, scan_brace, if_pos ⟨rfl, by omega⟩]
      exact ih (offset + 1 + 1) (run + 1 + 1) (by omega)
    · -- any other character ends the run, and the mark is its brace
      apply scan_odd hodd
      rw [escape_cons]
      split <;> simpa using hc

/-! ## Placeholders between literals -/

theorem Placeholder.not_mem_inside (placeholder : Placeholder) (brace : Brace) :
    brace.char ∉ placeholder.inside := by
  have hbrace : isBrace brace.char = true := by cases brace <;> decide
  intro hmem
  rcases List.mem_append.mp hmem with hname | hlayout
  · rw [(placeholder.name_plain _ hname).1] at hbrace
    cases hbrace
  · rw [placeholder.layout_plain _ hlayout] at hbrace
    cases hbrace

/-- The name is what stands before the comma or colon. -/
theorem Placeholder.nameInside_inside (placeholder : Placeholder) :
    nameInside placeholder.inside = placeholder.name := by
  have hlayout : placeholder.layout.toList.takeWhile (fun c => !endsName c) = [] := by
    rcases placeholder.layout_starts with hempty | ⟨c, rest, hstart, hends⟩
    · rw [hempty]
      rfl
    · rw [hstart]
      exact List.takeWhile_cons_of_neg (by simp [hends])
  unfold nameInside inside
  rw [List.takeWhile_append_of_pos, hlayout, List.append_nil]
  · exact placeholder.name_trimmed
  · intro c hc
    simp [(placeholder.name_plain c hc).2]

/-- The scan finds the opening brace of a placeholder behind its literal. -/
theorem find_opening_render (literal : List Char) {inside : List Char}
    (hinside : Brace.opening.char ∉ inside) (after : List Char) :
    Brace.opening.find 0 (encode (escape literal ++
        Brace.opening.char :: (inside ++ Brace.closing.char :: after))) =
      some (encode (escape literal)).length := by
  obtain ⟨run, mark, heven, hscan⟩ := Brace.scan_escape_opening literal
    (Brace.opening.char :: (inside ++ Brace.closing.char :: after)) 0 0 0 rfl
  have hend : (inside ++ Brace.closing.char :: after).head? ≠ some Brace.opening.char := by
    cases inside with
    | nil => simp [Brace.char]
    | cons c inside =>
      rw [List.mem_cons, not_or] at hinside
      simpa using Ne.symm hinside.1
  unfold Brace.find
  rw [hscan, Brace.scan_brace, if_neg (by simp), Brace.scan_odd (by omega) hend, Nat.zero_add]

/-- What follows a placeholder starts with a literal, and behind that no closing brace stands. -/
theorem exists_render_eq (pieces : List (String × Placeholder)) (last : String) :
    ∃ literal rest, render pieces last = escape literal ++ rest ∧
      rest.head? ≠ some Brace.closing.char := by
  cases pieces with
  | nil => exact ⟨last.toList, [], (List.append_nil _).symm, by simp⟩
  | cons piece pieces => exact ⟨piece.1.toList, _, rfl, by simp [Brace.char]⟩

/-- The scan finds the closing brace of a placeholder before whatever follows. -/
theorem find_closing_render {inside : List Char} (hinside : Brace.closing.char ∉ inside)
    (pieces : List (String × Placeholder)) (last : String) :
    Brace.closing.find 0 (encode (inside ++ Brace.closing.char :: render pieces last)) =
      some (encode inside).length := by
  obtain ⟨literal, rest, hrender, hend⟩ := exists_render_eq pieces last
  rw [Brace.closing.find_skip hinside, hrender]
  unfold Brace.find
  rw [Brace.scan_brace, if_neg (by simp), Brace.scan_escape_closing literal hend _ _ _ rfl,
    Nat.zero_add]

/-- Reading a written template gives the names of its placeholders, in order and with repetitions,
whatever the literals between them are. -/
theorem parse_render (pieces : List (String × Placeholder)) (last : String) :
    parse (String.ofList (render pieces last)) = pieces.map fun piece => piece.2.name := by
  induction pieces with
  | nil =>
    obtain ⟨run, mark, heven, hscan⟩ := Brace.scan_escape_opening last.toList [] 0 0 0 rfl
    apply parse_of_find_opening
    -- the text ends behind a written literal, where the run is even
    unfold Brace.find render
    rw [List.append_nil] at hscan
    rw [hscan, encode_nil, Brace.scan, if_neg (by omega)]
  | cons piece pieces ih =>
    obtain ⟨literal, placeholder⟩ := piece
    have hopen := find_opening_render literal.toList (placeholder.not_mem_inside .opening)
      (render pieces last)
    have hclose := find_closing_render (placeholder.not_mem_inside .closing) pieces last
    unfold render
    rw [parse_placeholder hopen hclose, placeholder.nameInside_inside, ih, List.map_cons]

/-- A placeholder with an alignment and a format. -/
def Placeholder.user : Placeholder where
  name := "User"
  layout := ",-10:N2"
  name_plain := by simp [isBrace, endsName, Brace.char]
  name_trimmed := by decide
  layout_plain := by simp [isBrace, Brace.char]
  layout_starts := .inr ⟨',', "-10:N2".toList, rfl, rfl⟩

/-- A placeholder of a name alone. -/
def Placeholder.count : Placeholder where
  name := "Count"
  layout := ""
  name_plain := by simp [isBrace, endsName, Brace.char]
  name_trimmed := by decide
  layout_plain := by simp
  layout_starts := .inl rfl

/-- Literals that begin and end with braces next to their placeholders. -/
theorem parse_render_braces :
    let pieces := [("set".push '{', Placeholder.user), (String.ofList ['}', '{'], .count)]
    let last := String.singleton '}'
    String.ofList (render pieces last) = "set{{{User,-10:N2}}}{{{Count}}}" ∧
      parse "set{{{User,-10:N2}}}{{{Count}}}" = ["User", "Count"] := by
  intro pieces last
  have hrender : String.ofList (render pieces last) = "set{{{User,-10:N2}}}{{{Count}}}" := by
    decide
  refine ⟨hrender, ?_⟩
  rw [← hrender]
  exact parse_render pieces last

end LogCensus.Template
