import LogCensus.Glob

/-!
# Matching texts with glob patterns

`Glob.matchTokens` says what a pattern accepts: `*` tries every end of the text, `**` the text
itself, every end after a separator and the empty end. Trying them one after the other takes
exponential time on patterns with many stars, so `Glob.accepts` works from the last token to the
first and keeps, for each token, one row of verdicts: which ends of the text the tokens from there
on accept.

* `Glob.accepts`: whether a whole text has the form of a pattern.
* `Glob.verdicts_eq`: the rows are those of `matchTokens`.
* `Glob.accepts_eq_matchTokens`: both ways of matching agree.
-/

namespace LogCensus.Glob

/-! ## What a pattern accepts -/

/-- Every end of a text, from the whole text to the empty one. -/
def ends : List Char → List (List Char)
  | [] => [[]]
  | c :: rest => (c :: rest) :: ends rest

/-- Every end of a text that starts right after a separator, and the empty end. -/
def componentEnds : List Char → List (List Char)
  | [] => [[]]
  | c :: rest => if c = '/' then rest :: componentEnds rest else componentEnds rest

/-- Whether a text has the form that tokens describe. -/
def matchTokens : List GlobToken → List Char → Bool
  | [], text => text.isEmpty
  | .anySequence :: tokens, text => (ends text).any (matchTokens tokens)
  | .anyComponents :: tokens, text => (text :: componentEnds text).any (matchTokens tokens)
  | token :: tokens, c :: text => token.accepts c && matchTokens tokens text
  | _ :: _, [] => false

/-! ## Rows of verdicts

A row has one verdict for each end of a text, from the whole text to the empty end. Each function
below takes the row of the tokens after a token to the row of the tokens that start with it.
-/

/-- The row of no tokens: only the empty end is accepted. -/
def emptyRow : List Char → List Bool
  | [] => [true]
  | _ :: rest => false :: emptyRow rest

/-- The row of a token for a single character. -/
def charRow (token : GlobToken) : List Char → List Bool → List Bool
  | c :: rest, _ :: row => (token.accepts c && row.headD false) :: charRow token rest row
  | _, _ => [false]

/-- The row of a star: an end is accepted if it or a shorter one was. -/
def sequenceRow : List Bool → List Bool
  | [] => []
  | verdict :: row =>
    let later := sequenceRow row
    (verdict || later.headD false) :: later

/-- For each end, whether the row accepts one of its ends after a separator, or the empty end. -/
def laterComponents : List Char → List Bool → List Bool
  | c :: rest, _ :: row =>
    let later := laterComponents rest row
    (if c = '/' then row.headD false || later.headD false else later.headD false) :: later
  | _, row => row

/-- The row of a double star. -/
def componentsRow (text : List Char) (row : List Bool) : List Bool :=
  row.zipWith or (laterComponents text row)

/-- Which ends of a text tokens accept. -/
def verdicts (text : List Char) : List GlobToken → List Bool
  | [] => emptyRow text
  | .anySequence :: tokens => sequenceRow (verdicts text tokens)
  | .anyComponents :: tokens => componentsRow text (verdicts text tokens)
  | token :: tokens => charRow token text (verdicts text tokens)

/-- Whether a whole text has the form of a pattern. -/
def accepts (glob : Glob) (text : String) : Bool :=
  (verdicts text.toList glob.tokens).headD false

/-! ## Both ways of matching agree -/

/-- The first end of a text is the text itself. -/
@[simp] theorem head?_ends (text : List Char) : (ends text).head? = some text := by
  cases text <;> rfl

/-- The row of no tokens holds the verdicts of no tokens. -/
theorem emptyRow_eq (text : List Char) : emptyRow text = (ends text).map (matchTokens []) := by
  induction text with
  | nil => rfl
  | cons c rest ih => simp [emptyRow, ends, matchTokens, ih]

/-- A token for a single character accepts an end that starts with such a character, if the rest of
that end was accepted. -/
theorem charRow_map (token : GlobToken) (f : List Char → Bool) (text : List Char) :
    charRow token text ((ends text).map f) = (ends text).map fun last =>
      match last with
      | [] => false
      | c :: rest => token.accepts c && f rest := by
  induction text with
  | nil => rfl
  | cons c rest ih => simp [ends, charRow, ih]

/-- A star accepts an end if some end of that end was accepted. -/
theorem sequenceRow_map (f : List Char → Bool) (text : List Char) :
    sequenceRow ((ends text).map f) = (ends text).map fun last => (ends last).any f := by
  induction text with
  | nil => simp [ends, sequenceRow]
  | cons c rest ih => simp [ends, sequenceRow, ih]

/-- The ends after a separator are found in the row. -/
theorem laterComponents_map (f : List Char → Bool) (text : List Char) :
    laterComponents text ((ends text).map f) =
      (ends text).map fun last => (componentEnds last).any f := by
  induction text with
  | nil => simp [ends, laterComponents, componentEnds]
  | cons c rest ih =>
    by_cases separator : c = '/' <;>
      simp [ends, laterComponents, componentEnds, ih, separator]

/-- A double star accepts an end if that end or one of its component ends was accepted. -/
theorem componentsRow_map (f : List Char → Bool) (text : List Char) :
    componentsRow text ((ends text).map f) =
      (ends text).map fun last => (last :: componentEnds last).any f := by
  simp [componentsRow, laterComponents_map, List.zipWith_map, List.zipWith_self]

/-- The row of tokens holds their verdicts on all ends of the text. -/
theorem verdicts_eq (text : List Char) (tokens : List GlobToken) :
    verdicts text tokens = (ends text).map (matchTokens tokens) := by
  induction tokens with
  | nil => exact emptyRow_eq text
  | cons token tokens ih =>
    cases token with
    | anySequence => rw [verdicts, ih, sequenceRow_map]; rfl
    | anyComponents => rw [verdicts, ih, componentsRow_map]; rfl
    | char _ | anyChar | within _ | except _ =>
      change charRow _ text (verdicts text tokens) = _
      rw [ih, charRow_map]
      refine List.map_congr_left fun last _ => ?_
      cases last <;> rfl

/-- A pattern accepts the texts that have the form of its tokens. -/
theorem accepts_eq_matchTokens (glob : Glob) (text : String) :
    glob.accepts text = matchTokens glob.tokens text.toList := by
  simp [accepts, verdicts_eq]

end LogCensus.Glob
