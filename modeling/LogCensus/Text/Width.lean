import LogCensus.Text.Glyph

/-!
# Display width

How many terminal columns a text takes: those of its characters, and two for every emoji that
several characters make together. Text is filled up to a number of columns by a measure that the
caller chooses.

* `width`: the measure that reports use.
* `padRight`: text filled up to a number of columns.
-/

namespace LogCensus.Text

/-- What follows a character, as far as its columns depend on that. -/
inductive Following where
  | other
  | lineFeed
  /-- An emoji. -/
  | emoji
  /-- The modifier of an emoji. -/
  | modifier
  /-- A joiner with an emoji behind it. -/
  | joiner
  /-- The selector of emoji, and whether a joiner with an emoji stands behind it. -/
  | selector (joined : Bool)
deriving DecidableEq

namespace Following

/-- Whether an emoji in front makes one emoji with what follows. -/
def joins : Following → Bool
  | .joiner => true
  | .selector joined => joined
  | _ => false

/-- Whether the selector of emoji follows. -/
def selects : Following → Bool
  | .selector _ => true
  | _ => false

/-- Whether an emoji follows. -/
def isEmoji : Following → Bool
  | .emoji | .modifier => true
  | _ => false

end Following

/-- Adds the columns of a character to those of what follows. Joined emoji take the columns of the
last one, and a carriage return takes none in front of a line feed. -/
def addWidth (c : Char) (behind : Nat × Following) : Nat × Following :=
  let columns := behind.1
  let next := behind.2
  if c = '\n' then (columns + 1, .lineFeed)
  else if c = '\r' ∧ next = .lineFeed then (columns, .other)
  else if c.toNat = 0xFE0F then (columns, .selector next.joins)
  else if c.toNat = 0x200D then (columns, if next.isEmoji then .joiner else .other)
  else if takesModifier c && next = .modifier then (columns, .emoji)
  else if isModifier c then (if next.joins then columns else columns + 2, .modifier)
  else if isPictograph c || isSymbol c && next.selects then
    (if next.joins then columns else columns + 2, .emoji)
  else (columns + charWidth c, .other)

/-- The columns of a text. Ligatures of letters count as the letters that they are made of. -/
def width (text : String) : Nat :=
  (text.toList.foldr addWidth (0, .other)).1

/-- A number of blanks. -/
def spaces (count : Nat) : String :=
  String.ofList (List.replicate count ' ')

/-- A text filled up with blanks on the right to the given number of columns. -/
def padRight (measure : String → Nat) (columns : Nat) (text : String) : String :=
  text ++ spaces (columns - measure text)

/-- A text filled up with blanks on the left to the given number of characters. -/
def padLeft (columns : Nat) (text : String) : String :=
  spaces (columns - text.length) ++ text

end LogCensus.Text
