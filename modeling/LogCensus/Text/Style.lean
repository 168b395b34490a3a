/-!
# Styled text

A fragment of terminal output carries a list of styles. Rendering writes the escape sequence of the
styles around the text when colour is wanted, and the bare text otherwise.
-/

namespace LogCensus.Text

/-- One attribute of a terminal fragment. -/
inductive Style where
  | bold
  | dimmed
  | red
  | green
  | yellow
  | blue
  | cyan
deriving DecidableEq

/-- The select-graphic-rendition code of a style. -/
def Style.code : Style → Nat
  | .bold => 1
  | .dimmed => 2
  | .red => 31
  | .green => 32
  | .yellow => 33
  | .blue => 34
  | .cyan => 36

/-- Whether escape sequences are written. -/
inductive Palette where
  | plain
  | coloured
deriving DecidableEq

/-- Whether a setting of the environment is on; none when it is not given. -/
def isOn : Option String → Option Bool
  | none => none
  | some value => some (value != "0")

/-- The palette for a terminal or a file. It can be forced on or forbidden; otherwise escape
sequences are written to a terminal, unless they are not wanted. -/
def Palette.choose (forced forbidden wanted : Option String) (terminal : Bool) : Palette :=
  if isOn forced == some true then .coloured
  else if (isOn forbidden).isSome then .plain
  else if terminal && (isOn wanted).getD true then .coloured
  else .plain

/-- The escape sequence that ends all styles. -/
def resetSequence : String := "\x1b[0m"

/-- The escape sequence that starts the given styles. -/
def startSequence (styles : List Style) : String :=
  "\x1b[" ++ String.intercalate ";" (styles.map fun style => toString style.code) ++ "m"

/-- A fragment in the given styles. The escape sequences are written around an empty text too, and
the styles start again after a reset inside the text. -/
def Palette.paint (palette : Palette) (styles : List Style) (text : String) : String :=
  match palette with
  | .plain => text
  | .coloured =>
    let start := startSequence styles
    start ++ text.replace resetSequence (resetSequence ++ start) ++ resetSequence

end LogCensus.Text
