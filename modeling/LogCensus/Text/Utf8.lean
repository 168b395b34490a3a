/-!
# Texts as bytes

The bytes of a text in UTF-8 and the text that a run of bytes spells, when it spells one.
-/

namespace LogCensus.Text

/-- The UTF-8 bytes of a text. -/
def bytes (text : String) : List UInt8 :=
  text.toUTF8.data.toList

/-- The text spelled by a list of bytes; none when the bytes are not valid UTF-8. -/
def ofBytes? (spelled : List UInt8) : Option String :=
  String.fromUTF8? ⟨spelled.toArray⟩

end LogCensus.Text
