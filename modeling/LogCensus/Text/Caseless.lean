/-!
# Comparison without regard to ASCII case

Names of attributes, parameters and severities are compared letter by letter, where an ASCII capital
equals its small letter and every other character only itself.
-/

namespace LogCensus.Text

/-- The small letter of an ASCII capital; every other character is kept. -/
def lowerAscii (c : Char) : Char :=
  if 'A' ≤ c ∧ c ≤ 'Z' then Char.ofNat (c.toNat + 32) else c

/-- Whether two texts agree up to the case of ASCII letters. -/
def eqIgnoringCase (left right : String) : Bool :=
  left.toList.map lowerAscii == right.toList.map lowerAscii

theorem eqIgnoringCase_iff {left right : String} :
    eqIgnoringCase left right = true ↔
      left.toList.map lowerAscii = right.toList.map lowerAscii := by
  simp [eqIgnoringCase]

end LogCensus.Text
