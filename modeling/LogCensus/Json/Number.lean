import LogCensus.Json.Basic

/-!
# Number literals

What a JSON number literal denotes. An integer literal that fits a 64-bit word is an integer. Every
other literal is a double, computed from at most a 64-bit significand: digits that no longer fit are
dropped, the significand and the power of ten are each rounded to a double, and their product or
quotient is rounded again. A literal beyond every double denotes nothing.
-/

namespace LogCensus.Json

/-- The parts of a number literal, as digits. -/
structure Literal where
  negative : Bool
  whole : List Nat
  /-- The digits after the point; empty when there is no point. -/
  fraction : List Nat
  /-- Whether the exponent is negative, and its digits. -/
  exponent : Option (Bool × List Nat)
deriving DecidableEq

namespace Literal

/-- The largest significand. -/
def significandLimit : Nat := UInt64.size - 1

/-- The largest absolute value of a written exponent that is still counted. -/
def exponentLimit : Nat := 0x7FFFFFFF

/-- Appends digits to a significand as long as the result fits; also the number of digits taken. -/
def absorb : Nat → List Nat → Nat × Nat
  | significand, [] => (significand, 0)
  | significand, digit :: rest =>
    if significand * 10 + digit ≤ significandLimit then
      let (result, taken) := absorb (significand * 10 + digit) rest
      (result, taken + 1)
    else (significand, 0)

/-- The number spelled by a list of digits. -/
def ofDigits (digits : List Nat) : Nat :=
  digits.foldl (fun value digit => value * 10 + digit) 0

/-- Divides by a power of ten, in steps of at most `10 ^ 308`. -/
def scaleDown (x : Double) (exponent : Nat) : Double :=
  if exponent ≤ 308 then x.div (.ofNat (Nat.pow 10 exponent))
  else if x.isZero then x
  else scaleDown (x.div (.ofNat (Nat.pow 10 308))) (exponent - 308)
termination_by exponent

/-- Multiplies by a power of ten; none when the result is too large. -/
def scaleUp (x : Double) (exponent : Nat) : Option Double :=
  if exponent ≤ 308 then
    let product := x.mul (.ofNat (Nat.pow 10 exponent))
    if product.isInfinite then none else some product
  else if x.isZero then some x
  else none

/-- The double `significand * 10 ^ exponent`. -/
def compose (negative : Bool) (significand : Nat) (exponent : Int) : Json :=
  let unsigned :=
    if 0 ≤ exponent then scaleUp (.ofNat significand) exponent.toNat
    else some (scaleDown (.ofNat significand) exponent.natAbs)
  match unsigned with
  | none => .unreadable
  | some x => .float (if negative then x.neg else x)

/-- A literal with neither fraction nor exponent whose digits fit a 64-bit word. Negative zero and
negative numbers below the signed words are doubles. -/
def integer (negative : Bool) (significand : Nat) : Json :=
  if negative then
    if significand = 0 ∨ 0x8000000000000000 < significand then .float (Double.ofNat significand).neg
    else .int (-significand)
  else .int significand

/-- What the literal denotes. -/
def value (literal : Literal) : Json :=
  let (whole, taken) := absorb 0 literal.whole
  let dropped := literal.whole.length - taken
  if dropped = 0 ∧ literal.fraction = [] ∧ literal.exponent = none then
    integer literal.negative whole
  else
    let (significand, places) := absorb whole literal.fraction
    let start : Int := (dropped : Int) - places
    match literal.exponent with
    | none => compose literal.negative significand start
    | some (down, digits) =>
      let exponent := ofDigits digits
      if exponent ≤ exponentLimit then
        compose literal.negative significand (if down then start - exponent else start + exponent)
      else if significand = 0 ∨ down then
        .float (if literal.negative then (Double.ofNat 0).neg else .ofNat 0)
      else .unreadable

end Literal

end LogCensus.Json
