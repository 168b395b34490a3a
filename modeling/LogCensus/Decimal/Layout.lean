import LogCensus.Decimal.Shortest

/-!
# Layouts of decimals

How the digits of a number are written: positionally, or with an exponent. A layout is a small
record of decisions, so that each place that prints a number names the record it uses.
-/

namespace LogCensus

/-- The decisions of a number format. -/
structure Layout where
  /-- Numbers whose leading digit stands for `10 ^ e` are written positionally for these `e`. -/
  isPositional : Int → Bool
  /-- Whether a whole number written positionally ends in a point and a zero. -/
  keepsFraction : Bool

namespace Layout

/-- Numbers in messages: always positional, whole numbers without a point. -/
def message : Layout :=
  ⟨fun _ => true, false⟩

/-- Numbers in JSON texts: positional from `10 ^ -5` up to `10 ^ 15`, where whole numbers end in
`.0`, and with a signed exponent otherwise. -/
def json : Layout :=
  ⟨fun e => -5 ≤ e && e ≤ 15, true⟩

/-- A run of zeros. -/
def zeros (count : Nat) : String :=
  String.ofList (List.replicate count '0')

/-- Digits written positionally, with `point` of them in front of the decimal point. -/
def positional (layout : Layout) (digits : List Char) (point : Int) : String :=
  if point ≤ 0 then "0." ++ zeros (-point).toNat ++ String.ofList digits
  else if digits.length ≤ point.toNat then
    String.ofList digits ++ zeros (point.toNat - digits.length) ++
      (if layout.keepsFraction then ".0" else "")
  else String.ofList (digits.take point.toNat) ++ "." ++ String.ofList (digits.drop point.toNat)

/-- Digits written with an exponent: one digit in front of the point, and the sign always. -/
def scientific (digits : List Char) (exponent : Int) : String :=
  let fraction := digits.drop 1
  String.ofList (digits.take 1) ++
    (if fraction.isEmpty then "" else "." ++ String.ofList fraction) ++
    (if exponent < 0 then "e-" else "e+") ++ toString exponent.natAbs

/-- The text of a magnitude. -/
def magnitude (layout : Layout) (decimal : Decimal) : String :=
  if decimal.significand = 0 then if layout.keepsFraction then "0.0" else "0"
  else
    let digits := Nat.toDigits 10 decimal.significand
    let leading := decimal.exponent + (digits.length : Int) - 1
    if layout.isPositional leading then layout.positional digits (leading + 1)
    else scientific digits leading

/-- The text of a double. Negative zero keeps its sign. -/
def text (layout : Layout) (x : Double) : String :=
  let unsigned :=
    if x.isFinite then layout.magnitude x.shortest
    else if x.isInfinite then "inf"
    else "NaN"
  if x.isNegative && (x.isFinite || x.isInfinite) then "-" ++ unsigned else unsigned

end Layout

end LogCensus
