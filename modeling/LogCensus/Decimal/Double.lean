/-!
# Double-precision numbers

A double is kept as its 64 bits. This module decodes the bits into a significand and a binary
exponent, rounds a quotient of natural numbers to the nearest double, and multiplies and divides by
rounding the exact result once. All arithmetic is exact arithmetic on natural numbers, so nothing
depends on the machine's floating-point unit.
-/

namespace LogCensus

/-- A binary double: one sign bit, eleven exponent bits and fifty-two fraction bits. -/
structure Double where
  bits : UInt64
deriving DecidableEq

namespace Double

/-- Whether the sign bit is set. Negative zero counts as negative. -/
def isNegative (x : Double) : Bool :=
  x.bits >>> 63 == 1

/-- The bits without the sign. -/
def magnitude (x : Double) : Nat :=
  (x.bits &&& 0x7FFFFFFFFFFFFFFF).toNat

/-- The magnitude of infinity; larger magnitudes are not numbers. -/
def infiniteMagnitude : Nat := 0x7FF0000000000000

/-- Whether the double is a number and not infinite. -/
def isFinite (x : Double) : Bool :=
  x.magnitude < infiniteMagnitude

/-- Whether the double is one of the two infinities. -/
def isInfinite (x : Double) : Bool :=
  x.magnitude == infiniteMagnitude

/-- Whether the double is one of the two zeros. -/
def isZero (x : Double) : Bool :=
  x.magnitude == 0

/-- The double with the given sign and magnitude bits; a magnitude beyond infinity is cut to it. -/
def ofMagnitude (negative : Bool) (magnitude : Nat) : Double :=
  let kept := (min magnitude infiniteMagnitude).toUInt64
  ⟨if negative then kept ||| 0x8000000000000000 else kept⟩

/-- The bit above the fraction, `2 ^ 52`: the unit of the exponent field, and the leading bit of
every significand whose exponent field is not zero. -/
def hiddenBit : Nat := 0x10000000000000

/-- The significand `m` and the biased exponent `e`: a finite double has the magnitude
`m * 2 ^ e / 2 ^ 1074`. -/
def parts (x : Double) : Nat × Nat :=
  let fraction := x.magnitude % hiddenBit
  match x.magnitude / hiddenBit with
  | 0 => (fraction, 0)
  | e + 1 => (fraction + hiddenBit, e)

/-- A quotient rounded to the nearest natural number, a half to the even neighbour. -/
def roundDiv (num den : Nat) : Nat :=
  let quotient := num / den
  let rest := num % den
  if 2 * rest < den then quotient
  else if den < 2 * rest then quotient + 1
  else quotient + quotient % 2

/-- The magnitude bits of the double nearest to `num / den / 2 ^ 1074`, a half to the even
neighbour. The exponent is the least one for which the significand keeps at most 53 bits, so the
sum of exponent field and significand is right also when rounding carries into the next power. -/
def nearestMagnitude (num den : Nat) : Nat :=
  let exponent := (num / den).log2 - 52
  exponent * hiddenBit + roundDiv num (den <<< exponent)

/-- The double nearest to the quotient of two natural numbers, infinite when it is too large. -/
def ofQuotient (negative : Bool) (num den : Nat) : Double :=
  ofMagnitude negative (nearestMagnitude (num <<< 1074) den)

/-- The double nearest to a natural number. -/
def ofNat (n : Nat) : Double :=
  ofQuotient false n 1

/-- The double nearest to an integer. -/
def ofInt (i : Int) : Double :=
  ofQuotient (i < 0) i.natAbs 1

/-- The product of two finite doubles, rounded once. -/
def mul (x y : Double) : Double :=
  let (m, e) := x.parts
  let (n, f) := y.parts
  ofQuotient (x.isNegative != y.isNegative) ((m * n) <<< (e + f)) (1 <<< 2148)

/-- The quotient of two finite doubles, rounded once; the divisor is not zero. -/
def div (x y : Double) : Double :=
  let (m, e) := x.parts
  let (n, f) := y.parts
  ofQuotient (x.isNegative != y.isNegative) (m <<< e) (n <<< f)

/-- The double with the other sign. -/
def neg (x : Double) : Double :=
  ⟨x.bits ^^^ 0x8000000000000000⟩

end Double

end LogCensus
