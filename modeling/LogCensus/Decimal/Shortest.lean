import LogCensus.Decimal.Double

/-!
# Shortest decimals

The decimal with the fewest digits that reads back as a given double. The reals that round to a
double form an interval around it, whose ends belong to it when the significand is even. On each
decimal grid, from the coarsest to the finest, only the two neighbours of the value need to be
tried: if any grid point lies in the interval, one of them does. The first grid with a hit wins,
and of two hits the nearer one, a tie going to the even neighbour.
-/

namespace LogCensus

/-- The decimal `significand * 10 ^ exponent`. -/
structure Decimal where
  significand : Nat
  exponent : Int
deriving DecidableEq

namespace Double

/-- An interval of reals with a value inside, in units of one over `unit`. -/
structure Neighbourhood where
  low : Nat
  value : Nat
  high : Nat
  unit : Nat
  closed : Bool

/-- The reals that round to a positive finite double. The gap below a power of two is half as wide
as the gap above it. -/
def neighbourhood (x : Double) : Neighbourhood :=
  let (m, e) := x.parts
  let below := if m = hiddenBit ∧ 0 < e then 1 else 2
  { low := (4 * m - below) <<< e
    value := (4 * m) <<< e
    high := (4 * m + 2) <<< e
    unit := 1 <<< 1076
    closed := m % 2 = 0 }

namespace Neighbourhood

/-- The same interval measured in units of `10 ^ exponent`. -/
def scale (n : Neighbourhood) (exponent : Int) : Neighbourhood :=
  let up := Nat.pow 10 (-exponent).toNat
  { n with
    low := n.low * up
    value := n.value * up
    high := n.high * up
    unit := n.unit * Nat.pow 10 exponent.toNat }

/-- Whether a whole number of units lies in the interval. -/
def contains (n : Neighbourhood) (point : Nat) : Bool :=
  if n.closed then n.low ≤ point * n.unit && point * n.unit ≤ n.high
  else n.low < point * n.unit && point * n.unit < n.high

/-- The whole number of units in the interval that is nearest to the value, if there is one. -/
def nearest? (n : Neighbourhood) : Option Nat :=
  let floor := n.value / n.unit
  match n.contains floor, n.contains (floor + 1) with
  | false, false => none
  | true, false => some floor
  | false, true => some (floor + 1)
  | true, true =>
    let rest := n.value % n.unit
    if 2 * rest < n.unit then some floor
    else if n.unit < 2 * rest then some (floor + 1)
    else some (floor + floor % 2)

/-- The hit on the coarsest of the grids from `10 ^ exponent` downwards. -/
def search (n : Neighbourhood) : Nat → Int → Decimal
  | 0, exponent => ⟨(n.scale exponent).value / (n.scale exponent).unit, exponent⟩
  | steps + 1, exponent =>
    match (n.scale exponent).nearest? with
    | some point => ⟨point, exponent⟩
    | none => n.search steps (exponent - 1)

/-- A decimal exponent above which no grid has a point in the interval. -/
def startExponent (n : Neighbourhood) : Int :=
  if n.unit ≤ n.value then ((Nat.toDigits 10 (n.value / n.unit)).length : Int)
  else 2 - ((Nat.toDigits 10 (n.unit / n.value)).length : Int)

end Neighbourhood

/-- The shortest decimal of the magnitude of a finite double. Seventeen digits always suffice. -/
def shortest (x : Double) : Decimal :=
  if x.isZero then ⟨0, 0⟩
  else x.neighbourhood.search 20 x.neighbourhood.startExponent

end Double

end LogCensus
