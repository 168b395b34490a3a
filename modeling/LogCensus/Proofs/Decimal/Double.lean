import LogCensus.Decimal.Double
import Mathlib.Algebra.Group.Nat.Defs

/-!
# Integers as doubles

Rounding a quotient never goes beyond the next power of two, so every integer of 64 bits is rounded
to a finite double.
-/

namespace LogCensus.Double

theorem magnitude_ofMagnitude (negative : Bool) (magnitude : Nat) :
    (ofMagnitude negative magnitude).magnitude = min magnitude infiniteMagnitude := by
  have hkept : min magnitude infiniteMagnitude < 2 ^ 63 :=
    Nat.lt_of_le_of_lt (Nat.min_le_right _ _) (by decide)
  have hmask (n : Nat) : n &&& 0x7FFFFFFFFFFFFFFF = n % 2 ^ 63 :=
    Nat.and_two_pow_sub_one_eq_mod n 63
  have hword : (min magnitude infiniteMagnitude).toUInt64.toNat = min magnitude infiniteMagnitude :=
    Nat.mod_eq_of_lt (by omega)
  rw [Double.magnitude, ofMagnitude, UInt64.toNat_and]
  cases negative with
  | false =>
    rw [if_neg Bool.false_ne_true, hword]
    exact (hmask _).trans (Nat.mod_eq_of_lt hkept)
  | true =>
    -- the sign is the bit above the magnitude, so it adds a multiple of what the mask keeps
    have hsign : min magnitude infiniteMagnitude ||| 2 ^ 63 * 1 =
        2 ^ 63 * 1 + min magnitude infiniteMagnitude := by
      rw [Nat.or_comm, Nat.two_pow_add_eq_or_of_lt hkept]
    rw [if_pos rfl, UInt64.toNat_or, hword]
    refine (hmask _).trans ?_
    show (_ ||| 2 ^ 63 * 1) % 2 ^ 63 = _
    rw [hsign, Nat.mul_add_mod, Nat.mod_eq_of_lt hkept]

theorem roundDiv_le (num den : Nat) : roundDiv num den ≤ num / den + 1 := by
  simp only [roundDiv]
  split
  · omega
  · split <;> omega

theorem shiftLeft_lt_two_pow {n bits : Nat} (h : n < 2 ^ bits) (shift : Nat) :
    n <<< shift < 2 ^ (bits + shift) := by
  rw [Nat.shiftLeft_eq, Nat.pow_add]
  exact Nat.mul_lt_mul_of_pos_right h (Nat.two_pow_pos shift)

/-- A number below a power of two is rounded to that power at most. -/
theorem nearestMagnitude_le (num power : Nat) (h : num < 2 ^ power) :
    nearestMagnitude num 1 ≤ (power - 53) * hiddenBit + 2 * hiddenBit := by
  rw [nearestMagnitude, Nat.div_one, Nat.one_shiftLeft]
  have hexponent : num.log2 - 52 ≤ power - 53 := by
    rcases Nat.eq_zero_or_pos num with rfl | hpos
    · simp
    · have := (Nat.log2_lt (by omega)).mpr h
      omega
  have hsignificand : num / 2 ^ (num.log2 - 52) < 2 ^ 53 := by
    rw [Nat.div_lt_iff_lt_mul (Nat.two_pow_pos _), ← Nat.pow_add]
    exact Nat.lt_of_lt_of_le Nat.lt_log2_self (Nat.pow_le_pow_right (by omega) (by omega))
  have hround := roundDiv_le num (2 ^ (num.log2 - 52))
  have hshift := Nat.mul_le_mul_right hiddenBit hexponent
  have htwice : 2 ^ 53 = 2 * hiddenBit := by decide
  omega

theorem isFinite_ofInt {value : Int} (h : value.natAbs < 2 ^ 64) :
    (ofInt value).isFinite = true := by
  have hscaled : value.natAbs <<< 1074 < 2 ^ (64 + 1074) := shiftLeft_lt_two_pow h 1074
  have hbound : (64 + 1074 - 53) * hiddenBit + 2 * hiddenBit < infiniteMagnitude := by decide
  have hnearest := nearestMagnitude_le (value.natAbs <<< 1074) (64 + 1074) hscaled
  rw [isFinite, ofInt, ofQuotient, magnitude_ofMagnitude, decide_eq_true_eq]
  omega

end LogCensus.Double
