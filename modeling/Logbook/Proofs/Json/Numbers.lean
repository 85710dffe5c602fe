import Logbook.Proofs.Decimal.Digits
import Logbook.Value.Encode
import Mathlib.Tactic.Convert

/-!
# Numbers as JSON numbers

Whole numbers and decimals are written by the grammar of JSON numbers. The number that is read has
the digits and the power of ten of what was written.

Results:
1. `isNumeral_intText`, `isNumeral_digitsOf`: whole numbers.
2. `isNumeral_positional`: decimals without an exponent.
-/

namespace Logbook

open Decimal (Scientific digitsOf significantDigits)
open Json (IsDigits IsWhole IsNumeral Numeral signText)
open Text (natOfDigits)

/-! ## 1. Whole numbers -/

/-- A whole number as it is read. -/
def Json.Numeral.ofInt (n : Int) : Numeral := ⟨n < 0, n.natAbs, 0⟩

/-- Digits alone are a number without fraction and exponent. -/
theorem isNumeral_whole {s : List Char} (negative : Bool) (h : IsWhole s) :
    IsNumeral (signText negative ++ s) ⟨negative, natOfDigits s, 0⟩ := by
  simpa using IsNumeral.mk negative h .none .none

theorem isNumeral_intText (n : Int) : IsNumeral (Json.intText n) (.ofInt n) := by
  have h := isNumeral_whole (n < 0) (Decimal.isWhole_digitsOf n.natAbs)
  rw [Decimal.natOfDigits_digitsOf] at h
  simpa [Json.intText, signText, Numeral.ofInt] using h

theorem isNumeral_digitsOf (n : Nat) : IsNumeral (digitsOf n) (.ofInt n) := by
  have h := isNumeral_whole false (Decimal.isWhole_digitsOf n)
  rw [Decimal.natOfDigits_digitsOf] at h
  have hn : ¬ ((n : Int) < 0) := by omega
  simpa [signText, Numeral.ofInt, hn] using h

/-! ## 2. Decimals -/

/-- A decimal as it is read from its form without an exponent: with its own digits, or with zeros
up to the point behind them. -/
def Json.Numeral.ofScientific (negative : Bool) (d : Scientific) : Numeral :=
  let power := d.exponent + 1 - d.digits.length
  if 0 ≤ power then ⟨negative, natOfDigits d.digits * 10 ^ power.toNat, 0⟩
  else ⟨negative, natOfDigits d.digits, power⟩

/-- The digits of a decimal are digits, and no zero stands in front of them, zero itself apart. -/
structure Decimal.Scientific.IsNormal (d : Scientific) : Prop where
  digits : IsDigits d.digits
  head : d.digits.head? = some '0' → d = ⟨['0'], 0⟩

theorem digits_zeros {s : List Char} (h : IsDigits s) (k : Nat) :
    IsDigits (s ++ List.replicate k '0') := by
  refine ⟨by simp [h.1], fun c hc => ?_⟩
  rcases List.mem_append.mp hc with hc | hc
  · exact h.2 c hc
  · rw [List.eq_of_mem_replicate hc]
    rfl

theorem zeros_digits {s : List Char} (h : IsDigits s) (k : Nat) :
    IsDigits (List.replicate k '0' ++ s) := by
  refine ⟨by simp [h.1], fun c hc => ?_⟩
  rcases List.mem_append.mp hc with hc | hc
  · rw [List.eq_of_mem_replicate hc]
    rfl
  · exact h.2 c hc

theorem head?_append_left {s : List Char} (h : s ≠ []) (t : List Char) :
    (s ++ t).head? = s.head? := by
  cases s with
  | nil => exact absurd rfl h
  | cons => rfl

/-- Digits with zeros behind them are a whole number. -/
theorem Decimal.Scientific.IsNormal.isWhole_zeros {d : Scientific} (h : d.IsNormal)
    (k : Nat) (hk : d.exponent = 0 → k = 0) : IsWhole (d.digits ++ List.replicate k '0') := by
  refine ⟨digits_zeros h.digits k, fun hz => ?_⟩
  rw [head?_append_left h.digits.1] at hz
  rw [h.head hz]
  rw [hk (by rw [h.head hz])]
  rfl

/-- The first of several digits is no zero. -/
theorem Decimal.Scientific.IsNormal.isWhole_take {d : Scientific} (h : d.IsNormal) (k : Nat) :
    IsWhole (d.digits.take (k + 1)) := by
  have hne : d.digits.take (k + 1) ≠ [] := by
    intro he
    rcases List.take_eq_nil_iff.mp he with hz | hz
    · cases hz
    · exact h.digits.1 hz
  refine ⟨⟨hne, fun c hc => h.digits.2 c (List.mem_of_mem_take hc)⟩, fun hz => ?_⟩
  rw [List.head?_take, if_neg (by omega)] at hz
  have hd := h.head hz
  rw [hd]
  simp

theorem isNumeral_positional (negative : Bool) {d : Scientific} (h : d.IsNormal) :
    IsNumeral (signText negative ++ d.positional .plain) (.ofScientific negative d) := by
  have hlen : 0 < d.digits.length := List.length_pos_iff.mpr h.digits.1
  by_cases hneg : d.exponent < 0
  · -- a zero, the point, and zeros before the digits
    have hpos : d.positional .plain =
        '0' :: '.' :: (List.replicate ((-d.exponent).toNat - 1) '0' ++ d.digits) := by
      rw [Scientific.positional, if_pos hneg]
    have hf := zeros_digits h.digits ((-d.exponent).toNat - 1)
    have hzero : IsWhole ['0'] := Decimal.isWhole_digitsOf 0
    have hi := IsNumeral.mk negative hzero (.digits hf) .none
    rw [hpos]
    convert hi using 1
    · simp
    · rw [Numeral.ofScientific, if_neg (by omega)]
      simp only [Numeral.mk.injEq, true_and, List.length_append, List.length_replicate]
      refine ⟨?_, by omega⟩
      rw [Decimal.natOfDigits_append, Decimal.natOfDigits_append, Decimal.natOfDigits_zeros]
      simp [natOfDigits, Text.digitValue]
  by_cases hall : d.digits.length ≤ d.exponent.toNat + 1
  · -- all digits before the point
    have hpos : d.positional .plain =
        d.digits ++ List.replicate (d.exponent.toNat + 1 - d.digits.length) '0' := by
      rw [Scientific.positional, if_neg hneg]
      simp [hall, Decimal.Style.zeroFraction, Decimal.Style.plain]
    have hw := h.isWhole_zeros (d.exponent.toNat + 1 - d.digits.length) (by omega)
    have hi := isNumeral_whole negative hw
    rw [hpos]
    convert hi using 1
    rw [Numeral.ofScientific, if_pos (by omega)]
    rw [Decimal.natOfDigits_append, Decimal.natOfDigits_zeros, List.length_replicate]
    congr 3
    omega
  · -- the point among the digits
    have hpos : d.positional .plain =
        d.digits.take (d.exponent.toNat + 1) ++ '.' :: d.digits.drop (d.exponent.toNat + 1) := by
      rw [Scientific.positional, if_neg hneg]
      simp [hall]
    have hw := h.isWhole_take d.exponent.toNat
    have hd : IsDigits (d.digits.drop (d.exponent.toNat + 1)) :=
      ⟨by simp; omega, fun c hc => h.digits.2 c (List.mem_of_mem_drop hc)⟩
    have hi := IsNumeral.mk negative hw (.digits hd) .none
    rw [hpos]
    convert hi using 1
    · simp
    · rw [Numeral.ofScientific, if_neg (by omega), List.take_append_drop, List.length_drop]
      simp only [Numeral.mk.injEq, true_and]
      omega

end Logbook
