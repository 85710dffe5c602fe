import Mathlib.Data.List.Induction
import Logbook.Proofs.Decimal.Digits

/-!
# Reading whole numbers

A number is read from a row of digits, whatever zeros stand in front, with or without a plus sign.

Results:
1. `exists_zeros_digitsOf`: a row of digits, up to zeros in front.
2. `readNat?_iff`: which texts are read as a number.
-/

namespace Logbook.Text

open Decimal (digitsOf isDigits_digitsOf natOfDigits_append)
open Json (IsDigits)

/-! ## 1. Rows of digits -/

theorem exists_ofNat_of_isDigit {c : Char} (h : c.isDigit = true) :
    ∃ n < 10, c = Char.ofNat (48 + n) := by
  have hrange : 48 ≤ c.toNat ∧ c.toNat ≤ 57 := by
    simpa [Char.isDigit, UInt32.le_iff_toNat_le] using h
  exact ⟨c.toNat - 48, by omega, by rw [Nat.add_sub_cancel' hrange.1, Char.ofNat_toNat]⟩

/-- What holds of the ten digits holds of every character that is a digit. -/
theorem forall_digit {P : Char → Prop} (h : ∀ n < 10, P (Char.ofNat (48 + n))) {c : Char}
    (hc : c.isDigit = true) : P c := by
  obtain ⟨n, hn, rfl⟩ := exists_ofNat_of_isDigit hc
  exact h n hn

theorem digitChar_digitValue {c : Char} (h : c.isDigit = true) :
    digitValue c < 10 ∧ (digitValue c).digitChar = c :=
  forall_digit (P := fun c => digitValue c < 10 ∧ (digitValue c).digitChar = c) (by decide) h

theorem natOfDigits_snoc (s : List Char) (c : Char) :
    natOfDigits (s ++ [c]) = 10 * natOfDigits s + digitValue c := by
  rw [natOfDigits, List.foldl_append]
  rfl

/-- A row of digits is the one of its number, perhaps with idle zeros in front. -/
theorem exists_zeros_digitsOf {s : List Char} (h : IsDigits s) :
    ∃ zeros, s = List.replicate zeros '0' ++ digitsOf (natOfDigits s) := by
  obtain ⟨hne, hdigits⟩ := h
  -- by induction from the end, since the last digit of a row is the last one of its number
  induction s using List.reverseRecOn with
  | nil => exact absurd rfl hne
  | append_singleton s c ih =>
    obtain ⟨hlt, hchar⟩ := digitChar_digitValue (hdigits c (by simp))
    rw [natOfDigits_snoc]
    rcases Nat.eq_zero_or_pos (natOfDigits s) with hzero | hpos
    · have hlast : digitsOf (10 * natOfDigits s + digitValue c) = [c] := by
        rw [hzero, Nat.mul_zero, Nat.zero_add, digitsOf, Nat.toDigits_of_lt_base hlt, hchar]
      rw [hlast]
      by_cases hs : s = []
      · exact ⟨0, by rw [hs]; rfl⟩
      · obtain ⟨zeros, hzeros⟩ := ih hs fun d hd => hdigits d (List.mem_append_left _ hd)
        rw [hzero] at hzeros
        exact ⟨zeros + 1, by rw [hzeros, List.replicate_succ']; rfl⟩
    · have hs : s ≠ [] := by
        rintro rfl
        exact absurd hpos (by decide)
      obtain ⟨zeros, hzeros⟩ := ih hs fun d hd => hdigits d (List.mem_append_left _ hd)
      have hsplit : digitsOf (10 * natOfDigits s + digitValue c) =
          digitsOf (natOfDigits s) ++ [c] := by
        have hdiv : (10 * natOfDigits s + digitValue c) / 10 = natOfDigits s := by omega
        have hmod : (10 * natOfDigits s + digitValue c) % 10 = digitValue c := by omega
        rw [digitsOf, Nat.toDigits_of_base_le (by decide) (by omega), hdiv, hmod, hchar]
        rfl
      exact ⟨zeros, by rw [hsplit, ← List.append_assoc, ← hzeros]⟩

/-! ## 2. Reading -/

/-- A plus sign that may be left out. -/
def plusSign (plus : Bool) : List Char := if plus then ['+'] else []

/-- A text is read as a number if it is a row of digits, perhaps behind a plus sign, and its number
is within the limit. -/
theorem readNat?_iff {limit n : Nat} {s : List Char} :
    readNat? limit s = some n ↔
      ∃ plus digits, s = plusSign plus ++ digits ∧ IsDigits digits ∧ natOfDigits digits = n ∧
        n ≤ limit := by
  have hrow (digits : List Char) :
      ((if digits.isEmpty || !digits.all Char.isDigit then none
        else if natOfDigits digits ≤ limit then some (natOfDigits digits) else none) = some n) ↔
      IsDigits digits ∧ natOfDigits digits = n ∧ n ≤ limit := by
    have hbad : (digits.isEmpty || !digits.all Char.isDigit) = true ↔ ¬ IsDigits digits := by
      rw [IsDigits, not_and_or, not_not, Bool.or_eq_true, List.isEmpty_iff, Bool.not_eq_true',
        ← Bool.not_eq_true, List.all_eq_true]
    split
    · next h => simp [hbad.mp h]
    · next h =>
      have hdigits : IsDigits digits := by simpa [hbad] using h
      simp only [hdigits, true_and]
      split <;> simp <;> omega
  unfold readNat?
  dsimp only
  split
  · next rest =>
    rw [hrow]
    constructor
    · exact fun h => ⟨true, rest, rfl, h⟩
    · rintro ⟨plus, digits, hs, hdigits, hn⟩
      cases plus with
      | true =>
        obtain ⟨-, rfl⟩ := List.cons.inj hs
        exact ⟨hdigits, hn⟩
      | false =>
        obtain rfl : '+' :: rest = digits := hs
        exact absurd (hdigits.2 '+' List.mem_cons_self) (by decide)
  · next hplain =>
    rw [hrow]
    constructor
    · exact fun h => ⟨false, s, rfl, h⟩
    · rintro ⟨plus, digits, hs, hdigits, hn⟩
      cases plus with
      | true => exact absurd hs (hplain digits)
      | false =>
        obtain rfl : s = digits := hs
        exact ⟨hdigits, hn⟩

theorem readNat?_digitsOf {limit n : Nat} (h : n ≤ limit) : readNat? limit (digitsOf n) = some n :=
  readNat?_iff.mpr
    ⟨false, digitsOf n, rfl, isDigits_digitsOf n, Decimal.natOfDigits_digitsOf n, h⟩

end Logbook.Text
