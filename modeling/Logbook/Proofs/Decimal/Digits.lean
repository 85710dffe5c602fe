import Logbook.Proofs.Json.Grammar

/-!
# Rows of digits

The digits of a whole number are digits, begin with no idle zero, and have the number's value. Their
number says which powers of ten the number lies between.
-/

namespace Logbook.Decimal

open Json (IsDigits IsWhole)
open Text (natOfDigits)

theorem isDigits_digitsOf (n : Nat) : IsDigits (digitsOf n) :=
  ⟨Nat.toDigits_ne_nil, fun _ hc => Nat.isDigit_of_mem_toDigits (by decide) (by decide) hc⟩

@[simp] theorem natOfDigits_digitsOf (n : Nat) : natOfDigits (digitsOf n) = n :=
  Nat.ofDigitChars_ten_toDigits

theorem natOfDigits_append (s t : List Char) :
    natOfDigits (s ++ t) = natOfDigits s * 10 ^ t.length + natOfDigits t := by
  show Nat.ofDigitChars 10 (s ++ t) 0 = _
  rw [Nat.ofDigitChars_append, Nat.ofDigitChars_eq_ofDigitChars_zero, Nat.mul_comm]
  rfl

theorem natOfDigits_zeros (k : Nat) : natOfDigits (List.replicate k '0') = 0 := by
  show Nat.ofDigitChars 10 _ 0 = 0
  rw [Nat.ofDigitChars_replicate_zero, Nat.mul_zero]

/-- Only zero itself is written with a zero in front. -/
theorem head?_digitsOf (n : Nat) (h : (digitsOf n).head? = some '0') : n = 0 := by
  induction n using Nat.strongRecOn with
  | ind n ih =>
    by_cases hn : n < 10
    · rw [digitsOf, Nat.toDigits_of_lt_base hn] at h
      exact Nat.digitChar_eq_zero.mp (Option.some.inj h)
    · have hsplit : digitsOf n = digitsOf (n / 10) ++ [(n % 10).digitChar] :=
        Nat.toDigits_of_base_le (by decide) (by omega)
      have hhead : (digitsOf n).head? = (digitsOf (n / 10)).head? := by
        rw [hsplit]
        cases hd : digitsOf (n / 10) with
        | nil => exact absurd hd (isDigits_digitsOf _).1
        | cons => rfl
      have := ih (n / 10) (by omega) (hhead ▸ h)
      omega

theorem isWhole_digitsOf (n : Nat) : IsWhole (digitsOf n) := by
  refine ⟨isDigits_digitsOf n, fun h => ?_⟩
  rw [head?_digitsOf n h]
  rfl

theorem length_digitsOf_pos (n : Nat) : 0 < (digitsOf n).length :=
  List.length_pos_iff.mpr (isDigits_digitsOf n).1

theorem lt_pow_length (n : Nat) : n < 10 ^ (digitsOf n).length :=
  (Nat.length_toDigits_le_iff (by decide) (length_digitsOf_pos n)).mp (Nat.le_refl _)

theorem pow_length_le {n : Nat} (hn : 0 < n) : 10 ^ ((digitsOf n).length - 1) ≤ n := by
  rcases Nat.eq_zero_or_pos ((digitsOf n).length - 1) with hz | hpos
  · rw [hz]
    exact hn
  · refine Nat.le_of_not_lt fun hlt => ?_
    have hlen : (digitsOf n).length ≤ (digitsOf n).length - 1 :=
      (Nat.length_toDigits_le_iff (by decide) hpos).mpr hlt
    omega

/-- The zeros that are left out at the end. -/
theorem significantDigits_append (n : Nat) :
    ∃ k, digitsOf n = significantDigits n ++ List.replicate k '0' := by
  have hzeros := List.takeWhile_append_dropWhile (p := (· == '0')) (l := (digitsOf n).reverse)
  refine ⟨((digitsOf n).reverse.takeWhile (· == '0')).length, ?_⟩
  have hrep : (digitsOf n).reverse.takeWhile (· == '0') =
      List.replicate ((digitsOf n).reverse.takeWhile (· == '0')).length '0' := by
    refine List.eq_replicate_iff.mpr ⟨rfl, fun c hc => ?_⟩
    have hall := List.all_eq_true.mp
      (List.all_takeWhile (p := (· == '0')) (l := (digitsOf n).reverse))
    exact beq_iff_eq.mp (hall c hc)
  rw [significantDigits, ← List.reverse_replicate, ← hrep, ← List.reverse_append, hzeros,
    List.reverse_reverse]

/-- The digits of a positive number without zeros at the end, and without one in front. -/
theorem significantDigits_spec {n : Nat} (hn : 0 < n) :
    IsDigits (significantDigits n) ∧ (significantDigits n).head? ≠ some '0' := by
  obtain ⟨k, hk⟩ := significantDigits_append n
  have hne : significantDigits n ≠ [] := by
    intro he
    rw [he, List.nil_append] at hk
    have hz := natOfDigits_digitsOf n
    rw [hk, natOfDigits_zeros] at hz
    omega
  refine ⟨⟨hne, fun c hc => (isDigits_digitsOf n).2 c ?_⟩, fun hz => ?_⟩
  · rw [hk]
    exact List.mem_append_left _ hc
  · have hhead : (digitsOf n).head? = some '0' := by
      rw [hk, ← hz]
      cases hs : significantDigits n with
      | nil => exact absurd hs hne
      | cons => rfl
    have := head?_digitsOf n hhead
    omega

end Logbook.Decimal
