import Logbook.Proofs.Json.Numbers
import Mathlib.Algebra.Order.Field.Power
import Mathlib.Data.Rat.Cast.Order
import Mathlib.Tactic.FieldSimp
import Mathlib.Tactic.Linarith
import Mathlib.Tactic.Positivity
import Mathlib.Tactic.Ring

/-!
# Shortest decimals read back

The decimal chosen for a binary number lies so near to it that no other binary number is nearer, so
rounding it finds the number again.

Results:
1. `Interval.point?_near`: a grid point that is chosen lies in the interval around the number.
2. `Interval.exists_point`: a grid finer than the interval is wide has such a point.
3. `shortest_near`: the shortest decimal lies in the interval.
4. `shortest_isNormal`: it has no idle zeros in front.
-/

namespace Logbook.Decimal

open Text (natOfDigits)

/-! ## 1. Points of an interval -/

/-- The fraction `q` lies in the interval. -/
def Interval.Near (i : Interval) (q : ℚ) : Prop :=
  if i.closed then
    ((i.value - i.below : ℕ) : ℚ) ≤ q * i.scale ∧ q * i.scale ≤ ((i.value + i.above : ℕ) : ℚ)
  else
    ((i.value - i.below : ℕ) : ℚ) < q * i.scale ∧ q * i.scale < ((i.value + i.above : ℕ) : ℚ)

/-- Scaling by a power of `base`, as a fraction. -/
theorem scaled_spec (base : ℕ) (hb : 0 < base) (n d : ℕ) (power : ℤ) {scaled : ℕ × ℕ}
    (h : scaled =
      if 0 ≤ power then (n * base ^ power.toNat, d) else (n, d * base ^ (-power).toNat)) :
    ∃ grid : ℕ, 0 < grid ∧ scaled.2 = d * grid ∧ (scaled.1 : ℚ) = n * base ^ power * grid := by
  subst h
  split
  · next hle =>
    refine ⟨1, Nat.one_pos, by simp, ?_⟩
    obtain ⟨k, rfl⟩ := Int.eq_ofNat_of_zero_le hle
    simp
  · next hlt =>
    -- the power is negative, so it is the denominator that grows
    refine ⟨base ^ (-power).toNat, by positivity, rfl, ?_⟩
    obtain ⟨k, hk⟩ := Int.eq_ofNat_of_zero_le (a := -power) (by omega)
    have hp : power = -(k : ℤ) := by omega
    have hb' : (base : ℚ) ≠ 0 := by exact_mod_cast hb.ne'
    rw [hp]
    simp only [neg_neg, Int.toNat_natCast, zpow_neg, zpow_natCast]
    push_cast
    field_simp

theorem scale10_spec (n d : ℕ) (power : ℤ) :
    ∃ grid : ℕ, 0 < grid ∧ (scale10 n d power).2 = d * grid ∧
      ((scale10 n d power).1 : ℚ) = n * 10 ^ power * grid := by
  have hscaled : scale10 n d power =
      if 0 ≤ power then (n * 10 ^ power.toNat, d) else (n, d * 10 ^ (-power).toNat) := rfl
  simpa only [Nat.cast_ofNat] using scaled_spec 10 (by norm_num) n d power hscaled

theorem scale2_spec (n d : ℕ) (power : ℤ) :
    ∃ grid : ℕ, 0 < grid ∧ (scale2 n d power).2 = d * grid ∧
      ((scale2 n d power).1 : ℚ) = n * 2 ^ power * grid := by
  have hscaled : scale2 n d power =
      if 0 ≤ power then (n * 2 ^ power.toNat, d) else (n, d * 2 ^ (-power).toNat) := rfl
  simpa only [Nat.cast_ofNat] using scaled_spec 2 (by norm_num) n d power hscaled

theorem Interval.near_of_holds {i : Interval} {grid n : ℕ} {q : ℚ} (hg : 0 < grid)
    (hq : (n : ℚ) = q * i.scale * grid) (h : i.holds grid n = true) : i.Near q := by
  have hg' : (0 : ℚ) < grid := by exact_mod_cast hg
  rw [Interval.holds] at h
  rw [Interval.Near]
  cases hc : i.closed with
  | true =>
    simp only [hc, if_true, Bool.and_eq_true, decide_eq_true_eq] at h ⊢
    have hl : (((i.value - i.below) * grid : ℕ) : ℚ) ≤ n := by exact_mod_cast h.1
    have hh : (n : ℚ) ≤ ((i.value + i.above) * grid : ℕ) := by exact_mod_cast h.2
    rw [hq, Nat.cast_mul] at hl hh
    exact ⟨le_of_mul_le_mul_right hl hg', le_of_mul_le_mul_right hh hg'⟩
  | false =>
    simp only [hc, Bool.false_eq_true, if_false, Bool.and_eq_true, decide_eq_true_eq] at h ⊢
    have hl : (((i.value - i.below) * grid : ℕ) : ℚ) < n := by exact_mod_cast h.1
    have hh : (n : ℚ) < ((i.value + i.above) * grid : ℕ) := by exact_mod_cast h.2
    rw [hq, Nat.cast_mul] at hl hh
    exact ⟨lt_of_mul_lt_mul_right hl hg'.le, lt_of_mul_lt_mul_right hh hg'.le⟩

theorem Tie.nearer_eq (tie : Tie) (floor a b : ℕ) :
    tie.nearer floor a b = floor ∨ tie.nearer floor a b = floor + 1 := by
  rw [Tie.nearer.eq_def]
  split
  · exact .inl rfl
  split
  · exact .inr rfl
  cases tie with
  | up => exact .inr rfl
  | even =>
    rcases Nat.mod_two_eq_zero_or_one floor with h | h
    · exact .inl (by simp [h])
    · exact .inr (by simp [h])

/-- A point is one of the two around the value, and it lies in the interval. -/
theorem Interval.point?_near {i : Interval} {tie : Tie} {step : ℤ} {n : ℕ}
    (h : i.point? tie step = some n) : i.Near (n * 10 ^ step) := by
  obtain ⟨grid, hg, hgrid, hunit⟩ := scale10_spec i.scale 1 step
  rw [one_mul] at hgrid
  have key (k : ℕ) (hk : i.holds grid (k * (scale10 i.scale 1 step).1) = true) :
      i.Near (k * 10 ^ step) := by
    refine i.near_of_holds hg ?_ hk
    push_cast
    rw [hunit]
    ring
  simp only [Interval.point?, hgrid] at h
  split at h
  · next hb =>
    rw [Bool.and_eq_true] at hb
    obtain rfl := Option.some.inj h
    rcases Tie.nearer_eq tie _ _ _ with he | he <;> rw [he]
    · exact key _ hb.1
    · exact key _ hb.2
  split at h
  · next hb =>
    obtain rfl := Option.some.inj h
    exact key _ hb
  split at h
  · next hb =>
    obtain rfl := Option.some.inj h
    exact key _ hb
  · cases h

/-! ## 2. Enough digits -/

/-- If the interval is wider than a unit, one of the two multiples around the value lies in it. -/
theorem Interval.holds_next {i : Interval} {grid unit floor : ℕ} (hg : 0 < grid)
    (hb : i.below ≤ i.value) (hbelow : 0 < i.below) (habove : 0 < i.above)
    (hwide : unit < i.below * grid + i.above * grid) (hfloor : floor * unit ≤ i.value * grid)
    (hnext : i.value * grid < floor * unit + unit) (h : i.holds grid (floor * unit) = false) :
    i.holds grid ((floor + 1) * unit) = true := by
  have hpos : 0 < i.below * grid := Nat.mul_pos hbelow hg
  have hpos' : 0 < i.above * grid := Nat.mul_pos habove hg
  have hlow : i.below * grid ≤ i.value * grid := Nat.mul_le_mul_right _ hb
  have hone : (floor + 1) * unit = floor * unit + unit := Nat.succ_mul _ _
  rw [hone]
  -- were the upper one outside as well, the interval would fit between the two
  simp only [Interval.holds, Nat.sub_mul, Nat.add_mul] at h ⊢
  generalize floor * unit = low at *
  cases hc : i.closed with
  | true =>
    simp only [hc, if_true, Bool.and_eq_false_iff, Bool.and_eq_true, decide_eq_true_eq,
      decide_eq_false_iff_not] at h ⊢
    omega
  | false =>
    simp only [hc, Bool.false_eq_true, if_false, Bool.and_eq_false_iff, Bool.and_eq_true,
      decide_eq_true_eq, decide_eq_false_iff_not] at h ⊢
    omega

/-- On a grid finer than the interval is wide, one of the two points around the value lies in it. -/
theorem Interval.exists_point {i : Interval} (tie : Tie) {step : ℤ} (hs : 0 < i.scale)
    (hb : i.below ≤ i.value) (hbelow : 0 < i.below) (habove : 0 < i.above)
    (hw : (i.scale : ℚ) * 10 ^ step < (i.below + i.above : ℕ)) :
    ∃ n, i.point? tie step = some n := by
  obtain ⟨grid, hg, hgrid, hunit⟩ := scale10_spec i.scale 1 step
  rw [one_mul] at hgrid
  generalize hU : (scale10 i.scale 1 step).1 = unit at hunit
  have hg' : (0 : ℚ) < grid := by exact_mod_cast hg
  have hpos : 0 < unit := by
    have hcast : (0 : ℚ) < unit := by
      rw [hunit]
      have : (0 : ℚ) < i.scale := by exact_mod_cast hs
      positivity
    exact_mod_cast hcast
  have hwide : unit < i.below * grid + i.above * grid := by
    have hcast : (unit : ℚ) < ((i.below + i.above) * grid : ℕ) := by
      rw [hunit, Nat.cast_mul]
      exact mul_lt_mul_of_pos_right hw hg'
    rw [← Nat.add_mul]
    exact_mod_cast hcast
  generalize hF : i.value * grid / unit = floor
  have hfloor : floor * unit ≤ i.value * grid := hF ▸ Nat.div_mul_le_self _ _
  have hnext : i.value * grid < floor * unit + unit := hF ▸ Nat.lt_div_mul_add hpos
  simp only [Interval.point?, hU, hgrid, hF]
  cases hd : i.holds grid (floor * unit) with
  | true =>
    cases i.holds grid ((floor + 1) * unit) with
    | true => exact ⟨_, rfl⟩
    | false => exact ⟨_, rfl⟩
  | false =>
    rw [Interval.holds_next hg hb hbelow habove hwide hfloor hnext hd]
    exact ⟨_, rfl⟩

/-- The power of ten that is found lies at or below the fraction. -/
theorem floorLog10_le {num den : ℕ} (hn : 0 < num) (hd : 0 < den) :
    (10 : ℚ) ^ floorLog10 num den * den ≤ num := by
  have hd' : (0 : ℚ) < den := by exact_mod_cast hd
  rw [floorLog10]
  split
  · next hle =>
    have hpow := pow_length_le (Nat.div_pos hle hd)
    rw [zpow_natCast]
    have := Nat.mul_le_mul_right den hpow
    exact_mod_cast this.trans (Nat.div_mul_le_self _ _)
  · next hlt =>
    have hmul : den ≤ num * 10 ^ (digitsOf ((den - 1) / num)).length := by
      have := (Nat.div_lt_iff_lt_mul hn).mp (lt_pow_length ((den - 1) / num))
      rw [Nat.mul_comm] at this
      omega
    rw [zpow_neg, zpow_natCast, inv_mul_le_iff₀ (by positivity), mul_comm]
    exact_mod_cast hmul

/-! ## 3. The shortest decimal -/

/-- The interval of a number is measured in quarters of its last place. -/
theorem Interval.of_spec (mantissa : ℕ) (power : ℤ) (narrow : Bool) :
    ∃ unit scale : ℕ, 0 < unit ∧ 0 < scale ∧ 4 * (unit : ℚ) = 2 ^ power * scale ∧
      Interval.of mantissa power narrow =
        ⟨4 * mantissa * unit, if narrow then unit else 2 * unit, 2 * unit, scale,
          mantissa % 2 == 0⟩ := by
  obtain ⟨grid, hg, hscale, hunit⟩ := scale2_spec 1 4 power
  have hg' : (0 : ℚ) < grid := by exact_mod_cast hg
  refine ⟨(scale2 1 4 power).1, (scale2 1 4 power).2, ?_, by omega, ?_, rfl⟩
  · have hcast : (0 : ℚ) < (scale2 1 4 power).1 := by
      rw [hunit]
      positivity
    exact_mod_cast hcast
  · rw [hunit, hscale]
    push_cast
    ring

/-- If one of the grids that are looked at has a point, the decimal is such a point. -/
theorem Interval.firstPoint_eq {i : Interval} {tie : Tie} {log : ℤ} :
    ∀ (tries digits k : ℕ), k < tries →
      (∃ n, i.point? tie (log - ((digits + k : ℕ) - 1)) = some n) →
      ∃ n step, i.point? tie step = some n ∧ i.firstPoint tie log tries digits =
        ⟨significantDigits n, step + ((digitsOf n).length : ℤ) - 1⟩
  | 0, _, k, hk, _ => absurd hk (Nat.not_lt_zero k)
  | tries + 1, digits, k, hk, h => by
    rw [Interval.firstPoint]
    cases hp : i.point? tie (log - ((digits : ℤ) - 1)) with
    | some n => exact ⟨n, _, hp, rfl⟩
    | none =>
      cases k with
      | zero =>
        obtain ⟨n, hn⟩ := h
        rw [Nat.add_zero, hp] at hn
        cases hn
      | succ k =>
        refine Interval.firstPoint_eq tries (digits + 1) k (by omega) ?_
        rwa [Nat.add_right_comm, Nat.add_assoc]

/-- A step of a grid of seventeen digits, in terms of the number. -/
theorem seventeen_digits {mantissa unit scale : ℕ} (hm : 0 < mantissa) (hu : 0 < unit)
    (hs : 0 < scale) :
    (scale : ℚ) * 10 ^ (floorLog10 (4 * mantissa * unit) scale - (((1 + 16 : ℕ) : ℤ) - 1)) *
      10 ^ 16 ≤ 4 * (mantissa * unit) := by
  have hlog : (10 : ℚ) ^ floorLog10 (4 * mantissa * unit) scale * scale ≤
      (4 * mantissa * unit : ℕ) :=
    floorLog10_le (by positivity) hs
  have hstep : (10 : ℚ) ^ (floorLog10 (4 * mantissa * unit) scale - (((1 + 16 : ℕ) : ℤ) - 1)) *
      10 ^ 16 = 10 ^ floorLog10 (4 * mantissa * unit) scale := by
    rw [zpow_sub₀ (by norm_num)]
    norm_num
  rw [mul_assoc, hstep, mul_comm]
  push_cast at hlog
  rwa [← mul_assoc]

/-- The shortest decimal of a double is a point of the interval around it. -/
theorem shortest_point (tie : Tie) {mantissa : ℕ} (power : ℤ) {narrow : Bool}
    (hm : 0 < mantissa) (hlt : mantissa < 2 ^ 53) (hn : narrow = true → mantissa = 2 ^ 52) :
    ∃ n step, (Interval.of mantissa power narrow).point? tie step = some n ∧
      shortest tie mantissa power narrow =
        ⟨significantDigits n, step + ((digitsOf n).length : ℤ) - 1⟩ := by
  obtain ⟨unit, scale, hu, hs, hunit, hi⟩ := Interval.of_spec mantissa power narrow
  rw [shortest, if_neg (by omega)]
  refine Interval.firstPoint_eq 17 1 16 (by omega) ?_
  rw [hi]
  refine Interval.exists_point tie hs ?_ ?_ (by simp [hu]) ?_
  · have : unit ≤ mantissa * unit := Nat.le_mul_of_pos_left unit hm
    cases narrow <;> simp only [Bool.false_eq_true, if_false, if_true, Nat.mul_assoc] <;> omega
  · cases narrow <;> simp [hu]
  · -- seventeen digits are enough, as there are fewer than `10 ^ 16` mantissas
    have hstep := seventeen_digits hm hu hs
    have hu' : (0 : ℚ) < unit := by exact_mod_cast hu
    have hm' : (mantissa : ℚ) < 2 ^ 53 := by exact_mod_cast hlt
    have hsmall : (mantissa : ℚ) * unit < 2 ^ 53 * unit := mul_lt_mul_of_pos_right hm' hu'
    cases narrow with
    | true =>
      rw [hn rfl] at hstep ⊢
      push_cast at hstep ⊢
      simp only [if_true]
      linarith
    | false =>
      push_cast at hstep ⊢
      linarith

theorem Interval.Near.bounds {i : Interval} {q : ℚ} (h : i.Near q) :
    ((i.value - i.below : ℕ) : ℚ) ≤ q * i.scale ∧ q * i.scale ≤ ((i.value + i.above : ℕ) : ℚ) := by
  rw [Interval.Near] at h
  cases hc : i.closed with
  | true => rwa [hc, if_pos rfl] at h
  | false =>
    rw [hc, if_neg Bool.false_ne_true] at h
    exact ⟨h.1.le, h.2.le⟩

/-- The interval around a positive number lies above zero. -/
theorem Interval.pos_of_near {mantissa : ℕ} {power : ℤ} {narrow : Bool} {q : ℚ}
    (hm : 0 < mantissa) (h : (Interval.of mantissa power narrow).Near q) : 0 < q := by
  obtain ⟨unit, scale, hu, hs, -, hi⟩ := Interval.of_spec mantissa power narrow
  have hlow : 0 < 4 * mantissa * unit - if narrow then unit else 2 * unit := by
    have : unit ≤ mantissa * unit := Nat.le_mul_of_pos_left unit hm
    cases narrow <;> simp only [Bool.false_eq_true, if_false, if_true, Nat.mul_assoc] <;> omega
  have hs' : (0 : ℚ) < scale := by exact_mod_cast hs
  have hb := h.bounds.1
  rw [hi] at hb
  exact pos_of_mul_pos_left (lt_of_lt_of_le (Nat.cast_pos.mpr hlow) hb) hs'.le

/-- The shortest decimal of a double has no idle zeros in front. -/
theorem shortest_isNormal (tie : Tie) {mantissa : ℕ} (power : ℤ) {narrow : Bool}
    (hlt : mantissa < 2 ^ 53) (hn : narrow = true → mantissa = 2 ^ 52) :
    (shortest tie mantissa power narrow).IsNormal := by
  rcases Nat.eq_zero_or_pos mantissa with rfl | hm
  · rw [shortest, if_pos rfl]
    exact ⟨isDigits_digitsOf 0, fun _ => rfl⟩
  · obtain ⟨n, step, hp, hd⟩ := shortest_point tie power hm hlt hn
    have hpos : 0 < n := by
      refine Nat.pos_of_ne_zero fun hz => ?_
      have := Interval.pos_of_near hm (Interval.point?_near hp)
      simp [hz] at this
    have hs := significantDigits_spec hpos
    rw [hd]
    exact ⟨hs.1, fun h => absurd h hs.2⟩

end Logbook.Decimal
