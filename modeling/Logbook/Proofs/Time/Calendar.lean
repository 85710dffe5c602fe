import Logbook.Time.Date

/-!
# Years of the calendar

The year of a day is found by counting in eras of four hundred years that begin in March. That it is
the year whose first of January is the last one up to the day is shown here for every day, before
1970 and after it.

Results:
1. `marchYear_spec`, `marchYear_eq_iff`: the year from March to March that a day is in.
2. `daysBeforeYear_next`, `year_spec`, `year_eq_iff`: the year from January to January.
3. `ofDay_march`, `ofDay_november`: the days of the months in which summer time begins and ends.
-/

namespace Logbook.Time

/-! ## 1. Years from March -/

/-- The day of 1 March of a year. -/
def march (year : Int) : Int := daysBeforeYear (year + 1) - 306

theorem march_eq (year : Int) :
    march year = 365 * year + (year / 4 - year / 100 + year / 400) - 719468 := by
  show 365 * (year + 1 - 1970) + ((year + 1 - 1) / 4 - (year + 1 - 1) / 100 +
    (year + 1 - 1) / 400 - 477) - 306 = _
  rw [Int.add_sub_cancel]
  omega

/-- A day of an era of four hundred years, by its century, the span of four years in the century,
the year in the span and the day in the year. The last day of a span is a leap day, which the first
three centuries lack in their last span. -/
structure EraPlace (dayOfEra century span year day : Nat) : Prop where
  century_le : century ≤ 3
  span_le : span ≤ 24
  year_le : year ≤ 3
  day_le : day ≤ 364 ∨ day = 365 ∧ year = 3 ∧ (span ≤ 23 ∨ century = 3)
  sum : dayOfEra = 36524 * century + 1461 * span + 365 * year + day

theorem exists_eraPlace {dayOfEra : Nat} (h : dayOfEra < 146097) :
    ∃ century span year day, EraPlace dayOfEra century span year day := by
  obtain ⟨century, rest, hcentury, hrest, rfl⟩ : ∃ century rest, century ≤ 3 ∧
      (rest < 36524 ∨ rest = 36524 ∧ century = 3) ∧ dayOfEra = 36524 * century + rest :=
    ⟨min 3 (dayOfEra / 36524), dayOfEra - 36524 * min 3 (dayOfEra / 36524), by omega, by omega,
      by omega⟩
  obtain ⟨year, day, hyear, hday, hrest'⟩ : ∃ year day, year ≤ 3 ∧
      (day ≤ 364 ∨ day = 365 ∧ year = 3) ∧ rest % 1461 = 365 * year + day :=
    ⟨min 3 (rest % 1461 / 365), rest % 1461 - 365 * min 3 (rest % 1461 / 365), by omega, by omega,
      by omega⟩
  exact ⟨century, rest / 1461, year, day, hcentury, by omega, hyear, by omega, by omega⟩

section EraPlace

variable {dayOfEra century span year day : Nat}

theorem EraPlace.leaps (h : EraPlace dayOfEra century span year day) :
    dayOfEra / 36524 = century + dayOfEra / 146096 := by
  obtain ⟨hcentury, hspan, hyear, hday, hsum⟩ := h
  obtain hrest | ⟨hrest, hlast⟩ : 1461 * span + 365 * year + day < 36524 ∨
      1461 * span + 365 * year + day = 36524 ∧ century = 3 := by omega
  · have hcenturies : dayOfEra / 36524 = century := by omega
    have hdays : dayOfEra / 146096 = 0 := by omega
    rw [hcenturies, hdays, Nat.add_zero]
  · obtain rfl : dayOfEra = 146096 := by omega
    rw [hlast]

theorem EraPlace.yearOfEra (h : EraPlace dayOfEra century span year day) :
    (dayOfEra - dayOfEra / 1460 + dayOfEra / 36524 - dayOfEra / 146096) / 365 =
      100 * century + 4 * span + year := by
  have hleaps := h.leaps
  obtain ⟨hcentury, hspan, hyear, hday, rfl⟩ := h
  rw [hleaps, ← Nat.add_assoc, Nat.add_sub_cancel]
  clear hleaps
  obtain hspans | ⟨hspans, hlate⟩ :
      (36524 * century + 1461 * span + 365 * year + day) / 1460 = 25 * century + span ∨
      (36524 * century + 1461 * span + 365 * year + day) / 1460 = 25 * century + span + 1 ∧
        1364 ≤ 365 * year + day := by omega
  · rw [hspans]
    omega
  · rw [hspans]
    omega

/-- How many years of a span and of a century are over. -/
theorem yearOfEra_div (century : Nat) {span year : Nat} (hspan : span ≤ 24) (hyear : year ≤ 3) :
    (100 * century + 4 * span + year) / 4 = 25 * century + span ∧
      (100 * century + 4 * span + year) / 100 = century := by
  omega

theorem march_era (era : Int) {century span year : Nat} (hcentury : century ≤ 3) (hspan : span ≤ 24)
    (hyear : year ≤ 3) :
    march (era * 400 + (100 * century + 4 * span + year : Nat)) =
      146097 * era + (36524 * century + 1461 * span + 365 * year : Nat) - 719468 := by
  have hyears (n : Nat) (hn : n < 400) :
      march (era * 400 + n) = 146097 * era + 365 * n + (n / 4 - n / 100 : Int) - 719468 := by
    rw [march_eq]
    omega
  have hdiv := yearOfEra_div century hspan hyear
  rw [hyears _ (by omega)]
  omega

/-- The year after that of a place begins later. -/
theorem EraPlace.lt_march (h : EraPlace dayOfEra century span year day) (era : Int) :
    146097 * era + dayOfEra - 719468 <
      march (era * 400 + (100 * century + 4 * span + year : Nat) + 1) := by
  have hmarch := march_era era h.century_le h.span_le h.year_le
  have hnext (n : Int) : march n + 365 ≤ march (n + 1) := by
    rw [march_eq, march_eq]
    omega
  have hleap (n : Int) (h4 : (n + 1) % 4 = 0) (h100 : (n + 1) % 100 ≠ 0 ∨ (n + 1) % 400 = 0) :
      march n + 366 ≤ march (n + 1) := by
    rw [march_eq, march_eq]
    omega
  obtain ⟨hcentury, hspan, hyear, hday | ⟨rfl, rfl, hlast⟩, rfl⟩ := h
  · have := hnext (era * 400 + (100 * century + 4 * span + year : Nat))
    omega
  · have := hleap (era * 400 + (100 * century + 4 * span + 3 : Nat)) (by omega) (by omega)
    omega

end EraPlace

/-- The year of a day that begins in March, and the place of the day in it. -/
theorem marchYear_spec (day : Int) :
    march (marchYear day).1 + (marchYear day).2 = day ∧ day < march ((marchYear day).1 + 1) := by
  obtain ⟨era, dayOfEra, hlt, hday⟩ : ∃ (era : Int) (dayOfEra : Nat),
      dayOfEra < 146097 ∧ day = 146097 * era + dayOfEra - 719468 :=
    ⟨(day + 719468) / 146097, ((day + 719468) % 146097).toNat, by omega, by omega⟩
  have hera : (day + 719468) / 146097 = era := by omega
  have hof : ((day + 719468) % 146097).toNat = dayOfEra := by omega
  obtain ⟨century, span, year, place, h⟩ := exists_eraPlace hlt
  have hyear : (marchYear day).1 = era * 400 + (100 * century + 4 * span + year : Nat) := by
    rw [← h.yearOfEra, ← hof, ← hera]
    rfl
  have hplace : (marchYear day).2 = place := by
    have hyears := h.yearOfEra
    simp only [marchYear, hof, hyears]
    obtain ⟨hcentury, hspan, hyear, -, rfl⟩ := h
    obtain ⟨hspans, hcenturies⟩ := yearOfEra_div century hspan hyear
    rw [hspans, hcenturies]
    omega
  have hmarch := march_era era h.century_le h.span_le h.year_le
  rw [hyear, hplace]
  refine ⟨?_, ?_⟩
  · rw [hmarch, hday, h.sum]
    omega
  · rw [hday]
    exact h.lt_march era

theorem march_mono {y z : Int} (h : y ≤ z) : march y ≤ march z := by
  rw [march_eq, march_eq]
  omega

/-- Where years begin one after the other, a day is in one of them only. -/
theorem year_unique {start : Int → Int} (hmono : ∀ {y z}, y ≤ z → start y ≤ start z)
    {day y z : Int} (hy : start y ≤ day ∧ day < start (y + 1))
    (hz : start z ≤ day ∧ day < start (z + 1)) : y = z := by
  rcases Int.lt_trichotomy y z with h | h | h
  · have := hmono (y := y + 1) (z := z) h
    omega
  · exact h
  · have := hmono (y := z + 1) (z := y) h
    omega

theorem marchYear_eq_iff {day year : Int} {place : Nat} :
    marchYear day = (year, place) ↔ march year + place = day ∧ day < march (year + 1) := by
  constructor
  · intro h
    have hspec := marchYear_spec day
    rwa [h] at hspec
  · rintro ⟨hday, hlt⟩
    obtain ⟨hday', hlt'⟩ := marchYear_spec day
    have hyear : (marchYear day).1 = year :=
      year_unique march_mono ⟨by omega, hlt'⟩ ⟨by omega, hlt⟩
    rw [hyear] at hday'
    exact Prod.ext hyear (by dsimp only; omega)

/-! ## 2. Years from January -/

theorem daysBeforeYear_next (year : Int) :
    daysBeforeYear (year + 1) = daysBeforeYear year + if isLeapYear year then 366 else 365 := by
  have hleap : isLeapYear year = true ↔ year % 4 = 0 ∧ (year % 100 ≠ 0 ∨ year % 400 = 0) := by
    simp [isLeapYear]
  unfold daysBeforeYear
  dsimp only
  split
  · next h =>
    rw [hleap] at h
    omega
  · next h =>
    rw [hleap] at h
    omega

theorem daysBeforeYear_add (year : Int) :
    daysBeforeYear year + 365 ≤ daysBeforeYear (year + 1) := by
  rw [daysBeforeYear_next]
  split
  · omega
  · omega

theorem daysBeforeYear_mono {y z : Int} (h : y ≤ z) : daysBeforeYear y ≤ daysBeforeYear z := by
  unfold daysBeforeYear
  dsimp only
  omega

theorem daysBeforeYear_march (year : Int) : daysBeforeYear (year + 1) = march year + 306 := by
  unfold march
  omega

/-- January and February belong to the year after that of the March before them. -/
theorem year_ofDay (day : Int) :
    (Date.ofDay day).year =
      if (marchYear day).2 < 306 then (marchYear day).1 else (marchYear day).1 + 1 := by
  obtain ⟨hday, hlt⟩ := marchYear_spec day
  have hplace : (marchYear day).2 ≤ 366 := by
    rw [march_eq] at hday hlt
    omega
  simp only [Date.ofDay]
  split <;> split <;> omega

/-- A day lies in its year. -/
theorem year_spec (day : Int) :
    daysBeforeYear (Date.ofDay day).year ≤ day ∧
      day < daysBeforeYear ((Date.ofDay day).year + 1) := by
  obtain ⟨hday, hlt⟩ := marchYear_spec day
  have hprev := daysBeforeYear_add (marchYear day).1
  rw [year_ofDay]
  have hnext := daysBeforeYear_march
  split
  · rw [hnext] at hprev ⊢
    omega
  · rw [hnext, hnext]
    omega

theorem year_eq_iff {day year : Int} :
    (Date.ofDay day).year = year ↔
      daysBeforeYear year ≤ day ∧ day < daysBeforeYear (year + 1) := by
  constructor
  · rintro rfl
    exact year_spec day
  · exact year_unique daysBeforeYear_mono (year_spec day)

/-! ## 3. March and November -/

theorem ofDay_march (year : Int) {day : Nat} (hday : day < 31) :
    Date.ofDay (march year + day) = ⟨year, 3, day + 1⟩ := by
  have hplace : marchYear (march year + day) = (year, day) := by
    rw [marchYear_eq_iff, march_eq, march_eq]
    omega
  have hmonth : (5 * day + 2) / 153 = 0 := by omega
  simp only [Date.ofDay, hplace, hmonth]
  rfl

theorem ofDay_november (year : Int) {day : Nat} (hday : day < 30) :
    Date.ofDay (march year + 245 + day) = ⟨year, 11, day + 1⟩ := by
  have hplace : marchYear (march year + 245 + day) = (year, 245 + day) := by
    rw [marchYear_eq_iff, march_eq, march_eq]
    omega
  have hmonth : (5 * (245 + day) + 2) / 153 = 8 := by omega
  have hcount : 245 + day - (153 * 8 + 2) / 5 + 1 = day + 1 := by omega
  simp only [Date.ofDay, hplace, hmonth, hcount]
  rfl

end Logbook.Time
