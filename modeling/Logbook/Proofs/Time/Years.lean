import Logbook.Proofs.Time.Calendar
import Logbook.Proofs.Time.Hours

/-!
# Summer time year after year

A rule for summer time names the days of the two changes for every year. At one moment, and in the
two hours after it in which the next hour is awaited, the clock goes by the season of one year only,
also at the turn of the year, where the year of the moment and the year of the local reading may be
different ones. So what is known of a clock with one season holds in every year.

Results:
1. `yearOf_eq_iff`, `yearOf_near`: the year of a moment and of the moments about it.
2. `Recurrence.under_one_season`: the clock about a moment is the clock of one season.
3. `Recurrence.hour_stays_iff`: date, hour and names until the next hour, in every year.
4. `sunday_of_march`, `sunday_of_november`: the days of the changes by one rule.
5. `isUsual_sundays`, `slips_eastern_iff`, `slips_halfPast_iff`: clocks that go by it.
   `season_eastern_2024`, `season_halfPast_2024`: the clocks of 2024 are among them.
-/

namespace Logbook.Time

/-! ## 1. Years on the time line -/

/-- The year of a moment, in UTC, or of a local reading. -/
def yearOf (seconds : Int) : Int := (Date.ofDay (seconds / 86400)).year

def yearStart (year : Int) : Int := daysBeforeYear year * 86400

theorem yearOf_eq_iff {seconds year : Int} :
    yearOf seconds = year ↔ yearStart year ≤ seconds ∧ seconds < yearStart (year + 1) := by
  rw [yearOf, year_eq_iff, yearStart, yearStart]
  omega

theorem yearOf_spec (seconds : Int) :
    yearStart (yearOf seconds) ≤ seconds ∧ seconds < yearStart (yearOf seconds + 1) :=
  yearOf_eq_iff.1 rfl

theorem yearStart_add (year : Int) : yearStart year + 31536000 ≤ yearStart (year + 1) := by
  have := daysBeforeYear_add year
  unfold yearStart
  omega

/-- Two days before or after a moment it is the same year, or the turn of the year is between. -/
theorem yearOf_near {m n : Int} (hle : m - 172800 ≤ n) (hge : n ≤ m + 172800) :
    yearOf n = yearOf m ∨
      (yearOf n = yearOf m + 1 ∧ yearStart (yearOf m + 1) ≤ n) ∨
      (yearOf n = yearOf m - 1 ∧ n < yearStart (yearOf m)) := by
  obtain ⟨hfrom, hto⟩ := yearOf_spec m
  have hnext := yearStart_add (yearOf m + 1)
  have hprev := yearStart_add (yearOf m - 1)
  rw [Int.sub_add_cancel] at hprev
  rcases Int.lt_or_le n (yearStart (yearOf m)) with hbefore | hbegun
  · refine .inr (.inr ⟨yearOf_eq_iff.2 ⟨by omega, ?_⟩, hbefore⟩)
    rwa [Int.sub_add_cancel]
  rcases Int.lt_or_le n (yearStart (yearOf m + 1)) with hsame | hafter
  · exact .inl (yearOf_eq_iff.2 ⟨hbegun, hsame⟩)
  · exact .inr (.inl ⟨yearOf_eq_iff.2 ⟨hafter, by omega⟩, hafter⟩)

/-! ## 2. A clock with a season in every year -/

/-- Summer time that recurs: offsets without and with it, and the moments of the two changes in a
year. -/
structure Recurrence where
  standard : Int
  summer : Int
  starts : Int → Int
  ends : Int → Int

namespace Recurrence

def season (r : Recurrence) (year : Int) : Season :=
  ⟨r.standard, r.summer, r.starts year, r.ends year⟩

/-- The clock with the season of the year that a moment is in. -/
def under (r : Recurrence) (seconds : Int) : Zone := .seasonal (r.season (yearOf seconds))

def stamp (r : Recurrence) (m : Moment) : Stamp := (r.under m.seconds).stamp m

/-- The first moment meant by a reading of the local clock, by the season of the year that is
read. -/
def moment? (r : Recurrence) (reading : Int) : Option Int := (r.under reading).moment? reading

/-- What the local clock reads at the start of the local hour after `now`. -/
def nextReading (r : Recurrence) (now : Moment) : Int :=
  (r.stamp now).localSeconds / 3600 * 3600 + 3600

/-- The start of the local hour after `now`. -/
def nextHour (r : Recurrence) (now : Moment) : Moment :=
  match r.moment? (r.nextReading now) with
  | some seconds => ⟨seconds, 0⟩
  | none => now.addHour

/-- Summer time sets the clock forward by an hour and lasts an hour at least. It is over for a week
about the turn of the year, and the clock is less than a day from UTC. -/
structure IsUsual (r : Recurrence) : Prop where
  shift : r.summer = r.standard + 3600
  lasts : ∀ year, r.starts year + 3600 ≤ r.ends year
  begins : ∀ year, yearStart year + 604800 ≤ r.starts year
  closes : ∀ year, r.ends year + 604800 ≤ yearStart (year + 1)
  behind : -86400 < r.standard
  ahead : r.summer < 86400

variable {r : Recurrence}

theorem IsUsual.season (hr : r.IsUsual) (year : Int) : (r.season year).IsUsual :=
  ⟨hr.shift, hr.lasts year⟩

theorem IsUsual.under (hr : r.IsUsual) (seconds : Int) : (r.under seconds).IsUsual :=
  hr.season _

/-- In the days about the turn of the year it is standard time by the seasons of both years. -/
theorem IsUsual.offsetAt_turn (hr : r.IsUsual) (year n : Int) (hle : yearStart year - 604800 ≤ n)
    (hlt : n < yearStart year + 604800) :
    (Zone.seasonal (r.season year)).offsetAt n = r.standard ∧
      (Zone.seasonal (r.season (year - 1))).offsetAt n = r.standard := by
  have hbegins := hr.begins year
  have hcloses := hr.closes (year - 1)
  rw [Int.sub_add_cancel] at hcloses
  exact ⟨Season.offsetAt_before (s := r.season year) (Int.lt_of_lt_of_le hlt hbegins),
    Season.offsetAt_after (s := r.season (year - 1)) (by show r.ends (year - 1) ≤ n; omega)⟩

/-- And a reading is taken as one of standard time. -/
theorem IsUsual.moment?_turn (hr : r.IsUsual) (year reading : Int)
    (hle : yearStart year - 345600 ≤ reading) (hlt : reading < yearStart year + 345600) :
    (Zone.seasonal (r.season year)).moment? reading = some (reading - r.standard) ∧
      (Zone.seasonal (r.season (year - 1))).moment? reading = some (reading - r.standard) := by
  have hbegins := hr.begins year
  have hcloses := hr.closes (year - 1)
  have hlasts := hr.lasts (year - 1)
  have hbehind := hr.behind
  have hahead := hr.ahead
  have hshift := hr.shift
  rw [Int.sub_add_cancel] at hcloses
  constructor
  · rw [Zone.moment?, if_pos (by show reading ≤ r.starts year + r.standard; omega)]
    rfl
  · rw [Zone.moment?,
      if_neg (by show ¬ reading ≤ r.starts (year - 1) + r.standard; omega),
      if_neg (by show ¬ reading < r.starts (year - 1) + r.summer; omega),
      if_neg (by show ¬ reading < r.ends (year - 1) + r.standard; omega)]
    rfl

/-- Within a day of a moment the clock shows the same by the season of either year. -/
theorem IsUsual.offsetAt_near (hr : r.IsUsual) {m n : Int} (hle : m - 172800 ≤ n)
    (hge : n ≤ m + 172800) : (r.under n).offsetAt n = (r.under m).offsetAt n := by
  obtain ⟨hfrom, hto⟩ := yearOf_spec m
  obtain hsame | ⟨hnext, hturn⟩ | ⟨hprev, hturn⟩ := yearOf_near hle hge
  · rw [Recurrence.under, hsame, Recurrence.under]
  · have hboth := hr.offsetAt_turn (yearOf m + 1) n (by omega) (by omega)
    rw [Int.add_sub_cancel] at hboth
    rw [Recurrence.under, hnext, Recurrence.under, hboth.1, hboth.2]
  · have hboth := hr.offsetAt_turn (yearOf m) n (by omega) (by omega)
    rw [Recurrence.under, hprev, Recurrence.under, hboth.1, hboth.2]

theorem IsUsual.moment?_near (hr : r.IsUsual) {m n : Int} (hle : m - 172800 ≤ n)
    (hge : n ≤ m + 172800) : r.moment? n = (r.under m).moment? n := by
  obtain ⟨hfrom, hto⟩ := yearOf_spec m
  rw [Recurrence.moment?]
  obtain hsame | ⟨hnext, hturn⟩ | ⟨hprev, hturn⟩ := yearOf_near hle hge
  · rw [Recurrence.under, hsame, Recurrence.under]
  · have hboth := hr.moment?_turn (yearOf m + 1) n (by omega) (by omega)
    rw [Int.add_sub_cancel] at hboth
    rw [Recurrence.under, hnext, Recurrence.under, hboth.1, hboth.2]
  · have hboth := hr.moment?_turn (yearOf m) n (by omega) (by omega)
    rw [Recurrence.under, hprev, Recurrence.under, hboth.1, hboth.2]

theorem IsUsual.offset_bounds (hr : r.IsUsual) (m n : Int) :
    -86400 < (r.under m).offsetAt n ∧ (r.under m).offsetAt n < 86400 := by
  have hshift := hr.shift
  have hbehind := hr.behind
  have hahead := hr.ahead
  have hoffset : (r.under m).offsetAt n = r.summer ∨ (r.under m).offsetAt n = r.standard :=
    ite_eq_or_eq _ _ _
  omega

/-- The clock about a moment is the one of a usual season: it expects the same next hour and shows
the same until then. -/
theorem under_one_season (hr : r.IsUsual) (now : Moment) :
    (r.under now.seconds).IsUsual ∧ r.nextHour now = (r.under now.seconds).nextHour now ∧
      ∀ t : Moment, now.seconds ≤ t.seconds → t.seconds ≤ now.seconds + 7200 →
        r.stamp t = (r.under now.seconds).stamp t := by
  refine ⟨hr.under _, ?_, ?_⟩
  · have hend := (r.under now.seconds).hourEnd_bounds now
    have hoffset := hr.offset_bounds now.seconds now.seconds
    rw [Zone.hourEnd] at hend
    have hmoment : r.moment? (r.nextReading now) =
        (r.under now.seconds).moment? ((r.under now.seconds).nextReading now) := by
      show r.moment? ((r.under now.seconds).nextReading now) = _
      exact hr.moment?_near (by omega) (by omega)
    rw [Recurrence.nextHour, hmoment]
    rfl
  · intro t hfrom hto
    exact congrArg (Stamp.mk t) (hr.offsetAt_near (by omega) (by omega))

/-! ## 3. The hour until the next one -/

/-- A moment from `now` on at which the next hour is still awaited. -/
structure Awaits (r : Recurrence) (now t : Moment) : Prop where
  since : now.atOrBefore t = true
  before : (r.nextHour now).atOrBefore t = false

theorem awaits_iff (hr : r.IsUsual) {now t : Moment} :
    r.Awaits now t ↔ (r.under now.seconds).Awaits now t := by
  have hnext := (under_one_season hr now).2.1
  exact ⟨fun h => ⟨h.since, hnext ▸ h.before⟩, fun h => ⟨h.since, hnext ▸ h.before⟩⟩

/-- In every year: the next hour is expected later than now, and until then date, hour and names are
those of now unless the clock of the year slips. -/
theorem hour_stays_iff (hr : r.IsUsual) (now : Moment) :
    (r.nextHour now).atOrBefore now = false ∧
      ((∀ t, r.Awaits now t → (r.stamp t).date = (r.stamp now).date ∧
        (r.stamp t).hour = (r.stamp now).hour) ↔ ¬ (r.under now.seconds).Slips now) ∧
      ((∀ t, r.Awaits now t → ∀ template : String,
        Template.resolve template.toList (r.stamp t) =
          Template.resolve template.toList (r.stamp now)) ↔
        ¬ (r.under now.seconds).Slips now) := by
  obtain ⟨hz, hnext, hstamp⟩ := under_one_season hr now
  obtain ⟨hlater, hwithin⟩ := nextHour_bounds hz now
  have hcount {t : Moment} (ht : (r.under now.seconds).Awaits now t) :
      (r.stamp t).hourCount = ((r.under now.seconds).stamp t).hourCount := by
    have hto := Moment.le_of_not_atOrBefore ht.before
    rw [hstamp t (Moment.le_of_atOrBefore ht.since) (by omega)]
  refine ⟨hnext ▸ Moment.not_atOrBefore_of_lt hlater, kept_iff_of ?_ ?_⟩
  · intro hslips t ht
    have ht' := (awaits_iff hr).1 ht
    rw [hcount ht']
    exact same_until_nextHour hz hslips ht'
  · intro hslips
    obtain ⟨t, ht, hother⟩ := exists_other_hour hz hslips
    refine ⟨t, (awaits_iff hr).2 ht, ?_⟩
    rw [hcount ht]
    exact hother

end Recurrence

/-! ## 4. The days of the changes -/

/-- The first Sunday from a day on. -/
def sundayFrom (day : Int) : Int := day + (6 - weekday day)

theorem sundayFrom_spec (day : Int) :
    weekday (sundayFrom day) = 6 ∧ day ≤ sundayFrom day ∧ sundayFrom day < day + 7 := by
  unfold sundayFrom weekday
  omega

/-- The first Sunday from 8 March on is the second one of the month. -/
theorem sunday_of_march (year : Int) :
    weekday (sundayFrom (march year + 7)) = 6 ∧
      ∃ day, 8 ≤ day ∧ day ≤ 14 ∧ Date.ofDay (sundayFrom (march year + 7)) = ⟨year, 3, day⟩ := by
  obtain ⟨hsunday, hle, hlt⟩ := sundayFrom_spec (march year + 7)
  obtain ⟨place, hplace⟩ := Int.eq_ofNat_of_zero_le
    (show 0 ≤ sundayFrom (march year + 7) - march year by omega)
  have hday : sundayFrom (march year + 7) = march year + place := by omega
  refine ⟨hsunday, place + 1, by omega, by omega, ?_⟩
  rw [hday, ofDay_march year (by omega)]

theorem sunday_of_november (year : Int) :
    weekday (sundayFrom (march year + 245)) = 6 ∧
      ∃ day, 1 ≤ day ∧ day ≤ 7 ∧ Date.ofDay (sundayFrom (march year + 245)) = ⟨year, 11, day⟩ := by
  obtain ⟨hsunday, hle, hlt⟩ := sundayFrom_spec (march year + 245)
  obtain ⟨place, hplace⟩ := Int.eq_ofNat_of_zero_le
    (show 0 ≤ sundayFrom (march year + 245) - (march year + 245) by omega)
  have hday : sundayFrom (march year + 245) = march year + 245 + place := by omega
  refine ⟨hsunday, place + 1, by omega, by omega, ?_⟩
  rw [hday, ofDay_november year (by omega)]

/-! ## 5. From March to November -/

/-- Summer time five hours behind UTC, from the second Sunday of March to the first Sunday of
November. The changes are at the times of day `forward` in standard time and `back` in summer
time. -/
def sundays (forward back : Int) : Recurrence where
  standard := -18000
  summer := -14400
  starts year := sundayFrom (march year + 7) * 86400 + forward + 18000
  ends year := sundayFrom (march year + 245) * 86400 + back + 14400

theorem isUsual_sundays {forward back : Int} (hforward : 0 ≤ forward ∧ forward < 86400)
    (hback : 0 ≤ back ∧ back < 86400) : (sundays forward back).IsUsual := by
  have hstarts (year : Int) := (sundayFrom_spec (march year + 7)).2
  have hends (year : Int) := (sundayFrom_spec (march year + 245)).2
  have hyear (year : Int) := daysBeforeYear_add year
  refine ⟨rfl, fun year => ?_, fun year => ?_, fun year => ?_, ?_, ?_⟩
  · have := hstarts year
    have := hends year
    simp only [sundays]
    omega
  · have := hstarts year
    have := daysBeforeYear_march year
    have := hyear year
    simp only [sundays, yearStart]
    omega
  · have := hends year
    have := daysBeforeYear_march year
    simp only [sundays, yearStart]
    omega
  · show (-86400 : Int) < -18000
    decide
  · show (-14400 : Int) < 86400
    decide

/-- With changes at two o'clock. -/
def eastern : Recurrence := sundays 7200 7200

/-- With changes at half past one and at half past two. -/
def halfPast : Recurrence := sundays 5400 9000

theorem isUsual_eastern : eastern.IsUsual := isUsual_sundays (by decide) (by decide)

theorem isUsual_halfPast : halfPast.IsUsual := isUsual_sundays (by decide) (by decide)

theorem season_eastern_2024 : Zone.seasonal (eastern.season 2024) = Zone.eastern2024 := by
  decide

theorem season_halfPast_2024 : Zone.seasonal (halfPast.season 2024) = Zone.halfPast2024 := by
  decide

/-- In every year a clock with full hours slips only in the hour before one is shown twice. -/
theorem slips_eastern_iff (year : Int) (now : Moment) :
    (Zone.seasonal (eastern.season year)).Slips now ↔
      eastern.ends year - 7200 ≤ now.seconds ∧ now.seconds < eastern.ends year - 3600 := by
  have hlasts := isUsual_eastern.lasts year
  rw [slips_seasonal_iff]
  simp only [eastern, sundays, Recurrence.season] at hlasts ⊢
  omega

/-- With half hours it slips in the half hour before it is set forward, and in the hour and a half
before it is set back. -/
theorem slips_halfPast_iff (year : Int) (now : Moment) :
    (Zone.seasonal (halfPast.season year)).Slips now ↔
      (halfPast.starts year - 1800 ≤ now.seconds ∧ now.seconds < halfPast.starts year) ∨
      (halfPast.ends year - 5400 ≤ now.seconds ∧ now.seconds < halfPast.ends year) := by
  have hlasts := isUsual_halfPast.lasts year
  rw [slips_seasonal_iff]
  simp only [halfPast, sundays, Recurrence.season] at hlasts ⊢
  omega

end Logbook.Time
