import Logbook.Proofs.Template.Resolving
import Logbook.Time.Zone

/-!
# Hours of a local clock

A sink keeps the start of the next hour as it was worked out at one moment and takes the name of its
file to be good until then. On a clock at a fixed offset it is. Summer time is a matter of its own:
the hour in which the clock is put forward inside of an hour ends early, and where an hour is shown
twice the start of the next hour is taken to be its second time.

Results:
1. `same_hour`: before the end of an hour it is still the same hour, on a clock at a fixed offset.
2. `Season.nextHour_cases`, `nextHour_bounds`: where the next hour is expected, in summer or not.
3. `same_until_nextHour`, `exists_other_hour`: when the hour stays the same until then and when it
   does not.
4. `slips_eastern2024_iff`, `slips_halfPast2024_iff`: when a clock slips.
5. `hour_kept_iff`: date, hour and names until the next hour is expected.
-/

namespace Logbook.Time

/-! ## 1. Hours -/

theorem Moment.le_of_atOrBefore {a b : Moment} (h : a.atOrBefore b = true) :
    a.seconds ≤ b.seconds := by
  simp only [Moment.atOrBefore, Bool.or_eq_true, decide_eq_true_eq, Bool.and_eq_true,
    beq_iff_eq] at h
  omega

theorem Moment.le_of_not_atOrBefore {a b : Moment} (h : a.atOrBefore b = false) :
    b.seconds ≤ a.seconds := by
  simp only [Moment.atOrBefore, Bool.or_eq_false_iff, decide_eq_false_iff_not] at h
  exact Int.not_lt.1 h.1

theorem Moment.lt_of_not_atOrBefore {m : Int} {b : Moment}
    (h : (Moment.mk m 0).atOrBefore b = false) : b.seconds < m := by
  simp only [Moment.atOrBefore, Bool.or_eq_false_iff, decide_eq_false_iff_not,
    Bool.and_eq_false_iff, beq_eq_false_iff_ne] at h
  omega

theorem Moment.atOrBefore_of_lt {a b : Moment} (h : a.seconds < b.seconds) :
    a.atOrBefore b = true := by
  simp only [Moment.atOrBefore, h, decide_true, Bool.true_or]

theorem Moment.not_atOrBefore_of_lt {a b : Moment} (h : b.seconds < a.seconds) :
    a.atOrBefore b = false := by
  simp only [Moment.atOrBefore, Bool.or_eq_false_iff, decide_eq_false_iff_not,
    Bool.and_eq_false_iff, beq_eq_false_iff_ne]
  omega

/-- The hours on the local clock, counted from 1970. -/
def Stamp.hourCount (t : Stamp) : Int := t.localSeconds / 3600

theorem Stamp.date_of_hourCount {t t' : Stamp} (h : t.hourCount = t'.hourCount) :
    t.date = t'.date := by
  have hday (t : Stamp) : t.localDay = t.hourCount / 24 := by
    unfold localDay hourCount
    omega
  rw [date, date, hday, hday, h]

theorem Stamp.hour_eq (t : Stamp) : (t.hour : Int) = t.hourCount % 24 := by
  unfold hour secondOfDay hourCount
  omega

theorem Stamp.hour_of_hourCount {t t' : Stamp} (h : t.hourCount = t'.hourCount) :
    t.hour = t'.hour := by
  have heq : (t.hour : Int) = t'.hour := by rw [hour_eq, hour_eq, h]
  exact Int.ofNat_inj.mp heq

theorem Stamp.hour_lt (t : Stamp) : t.hour < 24 := by
  unfold hour secondOfDay
  omega

variable {zone : Zone} {now t : Moment}

theorem Zone.hourCount_stamp (zone : Zone) (t : Moment) :
    (zone.stamp t).hourCount = (t.seconds + zone.offsetAt t.seconds) / 3600 :=
  rfl

/-- When the hour of a moment ends, if the clock is not changed before. -/
def Zone.hourEnd (zone : Zone) (now : Moment) : Int :=
  zone.nextReading now - zone.offsetAt now.seconds

theorem Zone.hourEnd_eq (zone : Zone) (now : Moment) :
    zone.hourEnd now = (zone.stamp now).hourCount * 3600 + 3600 - zone.offsetAt now.seconds :=
  rfl

theorem Zone.hourEnd_bounds (zone : Zone) (now : Moment) :
    now.seconds < zone.hourEnd now ∧ zone.hourEnd now ≤ now.seconds + 3600 := by
  rw [hourEnd_eq, hourCount_stamp]
  omega

/-- A clock shows an hour until the hour ends, unless it is changed. -/
theorem Zone.hourCount_eq (hfrom : now.seconds ≤ t.seconds) (hto : t.seconds < zone.hourEnd now)
    (hoffset : zone.offsetAt t.seconds = zone.offsetAt now.seconds) :
    (zone.stamp t).hourCount = (zone.stamp now).hourCount := by
  rw [hourEnd_eq, hourCount_stamp] at hto
  rw [hourCount_stamp, hourCount_stamp, hoffset]
  omega

theorem nextHour_fixed (offset : Int) (now : Moment) :
    (Zone.fixed offset).nextHour now =
      ⟨((Zone.fixed offset).stamp now).hourCount * 3600 + 3600 - offset, 0⟩ :=
  rfl

/-- Before the end of an hour it is still the same hour. -/
theorem same_hour {offset : Int} {last now : Moment} (hle : last.atOrBefore now = true)
    (h : ((Zone.fixed offset).nextHour last).atOrBefore now = false) :
    ((Zone.fixed offset).stamp last).hourCount = ((Zone.fixed offset).stamp now).hourCount := by
  rw [nextHour_fixed] at h
  exact (Zone.hourCount_eq (Moment.le_of_atOrBefore hle) (Moment.lt_of_not_atOrBefore h) rfl).symm

/-! ## 2. Where the next hour is expected -/

/-- Summer time sets the clock forward by an hour, and lasts an hour at least. -/
structure Season.IsUsual (s : Season) : Prop where
  shift : s.summer = s.standard + 3600
  lasts : s.starts + 3600 ≤ s.ends

/-- A clock at a fixed offset, or one with a usual summer time. -/
def Zone.IsUsual : Zone → Prop
  | .fixed _ => True
  | .seasonal s => s.IsUsual

theorem Zone.isUsual_fixed (offset : Int) : (Zone.fixed offset).IsUsual := trivial

theorem Zone.isUsual_eastern2024 : eastern2024.IsUsual := ⟨by decide, by decide⟩

theorem Zone.isUsual_halfPast2024 : halfPast2024.IsUsual := ⟨by decide, by decide⟩

variable {s : Season}

theorem Season.offsetAt_before {n : Int} (h : n < s.starts) :
    (Zone.seasonal s).offsetAt n = s.standard := by
  simp [Zone.offsetAt, Int.not_le.2 h]

theorem Season.offsetAt_summer {n : Int} (h : s.starts ≤ n) (h' : n < s.ends) :
    (Zone.seasonal s).offsetAt n = s.summer := by
  simp [Zone.offsetAt, h, h']

theorem Season.offsetAt_after {n : Int} (h : s.ends ≤ n) :
    (Zone.seasonal s).offsetAt n = s.standard := by
  simp [Zone.offsetAt, Int.not_lt.2 h]

theorem Zone.nextHour_some {m : Int}
    (h : zone.moment? (zone.hourEnd now + zone.offsetAt now.seconds) = some m) :
    zone.nextHour now = ⟨m, 0⟩ := by
  rw [hourEnd, Int.sub_add_cancel] at h
  rw [nextHour, h]

theorem Zone.nextHour_none
    (h : zone.moment? (zone.hourEnd now + zone.offsetAt now.seconds) = none) :
    zone.nextHour now = now.addHour := by
  rw [hourEnd, Int.sub_add_cancel] at h
  rw [nextHour, h]

/-- In standard time before the clock is set forward. -/
theorem Season.nextHour_before (hs : s.IsUsual) (hbefore : now.seconds < s.starts)
    (hend : (Zone.seasonal s).hourEnd now ≤ s.starts) :
    (Zone.seasonal s).nextHour now = ⟨(Zone.seasonal s).hourEnd now, 0⟩ := by
  have hshift := hs.shift
  refine Zone.nextHour_some ?_
  rw [offsetAt_before hbefore, Zone.moment?, if_pos (by omega), Int.add_sub_cancel]

/-- When the clock is set forward inside of the hour, the next one has no start. -/
theorem Season.nextHour_gap (hs : s.IsUsual) (hbefore : now.seconds < s.starts)
    (hgap : s.starts < (Zone.seasonal s).hourEnd now) :
    (Zone.seasonal s).nextHour now = now.addHour := by
  have hshift := hs.shift
  have hbounds := (Zone.seasonal s).hourEnd_bounds now
  refine Zone.nextHour_none ?_
  rw [offsetAt_before hbefore, Zone.moment?, if_neg (by omega), if_pos (by omega)]

/-- In summer time, until an hour before the clock is set back. -/
theorem Season.nextHour_summer (hs : s.IsUsual) (hbegun : s.starts ≤ now.seconds)
    (hsummer : now.seconds < s.ends) (hearly : (Zone.seasonal s).hourEnd now < s.ends - 3600) :
    (Zone.seasonal s).nextHour now = ⟨(Zone.seasonal s).hourEnd now, 0⟩ := by
  have hshift := hs.shift
  have hbounds := (Zone.seasonal s).hourEnd_bounds now
  refine Zone.nextHour_some ?_
  rw [offsetAt_summer hbegun hsummer, Zone.moment?, if_neg (by omega), if_neg (by omega),
    if_pos (by omega), Int.add_sub_cancel]

/-- An hour that will be shown twice is expected where it is shown the second time. -/
theorem Season.nextHour_late (hs : s.IsUsual) (hbegun : s.starts ≤ now.seconds)
    (hsummer : now.seconds < s.ends) (hlate : s.ends - 3600 ≤ (Zone.seasonal s).hourEnd now) :
    (Zone.seasonal s).nextHour now = ⟨(Zone.seasonal s).hourEnd now + 3600, 0⟩ := by
  have hshift := hs.shift
  have hbounds := (Zone.seasonal s).hourEnd_bounds now
  refine Zone.nextHour_some ?_
  rw [offsetAt_summer hbegun hsummer, Zone.moment?, if_neg (by omega), if_neg (by omega),
    if_neg (by omega)]
  exact congrArg some (by omega)

/-- In standard time after the clock has been set back. -/
theorem Season.nextHour_after (hs : s.IsUsual) (hafter : s.ends ≤ now.seconds) :
    (Zone.seasonal s).nextHour now = ⟨(Zone.seasonal s).hourEnd now, 0⟩ := by
  obtain ⟨hshift, hlasts⟩ := hs
  have hbounds := (Zone.seasonal s).hourEnd_bounds now
  refine Zone.nextHour_some ?_
  rw [offsetAt_after hafter, Zone.moment?, if_neg (by omega), if_neg (by omega),
    if_neg (by omega), Int.add_sub_cancel]

/-- Where the next hour is expected, by the place of a moment in the year. -/
theorem Season.nextHour_cases (hs : s.IsUsual) (now : Moment) :
    let zone := Zone.seasonal s
    let e := zone.hourEnd now
    (now.seconds < s.starts ∧ e ≤ s.starts ∧ zone.nextHour now = ⟨e, 0⟩) ∨
    (now.seconds < s.starts ∧ s.starts < e ∧ zone.nextHour now = now.addHour) ∨
    (s.starts ≤ now.seconds ∧ now.seconds < s.ends ∧ e < s.ends - 3600 ∧
      zone.nextHour now = ⟨e, 0⟩) ∨
    (s.starts ≤ now.seconds ∧ now.seconds < s.ends ∧ s.ends - 3600 ≤ e ∧
      zone.nextHour now = ⟨e + 3600, 0⟩) ∨
    (s.ends ≤ now.seconds ∧ zone.nextHour now = ⟨e, 0⟩) := by
  intro zone e
  rcases Int.lt_or_le now.seconds s.starts with hbefore | hbegun
  · rcases Int.lt_or_le s.starts e with hgap | hend
    · exact .inr (.inl ⟨hbefore, hgap, nextHour_gap hs hbefore hgap⟩)
    · exact .inl ⟨hbefore, hend, nextHour_before hs hbefore hend⟩
  rcases Int.lt_or_le now.seconds s.ends with hsummer | hafter
  · rcases Int.lt_or_le e (s.ends - 3600) with hearly | hlate
    · exact .inr (.inr (.inl ⟨hbegun, hsummer, hearly, nextHour_summer hs hbegun hsummer hearly⟩))
    · exact .inr (.inr (.inr (.inl
        ⟨hbegun, hsummer, hlate, nextHour_late hs hbegun hsummer hlate⟩)))
  · exact .inr (.inr (.inr (.inr ⟨hafter, nextHour_after hs hafter⟩)))

/-- The next hour is expected later than now, and in two hours at the latest. -/
theorem nextHour_bounds (hz : zone.IsUsual) (now : Moment) :
    now.seconds < (zone.nextHour now).seconds ∧
      (zone.nextHour now).seconds ≤ now.seconds + 7200 := by
  have hbounds := zone.hourEnd_bounds now
  have hend : now.seconds < zone.hourEnd now ∧ zone.hourEnd now ≤ now.seconds + 7200 := by omega
  cases zone with
  | fixed offset => exact hend
  | seasonal s =>
    obtain ⟨-, -, h⟩ | ⟨-, -, h⟩ | ⟨-, -, -, h⟩ | ⟨-, -, -, h⟩ | ⟨-, h⟩ :=
      Season.nextHour_cases hz now
    · exact h ▸ hend
    · rw [h]
      show now.seconds < now.seconds + 3600 ∧ now.seconds + 3600 ≤ now.seconds + 7200
      omega
    · exact h ▸ hend
    · rw [h]
      dsimp only
      omega
    · exact h ▸ hend

/-! ## 3. The hour until then -/

/-- A moment from `now` on at which the next hour is still awaited. -/
structure Zone.Awaits (zone : Zone) (now t : Moment) : Prop where
  since : now.atOrBefore t = true
  before : (zone.nextHour now).atOrBefore t = false

/-- The clock is changed before the next hour is expected, and shows another hour then: it is set
forward inside of the hour, or set back in another moment than at its end. -/
def Zone.Slips (zone : Zone) (now : Moment) : Prop :=
  match zone with
  | .fixed _ => False
  | .seasonal s =>
    (now.seconds < s.starts ∧ s.starts < zone.hourEnd now) ∨
      (s.starts ≤ now.seconds ∧ now.seconds < s.ends ∧ s.ends - 3600 ≤ zone.hourEnd now ∧
        zone.hourEnd now ≠ s.ends)

/-- Unless the clock slips, it shows the same hour until the next one is expected. -/
theorem same_until_nextHour (hz : zone.IsUsual) (hslips : ¬ zone.Slips now)
    (ht : zone.Awaits now t) : (zone.stamp t).hourCount = (zone.stamp now).hourCount := by
  have hfrom := Moment.le_of_atOrBefore ht.since
  have hto := ht.before
  cases zone with
  | fixed offset => exact (same_hour ht.since hto).symm
  | seasonal s =>
    obtain ⟨hbefore, hend, h⟩ | ⟨hbefore, hgap, -⟩ | ⟨hbegun, hsummer, hend, h⟩ |
      ⟨hbegun, hsummer, hend, h⟩ | ⟨hafter, h⟩ := Season.nextHour_cases hz now
    · have hlt := Moment.lt_of_not_atOrBefore (h ▸ hto)
      refine Zone.hourCount_eq hfrom hlt ?_
      rw [Season.offsetAt_before hbefore, Season.offsetAt_before (by omega)]
    · exact absurd (.inl ⟨hbefore, hgap⟩) hslips
    · have hlt := Moment.lt_of_not_atOrBefore (h ▸ hto)
      refine Zone.hourCount_eq hfrom hlt ?_
      rw [Season.offsetAt_summer hbegun hsummer, Season.offsetAt_summer (by omega) (by omega)]
    · -- the hour ends when the clock is set back, and is shown once more
      have hlt := Moment.lt_of_not_atOrBefore (h ▸ hto)
      have hback : (Zone.seasonal s).hourEnd now = s.ends := by
        by_contra hne
        exact hslips (.inr ⟨hbegun, hsummer, hend, hne⟩)
      rcases Int.lt_or_le t.seconds s.ends with hfirst | hsecond
      · refine Zone.hourCount_eq hfrom (hback ▸ hfirst) ?_
        rw [Season.offsetAt_summer hbegun hsummer, Season.offsetAt_summer (by omega) hfirst]
      · have hshift := hz.shift
        rw [hback] at hlt
        rw [Zone.hourEnd_eq, Season.offsetAt_summer hbegun hsummer] at hback
        rw [Zone.hourCount_stamp, Season.offsetAt_after hsecond]
        omega
    · have hlt := Moment.lt_of_not_atOrBefore (h ▸ hto)
      refine Zone.hourCount_eq hfrom hlt ?_
      rw [Season.offsetAt_after hafter, Season.offsetAt_after (by omega)]

/-- If the clock slips, it shows the hour before or the hour after while the next one is expected
still. -/
theorem exists_other_hour (hz : zone.IsUsual) (hslips : zone.Slips now) :
    ∃ t, zone.Awaits now t ∧
      ((zone.stamp t).hourCount = (zone.stamp now).hourCount + 1 ∨
        (zone.stamp t).hourCount = (zone.stamp now).hourCount - 1) := by
  have hbounds := zone.hourEnd_bounds now
  cases zone with
  | fixed offset => exact absurd hslips id
  | seasonal s =>
    have hshift := hz.shift
    have hawaits (m : Int) (hlt : now.seconds < m)
        (hnext : m < ((Zone.seasonal s).nextHour now).seconds) :
        (Zone.seasonal s).Awaits now ⟨m, 0⟩ :=
      ⟨Moment.atOrBefore_of_lt hlt, Moment.not_atOrBefore_of_lt hnext⟩
    have hcount := (Zone.seasonal s).hourEnd_eq now
    have hat (m : Int) : ((Zone.seasonal s).stamp ⟨m, 0⟩).hourCount =
        (m + (Zone.seasonal s).offsetAt m) / 3600 := rfl
    obtain ⟨hbefore, hgap⟩ | ⟨hbegun, hsummer, hlate, hne⟩ := hslips
    · -- the clock is set forward: its first moment of summer time
      have hnext : s.starts < ((Zone.seasonal s).nextHour now).seconds := by
        rw [Season.nextHour_gap hz hbefore hgap]
        show s.starts < now.seconds + 3600
        omega
      refine ⟨⟨s.starts, 0⟩, hawaits _ hbefore hnext, .inl ?_⟩
      rw [Season.offsetAt_before hbefore] at hcount
      rw [hat, Season.offsetAt_summer (Int.le_refl _) (by have := hz.lasts; omega)]
      omega
    have hnext := Season.nextHour_late hz hbegun hsummer hlate
    rw [Season.offsetAt_summer hbegun hsummer] at hcount
    rcases Int.lt_or_le ((Zone.seasonal s).hourEnd now) s.ends with hfirst | hsecond
    · -- an hour begins that will be shown again, and the second time is awaited
      refine ⟨⟨(Zone.seasonal s).hourEnd now, 0⟩, hawaits _ hbounds.1 ?_, .inl ?_⟩
      · rw [hnext]
        exact Int.lt_add_of_pos_right _ (by decide)
      · rw [hat, Season.offsetAt_summer (by omega) hfirst]
        omega
    · -- the clock is set back inside of the hour: its first moment of standard time
      refine ⟨⟨s.ends, 0⟩, hawaits _ hsummer ?_, .inr ?_⟩
      · rw [hnext]
        exact Int.lt_of_le_of_lt hsecond (Int.lt_add_of_pos_right _ (by decide))
      · rw [hat, Season.offsetAt_after (Int.le_refl _)]
        omega

/-! ## 4. When a clock slips -/

/-- The clock slips, in terms of the offsets before and after the change. -/
theorem slips_seasonal_iff :
    (Zone.seasonal s).Slips now ↔
      (now.seconds < s.starts ∧
        s.starts < (now.seconds + s.standard) / 3600 * 3600 + 3600 - s.standard) ∨
      (s.starts ≤ now.seconds ∧ now.seconds < s.ends ∧
        s.ends - 3600 ≤ (now.seconds + s.summer) / 3600 * 3600 + 3600 - s.summer ∧
        (now.seconds + s.summer) / 3600 * 3600 + 3600 - s.summer ≠ s.ends) := by
  have hend := (Zone.seasonal s).hourEnd_eq now
  rw [Zone.hourCount_stamp] at hend
  refine or_congr (and_congr_right fun hbefore => ?_) (and_congr_right fun hbegun =>
    and_congr_right fun hsummer => ?_)
  · rw [hend, Season.offsetAt_before hbefore]
  · rw [hend, Season.offsetAt_summer hbegun hsummer]

/-- With full hours the clock slips only in the hour before one is shown twice. -/
theorem slips_eastern2024_iff :
    Zone.eastern2024.Slips now ↔ 1730606400 ≤ now.seconds ∧ now.seconds < 1730610000 := by
  rw [Zone.eastern2024, slips_seasonal_iff]
  dsimp only
  omega

/-- With half hours it slips in the half hour before it is set forward, and in the hour and a half
before it is set back. -/
theorem slips_halfPast2024_iff :
    Zone.halfPast2024.Slips now ↔ (1710050400 ≤ now.seconds ∧ now.seconds < 1710052200) ∨
      (1730610000 ≤ now.seconds ∧ now.seconds < 1730615400) := by
  rw [Zone.halfPast2024, slips_seasonal_iff]
  dsimp only
  omega

/-! ## 5. What is seen of it -/

theorem resolve_hour (t : Stamp) :
    Template.resolve ['H', 'H'] t = Pattern.twoDigits .zero t.hour :=
  Template.dateText_hour t

/-- A name that is made of the hour tells hours apart. -/
theorem resolve_hour_inj {t t' : Stamp}
    (h : Template.resolve ['H', 'H'] t = Template.resolve ['H', 'H'] t') : t.hour = t'.hour := by
  have hall : ∀ m < 24, ∀ n < 24,
      Pattern.twoDigits .zero (m : Nat) = Pattern.twoDigits .zero (n : Nat) → m = n := by
    decide
  rw [resolve_hour, resolve_hour] at h
  exact hall _ t.hour_lt _ t'.hour_lt h

/-- Where a clock slips, date and hour do not stay those of now, and no more do all names made of
them; where it does not, they all do. -/
theorem kept_iff_of {stamp : Moment → Stamp} {now : Moment} {slips : Prop} {awaits : Moment → Prop}
    (hsame : ¬ slips → ∀ t, awaits t → (stamp t).hourCount = (stamp now).hourCount)
    (hother : slips → ∃ t, awaits t ∧ ((stamp t).hourCount = (stamp now).hourCount + 1 ∨
      (stamp t).hourCount = (stamp now).hourCount - 1)) :
    ((∀ t, awaits t → (stamp t).date = (stamp now).date ∧ (stamp t).hour = (stamp now).hour) ↔
        ¬ slips) ∧
      ((∀ t, awaits t → ∀ template : String,
        Template.resolve template.toList (stamp t) = Template.resolve template.toList (stamp now)) ↔
        ¬ slips) := by
  have hkept (hslips : ¬ slips) (t : Moment) (ht : awaits t) :
      (stamp t).date = (stamp now).date ∧ (stamp t).hour = (stamp now).hour :=
    ⟨Stamp.date_of_hourCount (hsame hslips t ht), Stamp.hour_of_hourCount (hsame hslips t ht)⟩
  have hchanged (hslips : slips) : ∃ t, awaits t ∧ (stamp t).hour ≠ (stamp now).hour := by
    obtain ⟨t, ht, hcount⟩ := hother hslips
    refine ⟨t, ht, fun he => ?_⟩
    have heq := congrArg Int.ofNat he
    simp only [Int.ofNat_eq_natCast, Stamp.hour_eq] at heq
    omega
  refine ⟨⟨?_, hkept⟩, ⟨?_, ?_⟩⟩
  · intro hall hslips
    obtain ⟨t, ht, hne⟩ := hchanged hslips
    exact hne (hall t ht).2
  · intro hall hslips
    obtain ⟨t, ht, hne⟩ := hchanged hslips
    exact hne (resolve_hour_inj (hall t ht "HH"))
  · intro hslips t ht template
    exact Template.resolve_congr _ (hkept hslips t ht).1 (hkept hslips t ht).2

/-- The next hour is expected later than now. Until then the local date and hour are those of now,
and so are the names made of them, unless the clock slips: then there is a moment with another hour,
and a name that is another at that moment. -/
theorem hour_kept_iff (hz : zone.IsUsual) (now : Moment) :
    (zone.nextHour now).atOrBefore now = false ∧
      ((∀ t, zone.Awaits now t → (zone.stamp t).date = (zone.stamp now).date ∧
        (zone.stamp t).hour = (zone.stamp now).hour) ↔ ¬ zone.Slips now) ∧
      ((∀ t, zone.Awaits now t → ∀ template : String,
        Template.resolve template.toList (zone.stamp t) =
          Template.resolve template.toList (zone.stamp now)) ↔ ¬ zone.Slips now) := by
  refine ⟨Moment.not_atOrBefore_of_lt (nextHour_bounds hz now).1, ?_⟩
  exact kept_iff_of (fun hslips _ ht => same_until_nextHour hz hslips ht) (exists_other_hour hz)

/-- At the first one o'clock of the day on which the clock is set back, the hour that is shown twice
is kept to the end of the second time. -/
theorem hour_kept_eastern2024 :
    Zone.eastern2024.IsUsual ∧
      ∀ t, Zone.eastern2024.Awaits ⟨1730610000, 0⟩ t →
        (Zone.eastern2024.stamp t).date = (Zone.eastern2024.stamp ⟨1730610000, 0⟩).date ∧
          (Zone.eastern2024.stamp t).hour = (Zone.eastern2024.stamp ⟨1730610000, 0⟩).hour := by
  refine ⟨Zone.isUsual_eastern2024, ?_⟩
  refine (hour_kept_iff Zone.isUsual_eastern2024 ⟨1730610000, 0⟩).2.1.2 fun hslips => ?_
  exact absurd (slips_eastern2024_iff.1 hslips).2 (by decide)

/-- Half past midnight of that day, and half past one for the first time: the next hour is awaited
still. -/
theorem hour_changes_unseen :
    Zone.eastern2024.Awaits ⟨1730608200, 0⟩ ⟨1730611800, 0⟩ ∧
      (Zone.eastern2024.stamp ⟨1730608200, 0⟩).hour = 0 ∧
      (Zone.eastern2024.stamp ⟨1730611800, 0⟩).hour = 1 :=
  ⟨⟨by decide, by decide⟩, by decide, by decide⟩

end Logbook.Time
