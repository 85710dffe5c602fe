import Logbook.Proofs.Template.Candidates
import Logbook.Proofs.Text.Matching

/-!
# Resolving a template

A template is resolved by way of a pattern. What comes of it is what putting the parts of the date
in the place of the tokens gives: the percent signs of a template and the letters next to a token
never join into a specifier of their own.

Results:
1. `resolve_eq_substituted`: resolving is putting in the parts of the date.
2. `resolve_congr`: a template is the same throughout an hour.
3. `hasIndex_resolve`: the date neither makes nor breaks a place for the counter.
4. `candidate_resolve_inj`: the resolved template and the counter can be told from a candidate, for
   years of four digits.
-/

namespace Logbook

open Time (Stamp)

namespace Template

open Text (Matches Avoids SameDigits Breaks replaceFirst)

/-! ## 1. The parts of a date -/

/-- The part of a date that a specifier stands for. -/
def dateText (t : Stamp) (specifier : List Char) : List Char :=
  (Time.Pattern.render? specifier t).getD []

/-- A template with the parts of the date in the place of its tokens. -/
def substituted (t : Stamp) (template : List Char) : List Char :=
  dateTokens.foldl (fun s (token, specifier) => replaceFirst token (dateText t specifier) s)
    template

theorem dateText_year (t : Stamp) :
    dateText t ['%', 'Y'] = Time.Pattern.yearField .zero t.date.year :=
  List.append_nil _

theorem dateText_yearOfCentury (t : Stamp) :
    dateText t ['%', 'y'] = Time.Pattern.twoDigits .zero (t.date.year % 100) :=
  List.append_nil _

theorem dateText_month (t : Stamp) :
    dateText t ['%', 'm'] = Time.Pattern.twoDigits .zero t.date.month :=
  List.append_nil _

theorem dateText_day (t : Stamp) :
    dateText t ['%', 'd'] = Time.Pattern.twoDigits .zero t.date.day :=
  List.append_nil _

theorem dateText_hour (t : Stamp) :
    dateText t ['%', 'H'] = Time.Pattern.twoDigits .zero t.hour :=
  List.append_nil _

/-- What holds of the five parts of a date holds of every specifier of a template. -/
theorem forall_specifier {P : List Char → Prop} (hyear : P ['%', 'Y'])
    (hcentury : P ['%', 'y']) (hmonth : P ['%', 'm']) (hday : P ['%', 'd']) (hhour : P ['%', 'H']) :
    ∀ entry ∈ dateTokens, P entry.2 := by
  intro entry hmem
  simp only [dateTokens, List.mem_cons, List.not_mem_nil, or_false] at hmem
  rcases hmem with rfl | rfl | rfl | rfl | rfl
  · exact hyear
  · exact hcentury
  · exact hmonth
  · exact hday
  · exact hhour

/-- A row of so many digits. -/
structure DigitRow (length : Nat) (s : List Char) : Prop where
  length_eq : s.length = length
  digits : ∀ c ∈ s, c.isDigit = true

theorem digitRow_twoDigits {n : Nat} (h : n < 100) :
    DigitRow 2 (Time.Pattern.twoDigits .zero n) := by
  have hall : ∀ n < 100, (Time.Pattern.twoDigits .zero (n : Nat)).length = 2 ∧
      (Time.Pattern.twoDigits .zero (n : Nat)).all Char.isDigit = true := by
    decide
  exact ⟨(hall n h).1, List.all_eq_true.mp (hall n h).2⟩

theorem dayOfYear_lt (day : Int) : (Time.marchYear day).2 < 500 := by
  unfold Time.marchYear
  dsimp only
  have h : ((day + 719468) % 146097).toNat < 146097 := by omega
  generalize ((day + 719468) % 146097).toNat = d at h
  omega

/-- Months and days have two digits. -/
theorem date_lt (day : Int) :
    (Time.Date.ofDay day).month < 100 ∧ (Time.Date.ofDay day).day < 100 := by
  have h := dayOfYear_lt day
  unfold Time.Date.ofDay
  generalize Time.marchYear day = march at h
  dsimp only
  constructor
  · split <;> omega
  · omega

theorem digitRow_month (t : Stamp) : DigitRow 2 (dateText t ['%', 'm']) :=
  dateText_month t ▸ digitRow_twoDigits (date_lt t.localDay).1

theorem digitRow_day (t : Stamp) : DigitRow 2 (dateText t ['%', 'd']) :=
  dateText_day t ▸ digitRow_twoDigits (date_lt t.localDay).2

theorem digitRow_hour (t : Stamp) : DigitRow 2 (dateText t ['%', 'H']) := by
  have h : t.hour < 100 := by
    unfold Stamp.hour Stamp.secondOfDay
    omega
  exact dateText_hour t ▸ digitRow_twoDigits h

theorem digitRow_yearOfCentury (t : Stamp) : DigitRow 2 (dateText t ['%', 'y']) := by
  have hpos : 0 ≤ t.date.year % 100 := Int.emod_nonneg _ (by decide)
  obtain ⟨n, hn⟩ := Int.eq_ofNat_of_zero_le hpos
  have hlt : n < 100 := by omega
  rw [dateText_yearOfCentury, hn]
  exact digitRow_twoDigits hlt

/-- A character of which the parts of a date consist. -/
def isDateChar (c : Char) : Bool := c.isDigit || c == '+' || c == '-'

theorem isDateChar_inField {width : Nat} {plus : Bool} {n : Int} {c : Char}
    (h : c ∈ Time.Pattern.inField width .zero plus n) : isDateChar c = true := by
  unfold Time.Pattern.inField at h
  dsimp only at h
  rcases List.mem_append.mp h with hsign | hdigits
  · unfold Time.Pattern.signOf at hsign
    split at hsign
    · obtain rfl := List.mem_singleton.mp hsign
      rfl
    · split at hsign
      · obtain rfl := List.mem_singleton.mp hsign
        rfl
      · cases hsign
  · rcases List.mem_append.mp hdigits with hzero | hdigit
    · rw [List.eq_of_mem_replicate hzero]
      rfl
    · unfold isDateChar
      rw [(Decimal.isDigits_digitsOf n.natAbs).2 c hdigit]
      rfl

theorem inField_ne_nil (width : Nat) (plus : Bool) (n : Int) :
    Time.Pattern.inField width .zero plus n ≠ [] := by
  intro h
  obtain ⟨-, hfill⟩ := List.append_eq_nil_iff.mp h
  obtain ⟨-, hdigits⟩ := List.append_eq_nil_iff.mp hfill
  exact (Decimal.isDigits_digitsOf n.natAbs).1 hdigits

/-- A text that the parts of a date may be. -/
structure IsDateText (s : List Char) : Prop where
  ne_nil : s ≠ []
  chars : ∀ c ∈ s, isDateChar c = true

theorem DigitRow.isDateText {length : Nat} {s : List Char} (h : DigitRow length s)
    (hpos : 0 < length) : IsDateText s := by
  refine ⟨?_, ?_⟩
  · rintro rfl
    exact absurd h.length_eq (Nat.ne_of_lt hpos)
  · intro c hc
    unfold isDateChar
    rw [h.digits c hc]
    rfl

theorem isDateText_dateText (t : Stamp) :
    ∀ entry ∈ dateTokens, IsDateText (dateText t entry.2) := by
  have hyear : IsDateText (dateText t ['%', 'Y']) := by
    rw [dateText_year]
    unfold Time.Pattern.yearField
    split
    · exact ⟨inField_ne_nil _ _ _, fun c hc => isDateChar_inField hc⟩
    · exact ⟨inField_ne_nil _ _ _, fun c hc => isDateChar_inField hc⟩
  exact forall_specifier (P := fun s => IsDateText (dateText t s)) hyear
    ((digitRow_yearOfCentury t).isDateText Nat.two_pos)
    ((digitRow_month t).isDateText Nat.two_pos) ((digitRow_day t).isDateText Nat.two_pos)
    ((digitRow_hour t).isDateText Nat.two_pos)

/-! ## 2. Patterns -/

/-- A stretch of a pattern and what is rendered for it: two percent signs for one, and a specifier
that has been put in for a token. -/
def Rendered (t : Stamp) (done : List (List Char)) (a a' : List Char) : Prop :=
  a = ['%', '%'] ∧ a' = ['%'] ∨ a ∈ done ∧ a' = dateText t a

/-- A pattern and a text that it renders. -/
abbrev Renders (t : Stamp) (done : List (List Char)) : List Char → List Char → Prop :=
  Matches (· ≠ '%') (Rendered t done)

theorem renders_escapePercents (t : Stamp) (s : List Char) : Renders t [] (escapePercents s) s := by
  induction s with
  | nil => exact .nil
  | cons c s ih =>
    rw [escapePercents, List.flatMap_cons]
    split
    · next hc =>
      subst hc
      exact .stretch (.inl ⟨rfl, rfl⟩) ih
    · next hc => exact .shared hc ih

/-- The tokens that are still to be replaced do not occur in specifiers that have been put in. -/
theorem Renders.fold {t : Stamp} (tokens : List (List Char × List Char)) {done : List (List Char)}
    {p s : List Char} (htokens : ∀ entry ∈ tokens, entry ∈ dateTokens)
    (hdone : ∀ a ∈ done, a ∈ dateTokens.map (·.2) ∧ ∀ entry ∈ tokens, ∀ c ∈ entry.1, c ∉ a)
    (hlater : tokens.Pairwise fun entry later => ∀ c ∈ later.1, c ∉ entry.2)
    (h : Renders t done p s) :
    ∃ done', (∀ a ∈ done', a ∈ dateTokens.map (·.2)) ∧ Renders t done'
      (tokens.foldl (fun s (token, specifier) => replaceFirst token specifier s) p)
      (tokens.foldl (fun s (token, specifier) => replaceFirst token (dateText t specifier) s)
        s) := by
  induction tokens generalizing done p s with
  | nil => exact ⟨done, fun a ha => (hdone a ha).1, h⟩
  | cons entry tokens ih =>
    obtain ⟨token, specifier⟩ := entry
    have hmem : (token, specifier) ∈ dateTokens := htokens _ List.mem_cons_self
    obtain ⟨hfirst, hrest⟩ := List.pairwise_cons.mp hlater
    -- tokens consist of letters, which neither percent signs nor dates have
    have hplain : ∀ e ∈ dateTokens, e.1 ≠ [] ∧ ∀ c ∈ e.1, c ≠ '%' ∧ isDateChar c = false := by
      simp [dateTokens, isDateChar, Char.isDigit]
    obtain ⟨hne, hchars⟩ := hplain _ hmem
    have havoids : Avoids token (Rendered t done) := by
      rintro a a' (⟨rfl, rfl⟩ | ⟨ha, rfl⟩)
      · refine ⟨by simp, by simp, fun c hc => ?_⟩
        have hpercent := (hchars c hc).1
        simp [hpercent]
      · obtain ⟨hspecifier, hfree⟩ := hdone a ha
        obtain ⟨e, he, rfl⟩ := List.mem_map.mp hspecifier
        have htext := isDateText_dateText t e he
        have hlong : ∀ e ∈ dateTokens, e.2 ≠ [] := by decide
        refine ⟨hlong e he, htext.ne_nil, fun c hc => ⟨hfree _ List.mem_cons_self c hc, ?_⟩⟩
        intro hdate
        exact Bool.false_ne_true ((hchars c hc).2.symm.trans (htext.chars c hdate))
    have hgrow : ∀ a a', Rendered t done a a' → Rendered t (specifier :: done) a a' := by
      rintro a a' (hpercent | ⟨ha, htext⟩)
      · exact .inl hpercent
      · exact .inr ⟨List.mem_cons_of_mem _ ha, htext⟩
    have hstep : Renders t (specifier :: done) (replaceFirst token specifier p)
        (replaceFirst token (dateText t specifier) s) :=
      Matches.replaceFirst hne havoids hgrow (.inr ⟨List.mem_cons_self, rfl⟩) h
    refine ih (fun e he => htokens e (List.mem_cons_of_mem _ he)) ?_ hrest hstep
    intro a ha
    rcases List.mem_cons.mp ha with rfl | hold
    · exact ⟨List.mem_map_of_mem hmem, hfirst⟩
    · obtain ⟨hspecifier, hfree⟩ := hdone a hold
      exact ⟨hspecifier, fun e he => hfree e (List.mem_cons_of_mem _ he)⟩

theorem renderItems?_append (t : Stamp) {items items' : List Time.Pattern.Item} {s s' : List Char}
    (h : Time.Pattern.renderItems? t items = some s)
    (h' : Time.Pattern.renderItems? t items' = some s') :
    Time.Pattern.renderItems? t (items ++ items') = some (s ++ s') := by
  induction items generalizing s with
  | nil =>
    obtain rfl := Option.some.inj h
    exact h'
  | cons item items ih =>
    obtain ⟨head, hhead, h⟩ := Option.bind_eq_some_iff.mp h
    obtain ⟨rest, hrest, h⟩ := Option.bind_eq_some_iff.mp h
    obtain rfl := Option.some.inj h
    rw [List.cons_append, Time.Pattern.renderItems?, hhead, ih hrest, List.append_assoc]
    rfl

/-- A specifier is read by itself, whatever follows it. -/
theorem read_specifier : ∀ entry ∈ dateTokens, ∀ p,
    Time.Pattern.read (entry.2 ++ p) = Time.Pattern.read entry.2 ++ Time.Pattern.read p :=
  forall_specifier
    (P := fun s => ∀ p, Time.Pattern.read (s ++ p) = Time.Pattern.read s ++ Time.Pattern.read p)
    (fun _ => rfl) (fun _ => rfl) (fun _ => rfl) (fun _ => rfl) (fun _ => rfl)

theorem render_specifier (t : Stamp) : ∀ entry ∈ dateTokens,
    Time.Pattern.renderItems? t (Time.Pattern.read entry.2) = some (dateText t entry.2) :=
  forall_specifier
    (P := fun s => Time.Pattern.renderItems? t (Time.Pattern.read s) = some (dateText t s))
    rfl rfl rfl rfl rfl

theorem Renders.render? {t : Stamp} {done : List (List Char)} {p s : List Char}
    (hdone : ∀ a ∈ done, a ∈ dateTokens.map (·.2)) (h : Renders t done p s) :
    Time.Pattern.render? p t = some s := by
  unfold Time.Pattern.render?
  induction h with
  | nil => rfl
  | @shared c p s hc _ ih =>
    have hread : Time.Pattern.read (c :: p) = [.text c] ++ Time.Pattern.read p := by
      show Time.Pattern.readFrom 0 (c :: p) = _
      rw [Time.Pattern.readFrom, if_neg hc]
      rfl
    have hchar : Time.Pattern.renderItems? t [.text c] = some [c] := rfl
    rw [hread]
    exact renderItems?_append t hchar ih
  | @stretch a a' p s ha _ ih =>
    rcases ha with ⟨rfl, rfl⟩ | ⟨ha, rfl⟩
    · have hpercent : Time.Pattern.renderItems? t [.text '%'] = some ['%'] := rfl
      exact renderItems?_append t hpercent ih
    · obtain ⟨entry, hentry, rfl⟩ := List.mem_map.mp (hdone a ha)
      rw [read_specifier entry hentry]
      exact renderItems?_append t (render_specifier t entry hentry) ih

/-- The pattern of a template can always be rendered. -/
theorem render?_pattern (template : List Char) (t : Stamp) :
    Time.Pattern.render? (pattern template) t = some (substituted t template) := by
  obtain ⟨done, hdone, h⟩ := Renders.fold dateTokens (fun _ he => he)
    (fun _ ha => absurd ha List.not_mem_nil) (by simp [dateTokens])
    (renders_escapePercents t template)
  exact h.render? hdone

/-- Resolving a template is putting in the parts of the date, one token after the other. -/
theorem resolve_eq_substituted (template : List Char) (t : Stamp) :
    resolve template t = substituted t template := by
  rw [resolve, render?_pattern, Option.getD_some]

/-- A template is the same throughout an hour. -/
theorem resolve_congr (template : List Char) {t t' : Stamp} (hdate : t.date = t'.date)
    (hhour : t.hour = t'.hour) : resolve template t = resolve template t' := by
  have htext : ∀ entry ∈ dateTokens, dateText t entry.2 = dateText t' entry.2 := by
    apply forall_specifier (P := fun s => dateText t s = dateText t' s)
    · rw [dateText_year, dateText_year, hdate]
    · rw [dateText_yearOfCentury, dateText_yearOfCentury, hdate]
    · rw [dateText_month, dateText_month, hdate]
    · rw [dateText_day, dateText_day, hdate]
    · rw [dateText_hour, dateText_hour, hhour]
  rw [resolve_eq_substituted, resolve_eq_substituted, substituted, substituted]
  generalize dateTokens = tokens at htext
  induction tokens generalizing template with
  | nil => rfl
  | cons entry tokens ih =>
    rw [List.foldl_cons, List.foldl_cons]
    dsimp only
    rw [htext entry List.mem_cons_self]
    exact ih _ fun e he => htext e (List.mem_cons_of_mem _ he)

/-! ## 3. The place for the counter -/

theorem breaks_token : ∀ entry ∈ dateTokens, Breaks indexToken entry.1 := by
  have hshared : ∀ entry ∈ dateTokens, entry.1 = ['d', 'd'] ∨
      entry.1 ≠ [] ∧ ∀ c ∈ entry.1, c ∉ indexToken := by
    simp [dateTokens, indexToken]
  intro entry hmem
  rcases hshared entry hmem with hday | ⟨hne, hfree⟩
  · -- the token of the counter has one `d` in the middle, and no second one beside it
    rw [hday]
    exact Text.breaks_double (by decide) (by decide) (by decide)
  · exact Text.breaks_of_not_mem hne hfree

theorem IsDateText.breaks {s : List Char} (h : IsDateText s) : Breaks indexToken s := by
  have hletters : ∀ c ∈ indexToken, isDateChar c = false := by
    simp [indexToken, isDateChar, Char.isDigit]
  refine Text.breaks_of_not_mem h.ne_nil ?_
  intro c hc hmem
  exact Bool.false_ne_true ((hletters c hmem).symm.trans (h.chars c hc))

/-- The date neither makes nor breaks a place for the counter. -/
theorem hasIndex_resolve (template : List Char) (t : Stamp) :
    hasIndex (resolve template t) = hasIndex template := by
  rw [resolve_eq_substituted, substituted]
  have hnew := isDateText_dateText t
  have hold := breaks_token
  generalize dateTokens = tokens at hnew hold
  induction tokens generalizing template with
  | nil => rfl
  | cons entry tokens ih =>
    rw [List.foldl_cons]
    dsimp only
    rw [ih _ (fun e he => hnew e (List.mem_cons_of_mem _ he))
      fun e he => hold e (List.mem_cons_of_mem _ he)]
    exact Text.contains_replaceFirst (hold entry List.mem_cons_self)
      (hnew entry List.mem_cons_self).breaks template

/-! ## 4. Telling the date and the counter -/

/-- A stamp in the years from 0 to 9999. -/
def HasPlainYear (t : Stamp) : Prop := 0 ≤ t.date.year ∧ t.date.year ≤ 9999

instance (t : Stamp) : Decidable (HasPlainYear t) :=
  inferInstanceAs (Decidable (0 ≤ t.date.year ∧ t.date.year ≤ 9999))

theorem digitRow_year {t : Stamp} (h : HasPlainYear t) : DigitRow 4 (dateText t ['%', 'Y']) := by
  have hyear : (decide (0 ≤ t.date.year) && decide (t.date.year ≤ 9999)) = true := by
    simp [h.1, h.2]
  have hsign : Time.Pattern.signOf false t.date.year = [] := by
    rw [Time.Pattern.signOf, if_neg (Int.not_lt.mpr h.1)]
    rfl
  have hlength : (Decimal.digitsOf t.date.year.natAbs).length ≤ 4 := by
    rw [Decimal.digitsOf, Nat.length_toDigits_le_iff (by decide) (by decide)]
    have hlow := h.1
    have hhigh := h.2
    omega
  rw [dateText_year, Time.Pattern.yearField, if_pos hyear, Time.Pattern.inField]
  rw [hsign, List.nil_append, Time.fillLeft]
  refine ⟨?_, ?_⟩
  · rw [List.length_append, List.length_replicate, List.length_nil]
    omega
  · intro c hc
    rcases List.mem_append.mp hc with hzero | hdigit
    · rw [List.eq_of_mem_replicate hzero]
      rfl
    · exact (Decimal.isDigits_digitsOf _).2 c hdigit

theorem DigitRow.sameDigits {length : Nat} {s s' : List Char} (h : DigitRow length s)
    (h' : DigitRow length s') (hpos : 0 < length) : SameDigits s s' := by
  refine ⟨?_, h.length_eq.trans h'.length_eq.symm, h.digits, h'.digits⟩
  rintro rfl
  exact absurd h.length_eq (Nat.ne_of_lt hpos)

theorem sameDigits_dateText {t t' : Stamp} (h : HasPlainYear t) (h' : HasPlainYear t') :
    ∀ entry ∈ dateTokens, SameDigits (dateText t entry.2) (dateText t' entry.2) :=
  forall_specifier (P := fun s => SameDigits (dateText t s) (dateText t' s))
    ((digitRow_year h).sameDigits (digitRow_year h') (by decide))
    ((digitRow_yearOfCentury t).sameDigits (digitRow_yearOfCentury t') Nat.two_pos)
    ((digitRow_month t).sameDigits (digitRow_month t') Nat.two_pos)
    ((digitRow_day t).sameDigits (digitRow_day t') Nat.two_pos)
    ((digitRow_hour t).sameDigits (digitRow_hour t') Nat.two_pos)

/-- Texts that match up to digits do so when rows of as many digits are put in for the tokens. -/
theorem matches_substituted {t t' : Stamp} (tokens : List (List Char × List Char))
    {s s' : List Char} (htokens : ∀ entry ∈ tokens, entry ∈ dateTokens)
    (hsame : ∀ entry ∈ tokens, SameDigits (dateText t entry.2) (dateText t' entry.2))
    (h : Matches (fun _ => True) SameDigits s s') :
    Matches (fun _ => True) SameDigits
      (tokens.foldl (fun s (token, specifier) => replaceFirst token (dateText t specifier) s) s)
      (tokens.foldl (fun s (token, specifier) => replaceFirst token (dateText t' specifier) s)
        s') := by
  induction tokens generalizing s s' with
  | nil => exact h
  | cons entry tokens ih =>
    have hletters : ∀ entry ∈ dateTokens, entry.1 ≠ [] ∧ ∀ c ∈ entry.1, c.isDigit = false := by
      simp [dateTokens, Char.isDigit]
    obtain ⟨hne, hdigits⟩ := hletters entry (htokens entry List.mem_cons_self)
    refine ih (fun e he => htokens e (List.mem_cons_of_mem _ he))
      (fun e he => hsame e (List.mem_cons_of_mem _ he)) ?_
    exact h.replaceFirst hne (SameDigits.avoids hdigits) (fun _ _ ha => ha)
      (hsame entry List.mem_cons_self)

/-- A template resolved at two times gives texts that differ in digits only. -/
theorem alike_resolve (template : List Char) {t t' : Stamp} (h : HasPlainYear t)
    (h' : HasPlainYear t') :
    List.Forall₂ Text.Alike (resolve template t) (resolve template t') := by
  have hshared : Matches (fun _ => True) SameDigits template template := by
    induction template with
    | nil => exact .nil
    | cons c s ih => exact .shared trivial ih
  rw [resolve_eq_substituted, resolve_eq_substituted]
  exact (matches_substituted dateTokens (fun _ he => he) (sameDigits_dateText h h') hshared).alike

/-- The resolved template and the counter can be told from a candidate. -/
theorem candidate_resolve_inj {template : List Char} {t t' : Stamp} {k k' : Nat}
    (ht : HasPlainYear t) (ht' : HasPlainYear t')
    (h : candidate (resolve template t) k = candidate (resolve template t') k') :
    resolve template t = resolve template t' ∧ (hasIndex template = true → k = k') := by
  have hdigits : ∀ c ∈ indexToken, c.isDigit = false := by simp [indexToken, Char.isDigit]
  obtain ⟨hsame, hcounter⟩ :=
    Text.replaceAll_alike_inj (by decide) hdigits (alike_resolve template ht ht') h
  refine ⟨hsame, ?_⟩
  intro hindex
  have hnumber := hcounter ((hasIndex_resolve template t).trans hindex)
  rw [← Decimal.natOfDigits_digitsOf k, hnumber, Decimal.natOfDigits_digitsOf]

end Template

end Logbook
