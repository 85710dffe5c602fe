import Logbook.Proofs.Template.Resolving

/-!
# Templates as texts with gaps

Resolving a template by way of a pattern comes to a plain substitution: the tokens are gone through
in their order, and the first place at which a token is found in what has become of the template so
far is filled with its part of the date. All other characters stay, percent signs, letters next to
a token and further tokens among them.

| token  | part of the date                                          |
|--------|-----------------------------------------------------------|
| `yyyy` | the year, with four digits or with its sign               |
| `yy`   | the last two digits of the year                           |
| `MM`   | the month                                                 |
| `dd`   | the day                                                   |
| `HH`   | the hour                                                  |

Results:
1. `Substituted.unique`: a substitution leads to one text only.
2. `substituted_replaceFirst`: replacing the first occurrences is a substitution.
3. `dateText_eq`: what specifiers stand for, without patterns.
4. `resolve_substitutes`: what a template is resolved to.
-/

namespace Logbook

namespace Text

/-! ## 1. Substitutions -/

/-- No occurrence of `part` in `before ++ part ++ after` begins before the one in the middle. -/
def IsFirst (part before after : List Char) : Prop :=
  ∀ before' after', before ++ part ++ after = before' ++ part ++ after' →
    before.length ≤ before'.length

/-- Parts are put in the place of tokens, one after the other: each where its token is found first
in what has become of the text, and nowhere if the token is not found. -/
inductive Substituted : List (List Char × List Char) → List Char → List Char → Prop
  | done {s : List Char} : Substituted [] s s
  | absent {token part s s' : List Char} {rest : List (List Char × List Char)} :
      ¬ token <:+: s → Substituted rest s s' → Substituted ((token, part) :: rest) s s'
  | first {token part before after s' : List Char} {rest : List (List Char × List Char)} :
      IsFirst token before after → Substituted rest (before ++ part ++ after) s' →
      Substituted ((token, part) :: rest) (before ++ token ++ after) s'

theorem IsFirst.unique {part before after before' after' : List Char}
    (h : IsFirst part before after) (h' : IsFirst part before' after')
    (heq : before ++ part ++ after = before' ++ part ++ after') :
    before = before' ∧ after = after' := by
  have hlen : before.length = before'.length :=
    Nat.le_antisymm (h before' after' heq) (h' before after heq.symm)
  rw [List.append_assoc, List.append_assoc] at heq
  obtain ⟨hbefore, hrest⟩ := List.append_inj heq hlen
  exact ⟨hbefore, List.append_cancel_left hrest⟩

/-- A substitution leads to one text only. -/
theorem Substituted.unique {parts : List (List Char × List Char)} {s u v : List Char}
    (hu : Substituted parts s u) (hv : Substituted parts s v) : u = v := by
  induction hu with
  | done =>
    cases hv
    rfl
  | absent habsent _ ih =>
    cases hv with
    | absent _ hv => exact ih hv
    | @first _ _ before after => exact absurd ⟨before, after, rfl⟩ habsent
  | @first token part before after s' rest hfirst _ ih =>
    generalize hs : before ++ token ++ after = s at hv
    cases hv with
    | absent habsent _ => exact absurd ⟨before, after, hs⟩ habsent
    | first hfirst' hv =>
      obtain ⟨rfl, rfl⟩ := hfirst.unique hfirst' hs
      exact ih hv

/-! ## 2. First occurrences -/

theorem isFirst_of_cut? {part s before after : List Char} (h : cut? part s = some (before, after)) :
    IsFirst part before after := by
  induction s generalizing before with
  | nil =>
    unfold cut? at h
    split at h
    · cases h
      exact fun _ _ _ => Nat.zero_le _
    · cases h
  | cons c s ih =>
    unfold cut? at h
    split at h
    · cases h
      exact fun _ _ _ => Nat.zero_le _
    · next hfront =>
      obtain ⟨⟨front, rest⟩, hcut, heq⟩ := Option.map_eq_some_iff.mp h
      cases heq
      intro before' after' hsplit
      cases before' with
      | nil =>
        -- an occurrence at the very front would have been found there
        have hs : c :: s = part ++ after' := by
          rw [cut?_eq_some hcut]
          exact hsplit
        rw [hs, isPrefixOf?_append] at hfront
        cases hfront
      | cons d before' => exact Nat.succ_le_succ (ih hcut before' after' (List.cons.inj hsplit).2)

/-- Replacing the first occurrence of each token is a substitution. -/
theorem substituted_replaceFirst (parts : List (List Char × List Char)) (s : List Char) :
    Substituted parts s (parts.foldl (fun s (token, part) => replaceFirst token part s) s) := by
  induction parts generalizing s with
  | nil => exact .done
  | cons entry parts ih =>
    obtain ⟨token, part⟩ := entry
    have hrest := ih (replaceFirst token part s)
    rw [List.foldl_cons]
    dsimp only
    cases hcut : cut? token s with
    | none =>
      have habsent : contains token s = false := by rw [contains, hcut, Option.isSome_none]
      rw [replaceFirst_of_not_contains part habsent] at hrest ⊢
      exact .absent (fun hinfix => by simp [(contains_iff token s).mpr hinfix] at habsent) hrest
    | some cut =>
      obtain ⟨before, after⟩ := cut
      have hreplaced : replaceFirst token part s = before ++ part ++ after := by
        rw [replaceFirst, hcut]
      rw [hreplaced] at hrest ⊢
      rw [cut?_eq_some hcut]
      exact .first (isFirst_of_cut? hcut) hrest

end Text

/-! ## 3. The parts of a date -/

open Time (Stamp)

namespace Time.Pattern

theorem yearField_eq (year : Int) : yearField .zero year = yearText year := by
  unfold yearField yearText
  split
  · next hplain =>
    have hpos : 0 ≤ year := of_decide_eq_true (Bool.and_eq_true_iff.mp hplain).1
    have hsign : signOf false year = [] := by
      rw [signOf, if_neg (Int.not_lt.mpr hpos)]
      rfl
    have habs : year.natAbs = year.toNat := by omega
    rw [inField, hsign, habs]
    rfl
  · have hsign : signOf true year = [if year < 0 then '-' else '+'] := by
      rw [signOf]
      split
      · rfl
      · rfl
    rw [inField, hsign]
    rfl

theorem twoDigits_eq {n : Nat} (h : n < 100) : twoDigits .zero n = zeroPadded 2 n := by
  have hall : ∀ n < 100, twoDigits .zero (n : Nat) = zeroPadded 2 n := by decide +kernel
  exact hall n h

end Time.Pattern

namespace Template

open Text (Substituted)

/-- The tokens of a template with the parts of a date, in the order in which they are put in. -/
def dateParts (t : Stamp) : List (List Char × List Char) :=
  [("yyyy".toList, Time.yearText t.date.year),
    ("yy".toList, Time.zeroPadded 2 (t.date.year % 100).toNat),
    ("MM".toList, Time.zeroPadded 2 t.date.month), ("dd".toList, Time.zeroPadded 2 t.date.day),
    ("HH".toList, Time.zeroPadded 2 t.hour)]

/-- What the specifiers of the tokens stand for. -/
theorem dateText_eq (t : Stamp) :
    dateTokens.map (fun (token, specifier) => (token, dateText t specifier)) = dateParts t := by
  have hcentury : t.date.year % 100 = ((t.date.year % 100).toNat : Int) := by omega
  have hhour : t.hour < 100 := by
    unfold Stamp.hour Stamp.secondOfDay
    omega
  have hmonth : t.date.month < 100 := (date_lt t.localDay).1
  have hday : t.date.day < 100 := (date_lt t.localDay).2
  simp only [dateTokens, List.map_cons, List.map_nil, dateText_year, dateText_yearOfCentury,
    dateText_month, dateText_day, dateText_hour]
  rw [Time.Pattern.yearField_eq, hcentury, Time.Pattern.twoDigits_eq (by omega),
    Time.Pattern.twoDigits_eq hmonth, Time.Pattern.twoDigits_eq hday,
    Time.Pattern.twoDigits_eq hhour]
  rfl

/-! ## 4. What a template is resolved to -/

/-- A template is resolved to the one text that the substitution of the parts of the date leads to.
Its pattern can always be rendered, so the template is never kept for want of a rendered text. One
without date tokens is resolved to itself. -/
theorem resolve_substitutes (template : List Char) (t : Stamp) :
    (∀ s, Substituted (dateParts t) template s ↔ s = resolve template t) ∧
      Time.Pattern.render? (pattern template) t = some (resolve template t) ∧
      (hasDateTokens template = false → resolve template t = template) := by
  have hfold : (dateParts t).foldl (fun s (token, part) => Text.replaceFirst token part s)
      template = resolve template t := by
    rw [resolve_eq_substituted, substituted, ← dateText_eq, List.foldl_map]
  have hresolved := Text.substituted_replaceFirst (dateParts t) template
  rw [hfold] at hresolved
  refine ⟨fun s => ⟨fun hs => hs.unique hresolved, ?_⟩, ?_,
    fun hundated => resolve_undated hundated t⟩
  · rintro rfl
    exact hresolved
  · rw [render?_pattern, resolve_eq_substituted]

/-- Seven letters `y` hold two tokens and a letter, a percent sign before a token makes no specifier
of it, and a specifier of a pattern is no token. -/
theorem resolve_substitutes_crowded :
    let t : Stamp := ⟨⟨1718447405, 0⟩, 0⟩
    Substituted (dateParts t) "%yyyyyyy/%HHH%d".toList "%202424y/%10H%d".toList ∧
      hasDateTokens "%Y-%H.log".toList = false ∧
      resolve "%Y-%H.log".toList t = "%Y-%H.log".toList := by
  intro t
  have hundated : hasDateTokens "%Y-%H.log".toList = false := by decide
  exact ⟨((resolve_substitutes "%yyyyyyy/%HHH%d".toList t).1 _).mpr (by decide +kernel), hundated,
    (resolve_substitutes "%Y-%H.log".toList t).2.2 hundated⟩

end Template

end Logbook
