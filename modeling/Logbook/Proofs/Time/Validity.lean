import Logbook.Proofs.Time.Rendering

/-!
# Patterns that are kept and patterns that are written

A text is kept as a pattern if every specifier in it is one. A pattern is written if every item of
it can be. The first is looked at when a format is chosen, the second at every stamp, and they come
to the same but for one specifier: `%#z` is an offset that can only be read. A pattern that has it
is kept, and then the default is written in its place. Nothing that was written of a pattern before
it failed is left in the buffer.

Results:
1. `Pattern.renderItems?_eq_write`: writing item by item, and writing all or nothing.
2. `Pattern.infix_of_unwritable`: what a pattern has in it that is kept and cannot be written.
3. `TimeFormat.append_eq`: what is appended to a buffer.
4. `TimeFormat.kept_iff_written_iff`: the patterns about which both agree.
5. `TimeFormat.kept_unwritten`: one about which they do not.
-/

namespace Logbook

namespace Time.Pattern

/-! ## 1. Writing item by item -/

/-- What was written before an item failed does not show in a rendering. -/
theorem renderItems?_eq_write (t : Stamp) (items : List Item) :
    renderItems? t items =
      if (writeItems t items).2 then some (writeItems t items).1 else none := by
  induction items with
  | nil => rfl
  | cons item items ih =>
    rw [renderItems?, writeItems, ih]
    cases item.render? t with
    | none => rfl
    | some head => cases (writeItems t items).2 <;> rfl

theorem writeItems_eq {t : Stamp} {items : List Item} {s : List Char}
    (h : renderItems? t items = some s) : (writeItems t items).1 = s := by
  rw [renderItems?_eq_write] at h
  split at h
  · exact Option.some.inj h
  · cases h

/-! ## 2. The specifier that can only be read -/

theorem unwritable_notMem_letter (c : Char) : .unwritable ∉ letter c := by
  unfold letter
  split <;> decide

theorem unwritable_notMem_unmarked (s : List Char) : .unwritable ∉ (unmarked s).1 := by
  unfold unmarked
  split
  case h_11 => exact unwritable_notMem_letter _
  all_goals decide

theorem unwritable_notMem_marked (pad : Pad) (s : List Char) :
    .unwritable ∉ (marked pad s).1 := by
  unfold marked
  split <;> simp

/-- It is written with a mark that no other specifier has. -/
theorem eq_of_unwritable {s : List Char} (h : .unwritable ∈ (specifier s).1) :
    ∃ rest, s = '#' :: 'z' :: rest := by
  unfold specifier at h
  split at h
  · exact absurd h (unwritable_notMem_marked _ _)
  · exact absurd h (unwritable_notMem_marked _ _)
  · exact absurd h (unwritable_notMem_marked _ _)
  · exact ⟨_, rfl⟩
  · exact absurd h (unwritable_notMem_unmarked _)

/-- A pattern that has it shows it. -/
theorem infix_of_unwritable {n : Nat} {s : List Char} (h : .unwritable ∈ readFrom n s) :
    "%#z".toList <:+: s := by
  have hbehind {c : Char} {s : List Char} (hs : "%#z".toList <:+: s) : "%#z".toList <:+: c :: s :=
    hs.trans (List.suffix_cons c s).isInfix
  fun_induction readFrom n s with
  | case1 => cases h
  | case2 n c s ih => exact hbehind (ih h)
  | case3 s items n hspecifier ih =>
    rcases List.mem_append.mp h with hitem | hrest
    · have hmem : .unwritable ∈ (specifier s).1 := by rwa [hspecifier]
      obtain ⟨rest, rfl⟩ := eq_of_unwritable hmem
      exact (List.prefix_append ['%', '#', 'z'] rest).isInfix
    · exact hbehind (ih hrest)
  | case4 c s hc ih =>
    rcases List.mem_cons.mp h with htext | hrest
    · cases htext
    · exact hbehind (ih hrest)

/-- Every specifier of a pattern is one, and one of them can only be read. -/
def IsReadOnly (pattern : List Char) : Prop :=
  .malformed ∉ read pattern ∧ .unwritable ∈ read pattern

instance (pattern : List Char) : Decidable (IsReadOnly pattern) :=
  inferInstanceAs (Decidable (.malformed ∉ read pattern ∧ .unwritable ∈ read pattern))

theorem isValid_iff {pattern : List Char} : isValid pattern ↔ .malformed ∉ read pattern := by
  simp [isValid]

/-- A pattern is rendered if and only if it is valid and has nothing that can only be read. The
stamp does not matter. -/
theorem render?_isSome_iff {pattern : List Char} {t : Stamp} :
    (render? pattern t).isSome ↔ isValid pattern ∧ .unwritable ∉ read pattern := by
  have hmute : render? pattern t = none ↔ ∃ item ∈ read pattern, item.IsMute :=
    renderItems?_eq_none_iff
  rw [Option.isSome_iff_ne_none, ne_eq, hmute, isValid_iff]
  unfold Item.IsMute
  constructor
  · intro h
    exact ⟨fun hmem => h ⟨_, hmem, .inr rfl⟩, fun hmem => h ⟨_, hmem, .inl rfl⟩⟩
  · rintro ⟨hmalformed, hunwritable⟩ ⟨item, hmem, rfl | rfl⟩
    · exact hunwritable hmem
    · exact hmalformed hmem

end Time.Pattern

/-! ## 3. Appending -/

namespace TimeFormat

open Time (Stamp)
open Time.Pattern (IsReadOnly isValid)

/-- The rendering of a pattern or else another text, read off what was written. -/
theorem getD_render? (pattern : List Char) (t : Stamp) (other : List Char) :
    (Time.Pattern.render? pattern t).getD other =
      if (Time.Pattern.write pattern t).2 then (Time.Pattern.write pattern t).1 else other := by
  unfold Time.Pattern.render? Time.Pattern.write
  rw [Time.Pattern.renderItems?_eq_write]
  split <;> rfl

/-- The default can be rendered. -/
theorem exists_default (t : Stamp) :
    ∃ s, Time.Pattern.render? defaultPattern.toList t = some s := by
  rw [← Option.isSome_iff_exists, Time.Pattern.render?_isSome_iff]
  decide

theorem write_default (t : Stamp) :
    (Time.Pattern.write defaultPattern.toList t).1 =
      (Time.Pattern.render? defaultPattern.toList t).getD [] := by
  obtain ⟨s, hs⟩ := exists_default t
  rw [hs, Option.getD_some]
  exact Time.Pattern.writeItems_eq hs

/-- What is appended to a buffer is the rendered stamp. What is in the buffer stays as it is. -/
theorem append_eq (format : TimeFormat) (t : Stamp) (buffer : Bytes) :
    format.append t buffer = buffer ++ Utf8.encode (format.render t) := by
  unfold append render
  rw [write_default]
  cases format with
  | custom pattern => exact congrArg (fun s => buffer ++ Utf8.encode s) (getD_render? _ _ _).symm
  | iso8601 => exact congrArg (fun s => buffer ++ Utf8.encode s) (getD_render? _ _ _).symm
  | rfc3339 => rfl
  | unix => rfl
  | unixMillis => rfl
  | none => rfl

/-- What is rendered of a pattern, or of the default in its place. -/
theorem render_custom {p : String} {t : Stamp} :
    (custom p).render t = (Time.Pattern.render? p.toList t).getD
      ((Time.Pattern.render? defaultPattern.toList t).getD []) := rfl

/-- Appending in a format puts a whole pattern behind what is in the buffer, whatever the stamp. -/
def Writes (format : TimeFormat) (pattern : String) : Prop :=
  ∀ (t : Stamp) (buffer : Bytes), ∃ s, Time.Pattern.render? pattern.toList t = some s ∧
    format.append t buffer = buffer ++ Utf8.encode s

theorem writes_iff {p : String} :
    (custom p).Writes p ↔ isValid p.toList ∧ .unwritable ∉ Time.Pattern.read p.toList := by
  constructor
  · intro h
    obtain ⟨s, hs, -⟩ := h ⟨⟨0, 0⟩, 0⟩ []
    exact Time.Pattern.render?_isSome_iff.mp (Option.isSome_iff_exists.mpr ⟨s, hs⟩)
  · intro h t buffer
    obtain ⟨s, hs⟩ := Option.isSome_iff_exists.mp (Time.Pattern.render?_isSome_iff.mpr h)
    refine ⟨s, hs, ?_⟩
    rw [append_eq, render_custom, hs, Option.getD_some]

/-- A pattern that is not written is replaced by the default, at every stamp. -/
theorem writes_default {p : String} (h : ¬ (custom p).Writes p) :
    (custom p).Writes defaultPattern := by
  intro t buffer
  obtain ⟨s, hs⟩ := exists_default t
  have hp : Time.Pattern.render? p.toList t = Option.none := by
    rw [← Option.not_isSome_iff_eq_none, Time.Pattern.render?_isSome_iff, ← writes_iff]
    exact h
  refine ⟨s, hs, ?_⟩
  rw [append_eq, render_custom, hp, hs, Option.getD_none, Option.getD_some]

/-! ## 4. Choosing -/

/-- A text that is looked at as a pattern when a format is chosen. -/
structure IsPatternText (p : String) : Prop where
  trimmed : Text.trimString p = p
  nonempty : p ≠ ""
  unnamed : ∀ format ∈ [none, iso8601, rfc3339, unix, unixMillis], p ≠ format.name

theorem kept_iff {p : String} (hp : IsPatternText p) : ofText p = custom p ↔ isValid p.toList := by
  have hchosen : ofTrimmed? p = if isValid p.toList then some (custom p) else Option.none := by
    obtain ⟨-, hempty, hname⟩ := hp
    have hnone : p ≠ "none" := hname none (by decide)
    have hiso : p ≠ "iso8601" := hname iso8601 (by decide)
    have hrfc : p ≠ "rfc3339" := hname rfc3339 (by decide)
    have hunix : p ≠ "unix" := hname unix (by decide)
    have hmillis : p ≠ "unix_millis" := hname unixMillis (by decide)
    rw [ofTrimmed?, if_neg hempty, if_neg hnone, if_neg hiso, if_neg hrfc, if_neg hunix,
      if_neg hmillis]
  unfold ofText
  rw [hp.trimmed, hchosen]
  split
  case isTrue h => exact iff_of_true rfl h
  case isFalse h =>
    refine iff_of_false ?_ h
    intro heq
    -- a text that is no pattern becomes the default, which is one
    have hdefault : defaultPattern = p := TimeFormat.custom.inj heq
    rw [← hdefault] at h
    exact h (by decide)

/-- A pattern is kept if and only if it is written at every stamp, unless each of its specifiers is
one and one of them can only be read, for which it has to have the characters `%#z` in it. A pattern
that is not kept is not written either: appending it puts the whole default, and nothing of the
pattern, behind what is in the buffer. -/
theorem kept_iff_written_iff {p : String} (hp : IsPatternText p) :
    ((ofText p = custom p ↔ (custom p).Writes p) ↔ ¬ IsReadOnly p.toList) ∧
      (IsReadOnly p.toList → "%#z".toList <:+: p.toList) ∧
      (ofText p ≠ custom p → (custom p).Writes defaultPattern) := by
  refine ⟨?_, fun hreadOnly => Time.Pattern.infix_of_unwritable hreadOnly.2, ?_⟩
  · rw [kept_iff hp, writes_iff, IsReadOnly, ← Time.Pattern.isValid_iff]
    tauto
  · intro hkept
    refine writes_default fun hwritten => hkept ?_
    exact (kept_iff hp).mpr (writes_iff.mp hwritten).1

theorem kept_iff_written_iff_both :
    (IsPatternText "%H:%Q" ∧ ofText "%H:%Q" ≠ custom "%H:%Q" ∧
        (custom "%H:%Q").Writes defaultPattern) ∧
      IsPatternText "%H%#z" ∧ IsReadOnly "%H%#z".toList ∧ "%#z".toList <:+: "%H%#z".toList := by
  have hbroken : IsPatternText "%H:%Q" := ⟨by decide, by decide, by decide⟩
  have hkept : ofText "%H:%Q" ≠ custom "%H:%Q" := by decide
  have hshown : IsPatternText "%H%#z" := ⟨by decide, by decide, by decide⟩
  have hreadOnly : IsReadOnly "%H%#z".toList := by decide
  exact ⟨⟨hbroken, hkept, (kept_iff_written_iff hbroken).2.2 hkept⟩, hshown, hreadOnly,
    (kept_iff_written_iff hshown).2.1 hreadOnly⟩

/-- An offset that can only be read. It is kept, and the default is written in its place. -/
theorem kept_unwritten :
    IsPatternText "%#z" ∧ ¬ (ofText "%#z" = custom "%#z" ↔ (custom "%#z").Writes "%#z") ∧
      ofText "%#z" = custom "%#z" ∧
      (custom "%#z").append ⟨⟨0, 0⟩, 0⟩ [] = Utf8.encode "1970-01-01 00:00:00".toList := by
  have hkept : ofText "%#z" = custom "%#z" := by decide
  refine ⟨⟨by decide, by decide, by decide⟩, ?_, hkept, by decide +kernel⟩
  intro h
  obtain ⟨s, hs, -⟩ := h.mp hkept ⟨⟨0, 0⟩, 0⟩ []
  have hmute : Time.Pattern.render? "%#z".toList ⟨⟨0, 0⟩, 0⟩ = Option.none := by decide
  exact Option.some_ne_none s (hs.symm.trans hmute)

end TimeFormat

end Logbook
