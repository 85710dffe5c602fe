import Logbook.Proofs.Json.Numbers
import Logbook.Proofs.Value.Tree
import Logbook.TimeFormat

/-!
# What specifiers write

The parts of a date are numbers with their padding, signs and separators, and names. None of it
needs an escape inside a string, whatever the stamp. What needs one in a rendered time is a text of
the pattern itself: a quote, a backslash or a control character that stands for itself, or the line
feed and the tab that have specifiers of their own.

Results:
1. `isPlain_render`, `isPlain_rfc3339`: fields, offsets and whole stamps.
2. `isPlain_item`: whatever an item other than a text writes.
3. `renderItems?_plain_iff`: when a rendered pattern needs no escape.
4. `TimeFormat.render_plain_iff`: when a rendered time needs none.
-/

namespace Logbook

open Json (IsPlain)

/-- No character of a text needs an escape. -/
def IsPlainText (s : List Char) : Prop := ∀ c ∈ s, IsPlain c

instance (s : List Char) : Decidable (IsPlainText s) := List.decidableBAll IsPlain s

/-! ## 1. The parts of a date -/

namespace Time

open Decimal (digitsOf)

theorem isPlain_nil : IsPlainText [] := fun _ h => absurd h List.not_mem_nil

theorem isPlain_digitsOf (n : Nat) : IsPlainText (digitsOf n) :=
  fun c hc => isPlain_isDigit ((Decimal.isDigits_digitsOf n).2 c hc)

theorem isPlain_fillLeft {f : Char} (hf : IsPlain f) (width : Nat) {digits : List Char}
    (hdigits : IsPlainText digits) : IsPlainText (fillLeft f width digits) :=
  isPlain_append (fun _ hc => (List.eq_of_mem_replicate hc) ▸ hf) hdigits

theorem isPlain_zeroPadded (width n : Nat) : IsPlainText (zeroPadded width n) :=
  isPlain_fillLeft (by decide) width (isPlain_digitsOf n)

theorem isPlain_fractionText (nanos : Nat) : IsPlainText (fractionText nanos) := by
  have hpoint (width n : Nat) : IsPlainText ('.' :: zeroPadded width n) :=
    isPlain_cons (by decide) (isPlain_zeroPadded width n)
  unfold fractionText
  split
  · exact isPlain_nil
  split
  · exact hpoint _ _
  split
  · exact hpoint _ _
  · exact hpoint _ _

theorem isPlain_offsetSign (offset : Int) : IsPlain (offsetSign offset) := by
  unfold offsetSign
  split <;> decide

theorem isPlain_offsetMinutes (colon : Bool) (offset : Int) :
    IsPlainText (offsetMinutes colon offset) := by
  have hcolon : IsPlainText (if colon then [':'] else []) := by
    cases colon <;> decide
  exact isPlain_append (isPlain_append
    (isPlain_cons (isPlain_offsetSign offset) (isPlain_zeroPadded _ _)) hcolon)
    (isPlain_zeroPadded _ _)

/-- Two digits after a colon. -/
theorem isPlain_colon (n : Nat) : IsPlainText (':' :: zeroPadded 2 n) :=
  isPlain_cons (by decide) (isPlain_zeroPadded 2 n)

theorem isPlain_signed (offset : Int) (n : Nat) :
    IsPlainText (offsetSign offset :: zeroPadded 2 n) :=
  isPlain_cons (isPlain_offsetSign offset) (isPlain_zeroPadded 2 n)

theorem isPlain_offset (offset : Int) (form : Pattern.OffsetForm) :
    IsPlainText (form.render offset) := by
  cases form with
  | minutes => exact isPlain_offsetMinutes false offset
  | minutesColon => exact isPlain_offsetMinutes true offset
  | seconds =>
    exact isPlain_append (isPlain_append (isPlain_signed offset _) (isPlain_colon _))
      (isPlain_colon _)
  | hours => exact isPlain_signed offset _
  | name =>
    refine isPlain_append (isPlain_append (isPlain_signed offset _) (isPlain_colon _)) ?_
    split
    · exact isPlain_nil
    · exact isPlain_colon _

theorem isPlain_yearText (year : Int) : IsPlainText (yearText year) := by
  unfold yearText signedPadded
  split
  · exact isPlain_zeroPadded _ _
  · refine isPlain_cons ?_ (isPlain_zeroPadded _ _)
    split <;> decide

theorem isPlain_rfc3339 (t : Stamp) : IsPlainText t.rfc3339 := by
  have hpart (f : Char) (n : Nat) (hf : IsPlain f) : IsPlainText (f :: zeroPadded 2 n) :=
    isPlain_cons hf (isPlain_zeroPadded 2 n)
  refine isPlain_append ?_ (isPlain_offsetMinutes true t.offset)
  refine isPlain_append ?_ (isPlain_fractionText t.fraction)
  refine isPlain_append ?_ (isPlain_colon t.second)
  refine isPlain_append ?_ (isPlain_colon t.minute)
  refine isPlain_append ?_ (hpart 'T' t.hour (by decide))
  refine isPlain_append ?_ (hpart '-' t.date.day (by decide))
  exact isPlain_append (isPlain_yearText t.date.year) (hpart '-' t.date.month (by decide))

namespace Pattern

/-- The tens of a number of eight bits are counted on past the digit nine, but not up to the first
character that would need an escape. -/
theorem isPlain_twoDigits (pad : Pad) (n : Int) : IsPlainText (twoDigits pad n) := by
  have hdigit : ∀ k < 26, IsPlain (Char.ofNat ('0'.toNat + k)) := by decide
  have htens : (n % 256).toNat / 10 < 26 := by omega
  unfold twoDigits
  generalize (n % 256).toNat = m at htens
  dsimp only
  refine isPlain_append ?_ (isPlain_cons (hdigit _ (by omega)) isPlain_nil)
  split
  · exact isPlain_nil
  · exact isPlain_cons (by decide) isPlain_nil
  · exact isPlain_cons (hdigit _ htens) isPlain_nil

theorem isPlain_inField (width : Nat) (pad : Pad) (plus : Bool) (n : Int) :
    IsPlainText (inField width pad plus n) := by
  have hsign : IsPlainText (signOf plus n) := by
    unfold signOf
    split
    · exact isPlain_cons (by decide) isPlain_nil
    split
    · exact isPlain_cons (by decide) isPlain_nil
    · exact isPlain_nil
  have hdigits := isPlain_digitsOf n.natAbs
  cases pad with
  | none => exact isPlain_append hsign hdigits
  | zero => exact isPlain_append hsign (isPlain_fillLeft (by decide) _ hdigits)
  | space => exact isPlain_fillLeft (by decide) width (isPlain_append hsign hdigits)

theorem isPlain_yearField (pad : Pad) (year : Int) : IsPlainText (yearField pad year) := by
  unfold yearField
  split
  · exact isPlain_inField 4 pad false year
  · exact isPlain_inField 5 pad true year

theorem isPlain_field (t : Stamp) (pad : Pad) (field : Field) :
    IsPlainText (field.render t pad) := by
  cases field with
  | year => exact isPlain_yearField pad _
  | isoYear => exact isPlain_yearField pad _
  | quarter => exact isPlain_digitsOf _
  | daysFromSunday => exact isPlain_digitsOf _
  | dayFromMonday => exact isPlain_digitsOf _
  | dayOfYear => exact isPlain_inField 3 pad false _
  | nanosecond => exact isPlain_inField 9 pad false _
  | timestamp => exact isPlain_inField 9 pad false _
  | century | yearOfCentury | isoYearOfCentury | month | day | weekFromSunday | weekFromMonday
  | isoWeek | hour | hour12 | minute | second => exact isPlain_twoDigits pad _

/-- A name in a list, or nothing beyond its end. -/
theorem isPlain_nameText {names : List String} (h : ∀ name ∈ names, IsPlainText name.toList)
    (short : Bool) (i : Nat) : IsPlainText (nameText short names i) := by
  have hname : IsPlainText ((names.getD i "").toList) := by
    rw [List.getD_eq_getElem?_getD]
    cases hi : names[i]? with
    | none => exact isPlain_nil
    | some name => exact h name (List.mem_of_getElem? hi)
  cases short with
  | true => exact fun c hc => hname c (List.mem_of_mem_take hc)
  | false => exact hname

theorem isPlain_halfText (upper : Bool) (hour : Nat) : IsPlainText (halfText upper hour) := by
  unfold halfText
  split <;> cases upper <;> decide

/-! ## 2. Items -/

/-- An item that cannot be written. -/
def Item.IsMute (item : Item) : Prop := item = .unwritable ∨ item = .malformed

instance (item : Item) : Decidable item.IsMute :=
  inferInstanceAs (Decidable (item = .unwritable ∨ item = .malformed))

/-- The character of a text. -/
def Item.text? : Item → Option Char
  | .text c => some c
  | _ => none

/-- The characters of a pattern that stand for themselves, and those that specifiers stand for. -/
def texts (pattern : List Char) : List Char := (read pattern).filterMap Item.text?

/-- Whatever an item writes that is not a text of the pattern needs no escape. -/
theorem isPlain_item {t : Stamp} {item : Item} {s : List Char} (hitem : item.text? = none)
    (h : item.render? t = some s) : IsPlainText s := by
  cases item with
  | text c => cases hitem
  | number field pad => cases h; exact isPlain_field t pad field
  | weekday short => cases h; exact isPlain_nameText (by decide) short _
  | month short => cases h; exact isPlain_nameText (by decide) short _
  | half upper => cases h; exact isPlain_halfText upper t.hour
  | fraction => cases h; exact isPlain_fractionText t.fraction
  | fractionDigits point digits =>
    cases h
    have hpoint : IsPlainText (if point then ['.'] else []) := by
      cases point <;> decide
    exact isPlain_append hpoint fun c hc =>
      isPlain_zeroPadded 9 t.fraction c (List.mem_of_mem_take hc)
  | offset form => cases h; exact isPlain_offset t.offset form
  | rfc3339 => cases h; exact isPlain_rfc3339 t
  | unwritable => cases h
  | malformed => cases h

theorem render?_eq_none_iff {t : Stamp} {item : Item} : item.render? t = none ↔ item.IsMute := by
  cases item <;> simp [Item.render?, Item.IsMute]

/-! ## 3. Patterns -/

theorem renderItems?_eq_none_iff {t : Stamp} {items : List Item} :
    renderItems? t items = none ↔ ∃ item ∈ items, item.IsMute := by
  induction items with
  | nil => simp [renderItems?]
  | cons item items ih =>
    rw [List.exists_mem_cons_iff, ← ih, ← render?_eq_none_iff (t := t), renderItems?]
    cases item.render? t with
    | none => simp
    | some head => cases renderItems? t items <;> simp

/-- A rendered pattern needs no escape if and only if none of its texts does. -/
theorem renderItems?_plain_iff {t : Stamp} {items : List Item} {s : List Char}
    (h : renderItems? t items = some s) :
    IsPlainText s ↔ IsPlainText (items.filterMap Item.text?) := by
  induction items generalizing s with
  | nil =>
    cases h
    exact Iff.rfl
  | cons item items ih =>
    obtain ⟨head, hhead, h⟩ := Option.bind_eq_some_iff.1 h
    obtain ⟨rest, hrest, h⟩ := Option.bind_eq_some_iff.1 h
    obtain rfl := Option.some.inj h
    have hs : IsPlainText (head ++ rest) ↔ IsPlainText head ∧ IsPlainText rest :=
      List.forall_mem_append
    rw [hs, ih hrest]
    cases htext : item.text? with
    | none =>
      rw [List.filterMap_cons_none htext]
      exact and_iff_right (isPlain_item htext hhead)
    | some d =>
      rw [List.filterMap_cons_some htext]
      cases item <;> cases htext
      cases hhead
      exact List.forall_mem_append.symm

end Pattern

end Time

/-! ## 4. Formats -/

namespace TimeFormat

open Time (Stamp)
open Time.Pattern (read texts)

/-- No text of a pattern needs an escape, unless the pattern cannot be written at all. The other
formats have no such text. -/
def IsQuotable : TimeFormat → Prop
  | .custom pattern =>
    (∃ item ∈ read pattern.toList, item.IsMute) ∨ IsPlainText (texts pattern.toList)
  | _ => True

instance : (format : TimeFormat) → Decidable format.IsQuotable
  | .custom pattern => inferInstanceAs (Decidable
      ((∃ item ∈ read pattern.toList, item.IsMute) ∨ IsPlainText (texts pattern.toList)))
  | .iso8601 | .rfc3339 | .unix | .unixMillis | .none => inferInstanceAs (Decidable True)

theorem isPlain_default (t : Stamp) :
    IsPlainText ((Time.Pattern.render? defaultPattern.toList t).getD []) := by
  cases hs : Time.Pattern.render? defaultPattern.toList t with
  | none => exact Time.isPlain_nil
  | some s => exact (Time.Pattern.renderItems?_plain_iff hs).2 (by decide)

/-- A pattern that is written in place of another, if it cannot be rendered. -/
theorem getD_default_plain_iff {pattern : List Char} {t : Stamp} :
    IsPlainText ((Time.Pattern.render? pattern t).getD
        ((Time.Pattern.render? defaultPattern.toList t).getD [])) ↔
      (∃ item ∈ read pattern, item.IsMute) ∨ IsPlainText (texts pattern) := by
  have hmute : Time.Pattern.render? pattern t = Option.none ↔
      ∃ item ∈ read pattern, item.IsMute := Time.Pattern.renderItems?_eq_none_iff
  cases hs : Time.Pattern.render? pattern t with
  | none => exact iff_of_true (isPlain_default t) (.inl (hmute.1 hs))
  | some s =>
    have hwritten : ¬ ∃ item ∈ read pattern, item.IsMute := fun h =>
      Option.some_ne_none s (hs.symm.trans (hmute.2 h))
    rw [or_iff_right hwritten]
    exact Time.Pattern.renderItems?_plain_iff hs

/-- A rendered time needs no escape if and only if no text of its pattern does. -/
theorem render_plain_iff (format : TimeFormat) (t : Stamp) :
    IsPlainText (format.render t) ↔ format.IsQuotable := by
  cases format with
  | custom pattern => exact getD_default_plain_iff
  | iso8601 => exact iff_of_true (getD_default_plain_iff.2 (by decide)) trivial
  | rfc3339 => exact iff_of_true (Time.isPlain_rfc3339 t) trivial
  | unix => exact iff_of_true (isPlain_numeral (isNumeral_intText _)) trivial
  | unixMillis => exact iff_of_true (isPlain_numeral (isNumeral_intText _)) trivial
  | none => exact iff_of_true Time.isPlain_nil trivial

end TimeFormat

end Logbook
