import Mathlib.Data.List.DropRight
import Logbook.Logger.Entry

/-!
# Steering by fields

A field with the key `depth` is not written; it directs what a call records of its caller. A number
moves the count of frames that are passed over, a word chooses the kind of record. The two do not
meet: whatever fields a call is given, the count follows from the numbers among them, and the kind
from the words. Numbers have to be taken one after the other, because the count stops at either of
its limits. Of the words, what matters is which ones there are after the last `disable`.

Results:
1. `withField_steers`: what one field does.
2. `Capture.foldl_after`: what words do one after the other, read off their whole history.
3. `steered_by_numbers_and_words`: any number of fields.
-/

namespace Logbook

/-! ## 1. One field -/

namespace CallerDepth

/-- The number by which a field moves the count. -/
def number? (field : String × Value) : Option Int :=
  if field.1 = "depth" then
    match field.2 with
    | .int n => some n
    | .uint n => some n
    | _ => none
  else none

/-- The word by which a field chooses the kind of record. -/
def word? (field : String × Value) : Option String :=
  if field.1 = "depth" then
    match field.2 with
    | .text s => some s
    | _ => none
  else none

/-- The count after a number that moves it. The sum is one of whole numbers, as in `adjust`. -/
def moved (skip n : Int) : Int := max 0 (min 255 (skip + n))

/-- A number beyond the limit of the count moves it as far as any other such number. -/
theorem moved_min {skip bound : Int} (hskip : 0 ≤ skip) (hbound : 255 ≤ bound) (n : Int) :
    moved skip (min n bound) = moved skip n := by
  unfold moved
  omega

theorem skip_adjust (depth : CallerDepth) (delta : Int) :
    ((depth.adjust delta).skip.toNat : Int) = moved depth.skip.toNat delta := by
  have hlt : min 255 (max 0 ((depth.skip.toNat : Int) + delta)).toNat < UInt8.size :=
    Nat.lt_of_le_of_lt (Nat.min_le_left _ _) (by decide)
  have hcount : (depth.adjust delta).skip.toNat =
      min 255 (max 0 ((depth.skip.toNat : Int) + delta)).toNat := UInt8.toNat_ofNat_of_lt' hlt
  rw [hcount, moved]
  omega

end CallerDepth

/-- The kind of record after a word. -/
def Capture.after (mode : Capture) (word : String) : Capture :=
  (CallerDepth.modeAfter? mode word).getD mode

namespace Entry

open CallerDepth (number? word? moved)

/-- Adds fields one after the other. -/
def withEach (e : Entry) (fields : List (String × Value)) : Entry :=
  fields.foldl (fun e field => e.withField field.1 field.2) e

/-- How many frames a call passes over. -/
def skip (e : Entry) : Int := e.record.caller.skip.toNat

/-- What a call records of its caller. -/
def mode (e : Entry) : Capture := e.record.caller.mode

/-- A field with another key directs nothing of this kind. -/
theorem withField_caller {key : String} (hkey : key ≠ "depth") (e : Entry) (value : Value) :
    (e.withField key value).record.caller = e.record.caller := by
  -- whatever becomes a member of the line
  have hfield {a : Attachment} (ha : a = .field key value) :
      (e.attach a).record.caller = e.record.caller := by
    rw [ha]
    rfl
  cases value with
  | int n => exact hfield (if_neg hkey)
  | uint n => exact hfield (if_neg hkey)
  | text s => exact hfield (if_neg hkey)
  | time t =>
    by_cases htime : key = "time"
    · subst htime
      rfl
    · exact hfield (if_neg htime)
  | bool b =>
    cases b with
    | false => rfl
    | true =>
      by_cases hlogger : key = "logger"
      · subst hlogger
        rfl
      · exact hfield (if_neg hlogger)
  | _ => rfl

/-- A number moves the count and leaves the kind alone, a word does it the other way round, and
every other field leaves both alone. -/
theorem withField_steers (e : Entry) (field : String × Value) :
    (e.withField field.1 field.2).skip =
        (match number? field with
        | some n => moved e.skip n
        | none => e.skip) ∧
      (e.withField field.1 field.2).mode =
        (match word? field with
        | some word => e.mode.after word
        | none => e.mode) := by
  obtain ⟨key, value⟩ := field
  by_cases hkey : key = "depth"
  · subst hkey
    cases value with
    | int n => exact ⟨CallerDepth.skip_adjust e.record.caller n, rfl⟩
    | uint n =>
      refine ⟨?_, rfl⟩
      show ((e.record.caller.adjust (min n largestStep)).skip.toNat : Int) = moved e.skip n
      rw [CallerDepth.skip_adjust]
      exact CallerDepth.moved_min (Int.natCast_nonneg _) (by decide) n
    | text s => exact ⟨rfl, rfl⟩
    | bool b => cases b <;> exact ⟨rfl, rfl⟩
    | _ => exact ⟨rfl, rfl⟩
  · have hcaller := withField_caller hkey e value
    have hnumber : number? (key, value) = none := if_neg hkey
    have hword : word? (key, value) = none := if_neg hkey
    rw [hnumber, hword]
    exact ⟨congrArg (fun depth => (depth.skip.toNat : Int)) hcaller,
      congrArg CallerDepth.mode hcaller⟩

end Entry

/-! ## 2. Words -/

namespace Capture

/-- The kind of record that words lead to, none of which is `disable`: the whole stack if one of
them asks for it, and a location if one asks for that. What is recorded already does not get
less. -/
def raised (mode : Capture) (words : List String) : Capture :=
  if mode = .stack ∨ "stack" ∈ words then .stack
  else if mode = .location ∨ "enable" ∈ words then .location
  else mode

/-- The kind of record that words lead to: nothing is left of what was there before the last
`disable`. -/
def settled (mode : Capture) (words : List String) : Capture :=
  raised (if "disable" ∈ words then .disabled else mode) (words.rtakeWhile (· ≠ "disable"))

theorem raised_nil (mode : Capture) : raised mode [] = mode := by
  cases mode <;> rfl

theorem raised_concat (mode : Capture) (words : List String) {word : String}
    (hword : word ≠ "disable") :
    raised mode (words ++ [word]) = (raised mode words).after word := by
  have hmem (w : String) : w ∈ words ++ [word] ↔ w ∈ words ∨ w = word := by simp
  unfold after CallerDepth.modeAfter? raised
  simp only [hmem, hword, if_false]
  by_cases hstack : mode = .stack ∨ "stack" ∈ words
  · grind
  · by_cases hlocation : mode = .location ∨ "enable" ∈ words
    · grind
    · grind

/-- What words do one after the other. The induction is on the words from their end, where the last
`disable` is found. -/
theorem foldl_after (mode : Capture) (words : List String) :
    words.foldl after mode = mode.settled words := by
  induction words using List.reverseRecOn with
  | nil => exact (raised_nil mode).symm
  | append_singleton words word ih =>
    rw [List.foldl_append, List.foldl_cons, List.foldl_nil, ih, settled, settled]
    by_cases hword : word = "disable"
    · subst hword
      rw [List.rtakeWhile_concat_neg _ _ _ (by decide), raised_nil,
        if_pos (List.mem_append_right _ List.mem_cons_self)]
      rfl
    · have hmem : "disable" ∈ words ++ [word] ↔ "disable" ∈ words := by
        simp [Ne.symm hword]
      rw [List.rtakeWhile_concat_pos _ _ _ (by simpa using hword), raised_concat _ _ hword]
      simp only [hmem]

example : ["enable", "disable", "loud", "enable"].foldl after .stack = .location := by decide

end Capture

/-! ## 3. Any number of fields -/

namespace Entry

open CallerDepth (number? word? moved)

/-- The count follows from the numbers alone. -/
theorem withEach_skip (e : Entry) (fields : List (String × Value)) :
    (e.withEach fields).skip = (fields.filterMap number?).foldl moved e.skip := by
  rw [List.foldl_filterMap]
  refine (List.foldl_hom skip fun e field => ?_).symm
  rw [(withField_steers e field).1]
  cases number? field <;> rfl

/-- The kind follows from the words alone. -/
theorem withEach_mode (e : Entry) (fields : List (String × Value)) :
    (e.withEach fields).mode = (fields.filterMap word?).foldl Capture.after e.mode := by
  rw [List.foldl_filterMap]
  refine (List.foldl_hom mode fun e field => ?_).symm
  rw [(withField_steers e field).2]
  cases word? field <;> rfl

/-- No number is a word. -/
theorem filterMap_word?_filter (fields : List (String × Value)) :
    (fields.filter fun field => (number? field).isNone).filterMap word? =
      fields.filterMap word? := by
  rw [List.filterMap_filter]
  refine List.filterMap_congr fun field _ => ?_
  obtain ⟨key, value⟩ := field
  by_cases hkey : key = "depth"
  · subst hkey
    cases value <;> rfl
  · have hword : word? (key, value) = none := if_neg hkey
    rw [hword]
    exact ite_self none

/-- After any fields, the count is the one to which the numbers among them lead one after the other,
each within the limits, and the kind of record is what their words have settled on. So numbers can
be left out without any change of the kind, and a call that records the whole stack still does so
after `enable`, which itself never leads there. Sums are those of whole numbers; where words of 64
bits are added, it is said of numbers whose sums with the count fit into such a word. -/
theorem steered_by_numbers_and_words (e : Entry) (fields : List (String × Value)) :
    (e.withEach fields).skip = (fields.filterMap number?).foldl moved e.skip ∧
      (e.withEach fields).mode = e.mode.settled (fields.filterMap word?) ∧
      (e.withEach (fields.filter fun field => (number? field).isNone)).mode =
        (e.withEach fields).mode ∧
      (((e.withEach fields).withField "depth" (.text "enable")).mode = .stack ↔
        (e.withEach fields).mode = .stack) := by
  have hmode := e.withEach_mode fields
  refine ⟨e.withEach_skip fields, ?_, ?_, ?_⟩
  · rw [hmode, Capture.foldl_after]
  · rw [hmode, e.withEach_mode, filterMap_word?_filter]
  · generalize e.withEach fields = e'
    have henable : (e'.withField "depth" (.text "enable")).mode = e'.mode.after "enable" :=
      (e'.withField_steers ("depth", .text "enable")).2
    rw [henable]
    cases e'.mode <;> decide

end Entry

end Logbook
