import Mathlib.Data.List.Infix
import Logbook.Text.Search

/-!
# Replacing in text

Replacing leaves the characters of a text as they are, with gaps between them into which the new
text is put. The gaps do not depend on the new text.

Results:
1. `contains_iff`: what a text contains are its infixes.
2. `replaceFirst_of_not_contains`, `replaceAll_of_not_contains`: without an occurrence nothing
   changes.
3. `infix_replaceAll`, `replaceAll_inj`: with an occurrence the new text is in the result and can be
   told from it.
4. `replaceAll_append_cons`: replacing does not reach over a character that the old text lacks.
5. `contains_replaceFirst`: what is not found across the old text or the new one is found as before.
-/

namespace Logbook.Text

/-! ## 1. Occurrences -/

theorem isPrefixOf?_eq_some {part s rest : List Char} (h : part.isPrefixOf? s = some rest) :
    s = part ++ rest := by
  induction part generalizing s with
  | nil => exact Option.some.inj h
  | cons c part ih =>
    cases s with
    | nil => cases h
    | cons d s =>
      unfold List.isPrefixOf? at h
      split at h
      · next hcd =>
        rw [eq_of_beq hcd, ih h]
        rfl
      · cases h

theorem isPrefixOf?_append (part rest : List Char) :
    part.isPrefixOf? (part ++ rest) = some rest := by
  induction part with
  | nil => rfl
  | cons c part ih => simp [List.isPrefixOf?, ih]

theorem contains_iff (part s : List Char) : contains part s = true ↔ part <:+: s := by
  rw [contains]
  induction s with
  | nil => cases part <;> simp [cut?]
  | cons c s ih =>
    rw [cut?, List.infix_cons_iff, ← ih]
    split
    · next rest h => simp [isPrefixOf?_eq_some h]
    · next h =>
      have hno : ¬ part <+: c :: s := by
        rintro ⟨rest, hrest⟩
        rw [← hrest, isPrefixOf?_append] at h
        cases h
      simp [hno]

theorem replaceFirst_of_not_contains {old s : List Char} (new : List Char)
    (h : contains old s = false) : replaceFirst old new s = s := by
  rw [contains, Option.isSome_eq_false_iff, Option.isNone_iff_eq_none] at h
  rw [replaceFirst, h]

theorem replaceAll_of_not_contains {old s : List Char} (new : List Char)
    (h : contains old s = false) : replaceAll old new s = s := by
  have hinfix : ¬ old <:+: s := fun hi => by simp [(contains_iff old s).mpr hi] at h
  rw [replaceAll]
  clear h
  induction s with
  | nil => rfl
  | cons c s ih =>
    rw [List.infix_cons_iff, not_or] at hinfix
    rw [replaceFrom, if_neg (fun hp => hinfix.1 (List.isPrefixOf_iff_prefix.mp hp)), ih hinfix.2]

/-! ## 2. Gaps -/

/-- The characters that replacing leaves, and the gaps between them. -/
def gaps (old : List Char) : Nat → List Char → List (Option Char)
  | _, [] => []
  | n + 1, _ :: s => gaps old n s
  | 0, c :: s =>
    if old.isPrefixOf (c :: s) then none :: gaps old (old.length - 1) s
    else some c :: gaps old 0 s

/-- A text with all gaps filled. -/
def filled (new : List Char) : List (Option Char) → List Char
  | [] => []
  | none :: s => new ++ filled new s
  | some c :: s => c :: filled new s

theorem replaceFrom_eq_filled (old new : List Char) (n : Nat) (s : List Char) :
    replaceFrom old new n s = filled new (gaps old n s) := by
  induction s generalizing n with
  | nil => cases n <;> rfl
  | cons c s ih =>
    cases n with
    | succ n => exact ih n
    | zero =>
      rw [replaceFrom, gaps]
      split
      · rw [ih, filled]
      · rw [ih, filled]

theorem none_mem_gaps {old s : List Char} (hold : old ≠ []) (h : contains old s = true) :
    none ∈ gaps old 0 s := by
  rw [contains_iff] at h
  induction s with
  | nil => exact absurd (List.infix_nil.mp h) hold
  | cons c s ih =>
    unfold gaps
    split
    · exact List.mem_cons_self
    · next hp =>
      have hno : ¬ old <+: c :: s := fun hpre => hp (List.isPrefixOf_iff_prefix.mpr hpre)
      exact List.mem_cons_of_mem _ (ih ((List.infix_cons_iff.mp h).resolve_left hno))

theorem infix_filled (new : List Char) {s : List (Option Char)} (h : none ∈ s) :
    new <:+: filled new s := by
  induction s with
  | nil => cases h
  | cons o s ih =>
    cases o with
    | none => exact (List.prefix_append _ _).isInfix
    | some c =>
      have htail : none ∈ s := by simpa using h
      exact (ih htail).trans (List.suffix_cons _ _).isInfix

/-- How long a filled text is depends on the new text only through its length. -/
theorem length_filled (new : List Char) (s : List (Option Char)) :
    (filled new s).length = s.count none * new.length + (s.length - s.count none) := by
  have hle (t : List (Option Char)) : t.count none ≤ t.length := List.count_le_length
  induction s with
  | nil => simp [filled]
  | cons o s ih =>
    have h := hle s
    cases o with
    | none =>
      rw [filled, List.length_append, ih, List.count_cons_self, List.length_cons, Nat.succ_mul]
      omega
    | some c =>
      rw [filled, List.length_cons, ih, List.count_cons_of_ne (by simp), List.length_cons]
      omega

theorem filled_inj {new new' : List Char} {s : List (Option Char)} (hs : none ∈ s)
    (h : filled new s = filled new' s) : new = new' := by
  have hlength : new.length = new'.length := by
    have hl := congrArg List.length h
    rw [length_filled, length_filled, Nat.add_right_cancel_iff] at hl
    exact Nat.eq_of_mul_eq_mul_left (List.count_pos_iff.mpr hs) hl
  induction s with
  | nil => cases hs
  | cons o s ih =>
    cases o with
    | none => exact (List.append_inj h hlength).1
    | some c =>
      have htail : none ∈ s := by simpa using hs
      exact ih htail (List.cons.inj h).2

theorem mem_gaps {old : List Char} {c : Char} {n : Nat} {s : List Char}
    (h : some c ∈ gaps old n s) : c ∈ s := by
  induction s generalizing n with
  | nil => cases n <;> cases h
  | cons d s ih =>
    cases n with
    | succ n => exact List.mem_cons_of_mem _ (ih h)
    | zero =>
      unfold gaps at h
      split at h
      · exact List.mem_cons_of_mem _ (ih (by simpa using h))
      · rcases List.mem_cons.mp h with hd | htail
        · exact Option.some.inj hd ▸ List.mem_cons_self
        · exact List.mem_cons_of_mem _ (ih htail)

theorem mem_filled {new : List Char} {c : Char} {s : List (Option Char)}
    (h : c ∈ filled new s) : some c ∈ s ∨ c ∈ new := by
  induction s with
  | nil => cases h
  | cons o s ih =>
    cases o with
    | none =>
      rcases List.mem_append.mp h with hnew | htail
      · exact .inr hnew
      · exact (ih htail).imp_left (List.mem_cons_of_mem _)
    | some d =>
      rcases List.mem_cons.mp h with rfl | htail
      · exact .inl List.mem_cons_self
      · exact (ih htail).imp_left (List.mem_cons_of_mem _)

/-! ## 3. The new text in the result -/

theorem mem_replaceAll {old new s : List Char} {c : Char} (h : c ∈ replaceAll old new s) :
    c ∈ s ∨ c ∈ new := by
  rw [replaceAll, replaceFrom_eq_filled] at h
  exact (mem_filled h).imp_left mem_gaps

theorem infix_replaceAll {old s : List Char} (new : List Char) (hold : old ≠ [])
    (h : contains old s = true) : new <:+: replaceAll old new s := by
  rw [replaceAll, replaceFrom_eq_filled]
  exact infix_filled new (none_mem_gaps hold h)

/-- The text that has been put in the place of another one can be told from the result. -/
theorem replaceAll_inj {old new new' s : List Char} (hold : old ≠ [])
    (hs : contains old s = true) (h : replaceAll old new s = replaceAll old new' s) :
    new = new' := by
  rw [replaceAll, replaceAll, replaceFrom_eq_filled, replaceFrom_eq_filled] at h
  exact filled_inj (none_mem_gaps hold hs) h

/-! ## 4. Characters that are not replaced -/

theorem prefix_append_cons {old a b : List Char} {c : Char} (hc : c ∉ old) :
    old <+: a ++ c :: b ↔ old <+: a := by
  refine ⟨fun h => ?_, fun h => h.trans (List.prefix_append _ _)⟩
  rcases Nat.le_total old.length a.length with hle | hle
  · exact List.prefix_of_prefix_length_le h (List.prefix_append _ _) hle
  · have ha : a <+: old := List.prefix_of_prefix_length_le (List.prefix_append _ _) h hle
    obtain ⟨rest, rfl⟩ := ha
    cases rest with
    | nil => rw [List.append_nil]
    | cons d rest =>
      rw [List.prefix_append_right_inj, List.cons_prefix_cons] at h
      exact absurd (List.mem_append_right a (h.1 ▸ List.mem_cons_self)) hc

theorem replaceFrom_append_cons {old : List Char} (new : List Char) {c : Char} (hold : old ≠ [])
    (hc : c ∉ old) (a b : List Char) (n : Nat) (hn : n ≤ a.length) :
    replaceFrom old new n (a ++ c :: b) =
      replaceFrom old new n a ++ c :: replaceFrom old new 0 b := by
  induction a generalizing n with
  | nil =>
    obtain rfl : n = 0 := Nat.le_zero.mp hn
    have hno : ¬ old.isPrefixOf (c :: b) = true := fun h =>
      hold (List.prefix_nil.mp ((prefix_append_cons (a := []) hc).mp
        (List.isPrefixOf_iff_prefix.mp h)))
    simp [replaceFrom, hno]
  | cons d a ih =>
    cases n with
    | succ n => exact ih n (Nat.le_of_succ_le_succ hn)
    | zero =>
      have hsame : old.isPrefixOf (d :: (a ++ c :: b)) = old.isPrefixOf (d :: a) := by
        rw [Bool.eq_iff_iff, List.isPrefixOf_iff_prefix, List.isPrefixOf_iff_prefix]
        exact prefix_append_cons (a := d :: a) hc
      rw [List.cons_append, replaceFrom, replaceFrom, hsame]
      split
      · next hp =>
        have hlength := (List.isPrefixOf_iff_prefix.mp hp).length_le
        rw [ih (old.length - 1) (Nat.sub_le_of_le_add hlength), List.append_assoc]
      · rw [ih 0 (Nat.zero_le _), List.cons_append]

/-- Replacing goes on anew after a character that the old text lacks. -/
theorem replaceAll_append_cons {old : List Char} (new : List Char) {c : Char} (hold : old ≠ [])
    (hc : c ∉ old) (a b : List Char) :
    replaceAll old new (a ++ c :: b) = replaceAll old new a ++ c :: replaceAll old new b :=
  replaceFrom_append_cons new hold hc a b 0 (Nat.zero_le _)

/-! ## 5. Texts that are not found across others -/

/-- A text that is found on one side of another one or on the other side, but never across it. -/
def Breaks (part sep : List Char) : Prop :=
  ∀ a b, part <:+: a ++ sep ++ b ↔ part <:+: a ∨ part <:+: b

theorem infix_append_cons_of_not_mem {part a b : List Char} {c : Char} (hc : c ∉ part) :
    part <:+: a ++ c :: b ↔ part <:+: a ∨ part <:+: b := by
  induction a with
  | nil =>
    rw [List.nil_append, List.infix_cons_iff]
    refine or_congr_left ⟨fun h => ?_, fun h => ?_⟩
    · exact ((prefix_append_cons (a := []) hc).mp h).isInfix
    · rw [List.infix_nil] at h
      exact h ▸ List.nil_prefix
  | cons d a ih =>
    rw [List.cons_append, List.infix_cons_iff, List.infix_cons_iff, ih, or_assoc]
    exact or_congr_left (prefix_append_cons (a := d :: a) hc)

/-- A text is not found across one with which it shares no character. -/
theorem breaks_of_not_mem {part sep : List Char} (hne : sep ≠ []) (hsep : ∀ c ∈ sep, c ∉ part) :
    Breaks part sep := by
  have hskip (b : List Char) (s : List Char) (hs : ∀ c ∈ s, c ∉ part) :
      part <:+: s ++ b ↔ part <:+: b := by
    induction s with
    | nil => rfl
    | cons c s ih =>
      have hfirst := infix_append_cons_of_not_mem (a := []) (b := s ++ b) (hs c List.mem_cons_self)
      have hrest := ih fun x hx => hs x (List.mem_cons_of_mem _ hx)
      rw [List.cons_append]
      refine (hfirst.trans (or_congr_right hrest)).trans ⟨fun h => ?_, .inr⟩
      refine h.elim (fun hnil => ?_) id
      rw [List.infix_nil.mp hnil]
      exact List.nil_infix
  intro a b
  obtain ⟨c, sep, rfl⟩ := List.exists_cons_of_ne_nil hne
  rw [List.append_assoc, List.cons_append,
    infix_append_cons_of_not_mem (hsep c List.mem_cons_self),
    hskip b sep fun x hx => hsep x (List.mem_cons_of_mem _ hx)]

/-- A text is not found across a character and the same one again if it neither begins nor ends with
that character and does not have it twice in a row. -/
theorem breaks_double {part : List Char} {d : Char} (hfirst : part.head? ≠ some d)
    (hlast : part.getLast? ≠ some d) (htwice : ¬ [d, d] <:+: part) : Breaks part [d, d] := by
  have hfront (a b : List Char) : part <+: a ++ d :: d :: b ↔ part <+: a := by
    refine ⟨fun h => ?_, fun h => h.trans (List.prefix_append _ _)⟩
    rcases Nat.le_total part.length a.length with hle | hle
    · exact List.prefix_of_prefix_length_le h (List.prefix_append _ _) hle
    obtain ⟨rest, rfl⟩ : a <+: part :=
      List.prefix_of_prefix_length_le (List.prefix_append _ _) h hle
    rw [List.prefix_append_right_inj] at h
    cases rest with
    | nil => rw [List.append_nil]
    | cons x rest =>
      obtain ⟨rfl, h⟩ := List.cons_prefix_cons.mp h
      cases rest with
      | nil => exact absurd List.getLast?_concat hlast
      | cons y rest =>
        obtain ⟨rfl, -⟩ := List.cons_prefix_cons.mp h
        exact absurd ⟨a, rest, by simp⟩ htwice
  have hskip (b : List Char) : part <+: d :: b → part = [] := by
    intro h
    cases part with
    | nil => rfl
    | cons c part => exact absurd (congrArg some (List.cons_prefix_cons.mp h).1) hfirst
  intro a b
  rw [List.append_assoc]
  show part <:+: a ++ d :: d :: b ↔ _
  induction a with
  | nil =>
    rw [List.nil_append, List.infix_cons_iff, List.infix_cons_iff, List.infix_nil]
    constructor
    · rintro (hfirst | hsecond | hb)
      · exact .inl (hskip _ hfirst)
      · exact .inl (hskip _ hsecond)
      · exact .inr hb
    · rintro (rfl | hb)
      · exact .inl List.nil_prefix
      · exact .inr (.inr hb)
  | cons c a ih =>
    rw [List.cons_append, List.infix_cons_iff, List.infix_cons_iff, ih, or_assoc]
    exact or_congr_left (hfront (c :: a) b)

theorem cut?_eq_some {part s before rest : List Char} (h : cut? part s = some (before, rest)) :
    s = before ++ part ++ rest := by
  induction s generalizing before with
  | nil =>
    unfold cut? at h
    split at h
    · next hpart =>
      cases h
      simpa using hpart
    · cases h
  | cons c s ih =>
    unfold cut? at h
    split at h
    · next hfront =>
      cases h
      exact isPrefixOf?_eq_some hfront
    · obtain ⟨⟨before', rest'⟩, hcut, heq⟩ := Option.map_eq_some_iff.mp h
      cases heq
      rw [ih hcut]
      rfl

/-- Replacing a text neither makes nor breaks one that is found across none of the two. -/
theorem contains_replaceFirst {part old new : List Char} (hold : Breaks part old)
    (hnew : Breaks part new) (s : List Char) :
    contains part (replaceFirst old new s) = contains part s := by
  rw [Bool.eq_iff_iff, contains_iff, contains_iff]
  cases hc : cut? old s with
  | none =>
    rw [replaceFirst, hc]
  | some cut =>
    rw [replaceFirst, hc, cut?_eq_some hc]
    dsimp only
    rw [hnew, hold]

end Logbook.Text
