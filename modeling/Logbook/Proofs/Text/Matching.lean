import Mathlib.Data.List.Forall2
import Logbook.Proofs.Text.Replacing

/-!
# Texts that match

Two texts match if they are the same outside of some stretches. A text that has no character of such
a stretch in it is found at the same places of both, and replacing it keeps them matching.

Results:
1. `Matches.cut`: two texts that match are cut at the same place.
2. `Matches.replaceFirst`: they match after a replacement, too.
3. `replaceAll_alike_inj`: texts that differ in digits only can be told from what becomes of them
   when another text is replaced everywhere.
-/

namespace Logbook.Text

/-! ## 1. Cutting -/

/-- Two texts that are the same outside of some stretches: what they share are characters of one
kind, and the stretches are related. -/
inductive Matches (Shared : Char → Prop) (Stretch : List Char → List Char → Prop) :
    List Char → List Char → Prop
  | nil : Matches Shared Stretch [] []
  | shared {c : Char} {s s' : List Char} :
      Shared c → Matches Shared Stretch s s' → Matches Shared Stretch (c :: s) (c :: s')
  | stretch {a a' s s' : List Char} :
      Stretch a a' → Matches Shared Stretch s s' → Matches Shared Stretch (a ++ s) (a' ++ s')

/-- No character of a text is in a stretch, and no stretch is empty. -/
def Avoids (part : List Char) (Stretch : List Char → List Char → Prop) : Prop :=
  ∀ a a', Stretch a a' → a ≠ [] ∧ a' ≠ [] ∧ ∀ c ∈ part, c ∉ a ∧ c ∉ a'

section
variable {Shared : Char → Prop} {Stretch Stretch' : List Char → List Char → Prop}
  {part s s' t t' : List Char}

theorem Matches.mono (hle : ∀ a a', Stretch a a' → Stretch' a a')
    (h : Matches Shared Stretch s s') : Matches Shared Stretch' s s' := by
  induction h with
  | nil => exact .nil
  | shared hc _ ih => exact .shared hc ih
  | stretch ha _ ih => exact .stretch (hle _ _ ha) ih

theorem Matches.append (h : Matches Shared Stretch s s') (ht : Matches Shared Stretch t t') :
    Matches Shared Stretch (s ++ t) (s' ++ t') := by
  induction h with
  | nil => exact ht
  | shared hc _ ih => exact .shared hc ih
  | @stretch a a' s s' ha _ ih =>
    rw [List.append_assoc, List.append_assoc]
    exact .stretch ha ih

theorem isPrefixOf?_cons_of_ne {c d : Char} (h : c ≠ d) (part s : List Char) :
    (c :: part).isPrefixOf? (d :: s) = none := by
  rw [List.isPrefixOf?, if_neg (by simpa using h)]

theorem isPrefixOf?_append_of_not_mem {c : Char} {part a : List Char} (ha : a ≠ []) (hc : c ∉ a)
    (s : List Char) : (c :: part).isPrefixOf? (a ++ s) = none := by
  cases a with
  | nil => exact absurd rfl ha
  | cons d a =>
    rw [List.mem_cons, not_or] at hc
    exact isPrefixOf?_cons_of_ne hc.1 part (a ++ s)

/-- Two texts that match begin with a text, both or none of them. -/
theorem Matches.front (hpart : Avoids part Stretch) (h : Matches Shared Stretch s s') :
    Option.Rel (Matches Shared Stretch) (part.isPrefixOf? s) (part.isPrefixOf? s') := by
  induction h generalizing part with
  | nil =>
    cases part with
    | nil => exact .some .nil
    | cons c part => exact .none
  | @shared d s s' hd hs ih =>
    cases part with
    | nil => exact .some (.shared hd hs)
    | cons c part =>
      by_cases hcd : c = d
      · subst hcd
        rw [List.isPrefixOf?, List.isPrefixOf?, if_pos (by simp), if_pos (by simp)]
        refine ih ?_
        intro a a' ha
        obtain ⟨hne, hne', hmem⟩ := hpart a a' ha
        exact ⟨hne, hne', fun x hx => hmem x (List.mem_cons_of_mem _ hx)⟩
      · rw [isPrefixOf?_cons_of_ne hcd, isPrefixOf?_cons_of_ne hcd]
        exact .none
  | @stretch a a' s s' ha hs ih =>
    cases part with
    | nil => exact .some (.stretch ha hs)
    | cons c part =>
      obtain ⟨hne, hne', hmem⟩ := hpart a a' ha
      obtain ⟨hc, hc'⟩ := hmem c List.mem_cons_self
      rw [isPrefixOf?_append_of_not_mem hne hc, isPrefixOf?_append_of_not_mem hne' hc']
      exact .none

theorem cut?_append_of_not_mem {c : Char} {part a : List Char} (ha : ∀ x ∈ c :: part, x ∉ a)
    (s : List Char) :
    cut? (c :: part) (a ++ s) = (cut? (c :: part) s).map fun cut => (a ++ cut.1, cut.2) := by
  induction a with
  | nil => simp
  | cons d a ih =>
    have hcd : c ≠ d := by
      rintro rfl
      exact ha c List.mem_cons_self List.mem_cons_self
    rw [List.cons_append, cut?, isPrefixOf?_cons_of_ne hcd]
    dsimp only
    rw [ih fun x hx hmem => ha x hx (List.mem_cons_of_mem _ hmem), Option.map_map]
    rfl

/-- Two cuts that match before and after what is cut out. -/
def CutsMatch (Shared : Char → Prop) (Stretch : List Char → List Char → Prop)
    (cut cut' : List Char × List Char) : Prop :=
  Matches Shared Stretch cut.1 cut'.1 ∧ Matches Shared Stretch cut.2 cut'.2

/-- Two texts that match are cut at the same place. -/
theorem Matches.cut (hne : part ≠ []) (hpart : Avoids part Stretch)
    (h : Matches Shared Stretch s s') :
    Option.Rel (CutsMatch Shared Stretch) (cut? part s) (cut? part s') := by
  obtain ⟨c, part, rfl⟩ := List.exists_cons_of_ne_nil hne
  induction h with
  | nil => exact .none
  | @shared d s s' hd hs ih =>
    have hfront := (Matches.shared hd hs).front hpart
    rw [cut?, cut?]
    generalize (c :: part).isPrefixOf? (d :: s) = front at hfront
    generalize (c :: part).isPrefixOf? (d :: s') = front' at hfront
    cases hfront with
    | some hrest => exact .some ⟨.nil, hrest⟩
    | none =>
      dsimp only
      generalize cut? (c :: part) s = o at ih
      generalize cut? (c :: part) s' = o' at ih
      cases ih with
      | none => exact .none
      | some hcut => exact .some ⟨.shared hd hcut.1, hcut.2⟩
  | @stretch a a' s s' ha hs ih =>
    obtain ⟨-, -, hmem⟩ := hpart a a' ha
    rw [cut?_append_of_not_mem fun x hx => (hmem x hx).1,
      cut?_append_of_not_mem fun x hx => (hmem x hx).2]
    generalize cut? (c :: part) s = o at ih
    generalize cut? (c :: part) s' = o' at ih
    cases ih with
    | none => exact .none
    | some hcut => exact .some ⟨.stretch ha hcut.1, hcut.2⟩

/-! ## 2. Replacing once -/

/-- Two texts that match do so when a stretch is put in the place of a part of both. -/
theorem Matches.replaceFirst {new new' : List Char} (hne : part ≠ [])
    (hpart : Avoids part Stretch) (hle : ∀ a a', Stretch a a' → Stretch' a a')
    (hnew : Stretch' new new') (h : Matches Shared Stretch s s') :
    Matches Shared Stretch' (replaceFirst part new s) (replaceFirst part new' s') := by
  have hcut := h.cut hne hpart
  unfold Text.replaceFirst
  generalize cut? part s = o at hcut
  generalize cut? part s' = o' at hcut
  cases hcut with
  | none => exact h.mono hle
  | @some cut cut' hcut =>
    dsimp only
    rw [List.append_assoc, List.append_assoc]
    exact (hcut.1.mono hle).append (.stretch hnew (hcut.2.mono hle))

end

/-! ## 3. Replacing everywhere -/

/-- Two characters that are the same, or two digits. -/
def Alike (a b : Char) : Prop := a = b ∨ a.isDigit = true ∧ b.isDigit = true

/-- Two rows of as many digits. -/
structure SameDigits (a b : List Char) : Prop where
  ne_nil : a ≠ []
  length_eq : a.length = b.length
  left : ∀ c ∈ a, c.isDigit = true
  right : ∀ c ∈ b, c.isDigit = true

theorem SameDigits.avoids {part : List Char} (hpart : ∀ c ∈ part, c.isDigit = false) :
    Avoids part SameDigits := by
  intro a b h
  have hne : b ≠ [] := by
    rintro rfl
    exact h.ne_nil (List.length_eq_zero_iff.mp h.length_eq)
  refine ⟨h.ne_nil, hne, ?_⟩
  intro c hc
  refine ⟨fun ha => ?_, fun hb => ?_⟩
  · exact Bool.false_ne_true ((hpart c hc).symm.trans (h.left c ha))
  · exact Bool.false_ne_true ((hpart c hc).symm.trans (h.right c hb))

theorem alike_of_digits {a b : List Char} (hlen : a.length = b.length)
    (ha : ∀ c ∈ a, c.isDigit = true) (hb : ∀ c ∈ b, c.isDigit = true) :
    List.Forall₂ Alike a b := by
  induction a generalizing b with
  | nil =>
    obtain rfl := List.length_eq_zero_iff.mp hlen.symm
    exact .nil
  | cons c a ih =>
    cases b with
    | nil => cases hlen
    | cons d b =>
      refine .cons (.inr ⟨ha c List.mem_cons_self, hb d List.mem_cons_self⟩) (ih ?_ ?_ ?_)
      · exact Nat.succ.inj hlen
      · exact fun x hx => ha x (List.mem_cons_of_mem _ hx)
      · exact fun x hx => hb x (List.mem_cons_of_mem _ hx)

/-- Texts that match up to digits differ in digits only. -/
theorem Matches.alike {Shared : Char → Prop} {s s' : List Char}
    (h : Matches Shared SameDigits s s') : List.Forall₂ Alike s s' := by
  induction h with
  | nil => exact .nil
  | shared _ _ ih => exact .cons (.inl rfl) ih
  | stretch ha _ ih => exact List.rel_append (alike_of_digits ha.length_eq ha.left ha.right) ih

theorem isPrefixOf_alike {part s s' : List Char} (hpart : ∀ c ∈ part, c.isDigit = false)
    (h : List.Forall₂ Alike s s') : part.isPrefixOf s = part.isPrefixOf s' := by
  induction h generalizing part with
  | nil => rfl
  | @cons a b s s' hab _ ih =>
    cases part with
    | nil => rfl
    | cons c part =>
      rw [List.isPrefixOf, List.isPrefixOf, ih fun x hx => hpart x (List.mem_cons_of_mem _ hx)]
      have hc := hpart c List.mem_cons_self
      rcases hab with rfl | ⟨ha, hb⟩
      · rfl
      -- a character that is no digit is neither of the two
      · have hca : (c == a) = false := by
          rw [beq_eq_false_iff_ne]
          rintro rfl
          exact Bool.false_ne_true (hc.symm.trans ha)
        have hcb : (c == b) = false := by
          rw [beq_eq_false_iff_ne]
          rintro rfl
          exact Bool.false_ne_true (hc.symm.trans hb)
        rw [hca, hcb, Bool.false_and]

theorem gaps_alike {part s s' : List Char} (hpart : ∀ c ∈ part, c.isDigit = false) (n : Nat)
    (h : List.Forall₂ Alike s s') :
    List.Forall₂ (Option.Rel Alike) (gaps part n s) (gaps part n s') := by
  induction h generalizing n with
  | nil => cases n <;> exact .nil
  | @cons a b s s' hab hs ih =>
    cases n with
    | succ n => exact ih n
    | zero =>
      have hsame := isPrefixOf_alike hpart (List.Forall₂.cons hab hs)
      unfold gaps
      rw [hsame]
      split
      · exact .cons .none (ih _)
      · exact .cons (.some hab) (ih _)

theorem count_alike {g g' : List (Option Char)} (h : List.Forall₂ (Option.Rel Alike) g g') :
    g.count none = g'.count none := by
  induction h with
  | nil => rfl
  | cons hab _ ih =>
    cases hab with
    | none => rw [List.count_cons_self, List.count_cons_self, ih]
    | some _ => rw [List.count_cons_of_ne (by simp), List.count_cons_of_ne (by simp), ih]

theorem filled_alike_inj {new new' : List Char} {g g' : List (Option Char)}
    (h : List.Forall₂ (Option.Rel Alike) g g') (hlen : none ∈ g → new.length = new'.length)
    (heq : filled new g = filled new' g') : g = g' ∧ (none ∈ g → new = new') := by
  induction h with
  | nil => exact ⟨rfl, fun hmem => absurd hmem List.not_mem_nil⟩
  | @cons o o' g g' ho _ ih =>
    have hrest : none ∈ g → new.length = new'.length := fun hmem =>
      hlen (List.mem_cons_of_mem _ hmem)
    cases ho with
    | none =>
      obtain ⟨hnew, htail⟩ := List.append_inj heq (hlen List.mem_cons_self)
      exact ⟨by rw [(ih hrest htail).1], fun _ => hnew⟩
    | @some a b _ =>
      obtain ⟨rfl, htail⟩ := List.cons.inj heq
      obtain ⟨hg, hnew⟩ := ih hrest htail
      exact ⟨by rw [hg], fun hmem => hnew (by simpa using hmem)⟩

/-- A text whose gaps are filled with what was there before. -/
theorem replaceAll_self {old : List Char} (hold : old ≠ []) (s : List Char) :
    replaceAll old old s = s := by
  have hskip (n : Nat) (s : List Char) (hn : n ≤ s.length) :
      s.take n ++ replaceFrom old old n s = s := by
    induction s generalizing n with
    | nil =>
      obtain rfl : n = 0 := Nat.le_zero.mp hn
      rfl
    | cons c s ih =>
      cases n with
      | succ n =>
        show c :: (s.take n ++ replaceFrom old old n s) = c :: s
        rw [ih n (Nat.le_of_succ_le_succ hn)]
      | zero =>
        rw [List.take_zero, List.nil_append, replaceFrom]
        split
        · next hp =>
          obtain ⟨rest, hrest⟩ := List.isPrefixOf_iff_prefix.mp hp
          obtain ⟨d, old', rfl⟩ := List.exists_cons_of_ne_nil hold
          obtain ⟨rfl, rfl⟩ : d = c ∧ old' ++ rest = s := List.cons.inj hrest
          have hlen : old'.length ≤ (old' ++ rest).length := (List.prefix_append _ _).length_le
          have htail := ih old'.length hlen
          have hold' : (old' ++ rest).take old'.length = old' := List.take_left
          rw [hold'] at htail
          show d :: (old' ++ replaceFrom (d :: old') (d :: old') old'.length (old' ++ rest)) = _
          rw [htail]
        · have htail := ih 0 (Nat.zero_le _)
          rw [List.take_zero, List.nil_append] at htail
          rw [htail]
  have hall := hskip 0 s (Nat.zero_le _)
  rwa [List.take_zero, List.nil_append] at hall

/-- Texts that differ in digits only are the same if the same becomes of them when a text without
digits is replaced everywhere, by whatever texts. -/
theorem replaceAll_alike_inj {old new new' s s' : List Char} (hold : old ≠ [])
    (hdigits : ∀ c ∈ old, c.isDigit = false) (h : List.Forall₂ Alike s s')
    (heq : replaceAll old new s = replaceAll old new' s') :
    s = s' ∧ (contains old s = true → new = new') := by
  have hgaps := gaps_alike hdigits 0 h
  rw [replaceAll, replaceAll, replaceFrom_eq_filled, replaceFrom_eq_filled] at heq
  have hlen : none ∈ gaps old 0 s → new.length = new'.length := by
    intro hmem
    have hl := congrArg List.length heq
    rw [length_filled, length_filled, hgaps.length_eq, count_alike hgaps,
      Nat.add_right_cancel_iff] at hl
    exact Nat.eq_of_mul_eq_mul_left (count_alike hgaps ▸ List.count_pos_iff.mpr hmem) hl
  obtain ⟨hsame, hnew⟩ := filled_alike_inj hgaps hlen heq
  refine ⟨?_, fun hs => hnew (none_mem_gaps hold hs)⟩
  rw [← replaceAll_self hold s, ← replaceAll_self hold s', replaceAll, replaceAll,
    replaceFrom_eq_filled, replaceFrom_eq_filled, hsame]

end Logbook.Text
