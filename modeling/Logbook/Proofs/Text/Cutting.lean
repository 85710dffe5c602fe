import Logbook.Proofs.Text.Matching
import Logbook.Text.Blank

/-!
# Cutting texts

A text is cut at the first or the last occurrence of a separator, at the ends of its lines, and
between its blanks and the rest. What was put together with a separator that the parts do not have
is cut into these parts again.

Results:
1. `cut?_append`, `cutLast?_append`: parts around a separator.
2. `lines_ended`, `lines_unended`: lines with their ends.
3. `trim_between`: a text between blanks.
-/

namespace Logbook.Text

/-! ## 1. Separators -/

/-- A text is cut at the first separator, which shares no character with what is before it. -/
theorem cut?_append {c : Char} {sep before : List Char} (h : ∀ x ∈ c :: sep, x ∉ before)
    (after : List Char) :
    cut? (c :: sep) (before ++ (c :: sep ++ after)) = some (before, after) := by
  have hfirst : cut? (c :: sep) (c :: sep ++ after) = some ([], after) := by
    rw [List.cons_append, cut?, ← List.cons_append, isPrefixOf?_append]
  rw [cut?_append_of_not_mem h, hfirst, Option.map_some, List.append_nil]

theorem cutLast?_eq_some {sep s before after : List Char}
    (h : cutLast? sep s = some (before, after)) : s = before ++ sep ++ after := by
  induction s generalizing before with
  | nil => cases h
  | cons c s ih =>
    unfold cutLast? at h
    split at h
    · next hcut =>
      cases h
      rw [ih hcut]
      rfl
    · obtain ⟨rest, hfront, heq⟩ := Option.map_eq_some_iff.mp h
      cases heq
      exact isPrefixOf?_eq_some hfront

theorem cutLast?_of_not_infix {sep s : List Char} (h : ¬ sep <:+: s) : cutLast? sep s = none := by
  cases hcut : cutLast? sep s with
  | none => rfl
  | some cut => exact absurd ⟨cut.1, cut.2, (cutLast?_eq_some hcut).symm⟩ h

/-- A text is cut at a separator behind which no other one begins, not even inside of it. -/
theorem cutLast?_append {c : Char} {sep after : List Char} (h : ¬ c :: sep <:+: sep ++ after)
    (before : List Char) :
    cutLast? (c :: sep) (before ++ (c :: sep ++ after)) = some (before, after) := by
  induction before with
  | nil =>
    rw [List.nil_append, List.cons_append, cutLast?, cutLast?_of_not_infix h, ← List.cons_append,
      isPrefixOf?_append]
    rfl
  | cons d before ih => rw [List.cons_append, cutLast?, ih]

/-- A separator of one character. -/
theorem cutLast?_singleton {c : Char} {after : List Char} (h : c ∉ after) (before : List Char) :
    cutLast? [c] (before ++ c :: after) = some (before, after) :=
  @cutLast?_append c [] after (fun hpart => h (hpart.subset List.mem_cons_self)) before

/-! ## 2. Lines -/

/-- A line that can be told from its end: there is no line feed in it, and no carriage return at its
end. -/
structure IsLine (line : List Char) : Prop where
  no_feed : '\n' ∉ line
  no_return : line.getLast? ≠ some '\r'

theorem lines_cons {c : Char} {s : List Char} (hc : c ≠ '\n') (h : c = '\r' → s.head? ≠ some '\n') :
    lines (c :: s) = pushFirst c (lines s) := by
  rw [lines]
  · exact if_neg hc
  · rintro t rfl rfl
    exact h rfl rfl

theorem lines_append_feed {line : List Char} (h : IsLine line) (rest : List Char) :
    lines (line ++ '\n' :: rest) = line :: lines rest := by
  obtain ⟨hfeed, hreturn⟩ := h
  induction line with
  | nil =>
    rw [List.nil_append, lines]
    · rfl
    · intro t hc
      cases hc
  | cons c line ih =>
    rw [List.mem_cons, not_or] at hfeed
    have hlast : line.getLast? ≠ some '\r' := by
      cases line with
      | nil => simp
      | cons d line => simpa using hreturn
    have hnext : c = '\r' → (line ++ '\n' :: rest).head? ≠ some '\n' := by
      rintro rfl hhead
      cases line with
      | nil => exact hreturn rfl
      | cons d line => exact hfeed.2 (Option.some.inj hhead ▸ List.mem_cons_self)
    rw [List.cons_append, lines_cons (Ne.symm hfeed.1) hnext, ih hfeed.2 hlast]
    rfl

/-- The last line may lack its end. -/
theorem lines_last {line : List Char} (h : '\n' ∉ line) (hne : line ≠ []) :
    lines line = [line] := by
  induction line with
  | nil => exact absurd rfl hne
  | cons c line ih =>
    rw [List.mem_cons, not_or] at h
    have hnext : c = '\r' → line.head? ≠ some '\n' := fun _ hhead =>
      h.2 (List.mem_of_mem_head? hhead)
    rw [lines_cons (Ne.symm h.1) hnext]
    cases line with
    | nil => rfl
    | cons d line =>
      rw [ih h.2 (List.cons_ne_nil d line)]
      rfl

/-- Lines, each with its end. -/
def endEach (lines : List (List Char)) : List Char := lines.flatMap (· ++ ['\n'])

theorem lines_endEach {ls : List (List Char)} (h : ∀ line ∈ ls, IsLine line) (rest : List Char) :
    lines (endEach ls ++ rest) = ls ++ lines rest := by
  induction ls with
  | nil => rfl
  | cons line ls ih =>
    obtain ⟨hline, hrest⟩ := List.forall_mem_cons.mp h
    have hsplit : endEach (line :: ls) ++ rest = line ++ '\n' :: (endEach ls ++ rest) := by
      simp [endEach]
    rw [hsplit, lines_append_feed hline, ih hrest, List.cons_append]

/-- Lines with their ends are these lines. -/
theorem lines_ended {ls : List (List Char)} (h : ∀ line ∈ ls, IsLine line) :
    lines (endEach ls) = ls := by
  have hall := lines_endEach h []
  rwa [List.append_nil, lines, List.append_nil] at hall

/-- They are so without the last end, too, if the last line is not empty. -/
theorem lines_unended {ls : List (List Char)} (h : ∀ line ∈ ls, IsLine line ∧ line ≠ []) :
    lines (endEach ls).dropLast = ls := by
  -- only the last line lacks its end
  rcases List.eq_nil_or_concat ls with rfl | ⟨front, last, rfl⟩
  · rfl
  · have hdrop : (endEach (front.concat last)).dropLast = endEach front ++ last := by
      rw [List.concat_eq_append, endEach, List.flatMap_append, List.flatMap_singleton,
        ← List.append_assoc, List.dropLast_concat]
      rfl
    rw [List.concat_eq_append] at h hdrop ⊢
    obtain ⟨hfront, hlast⟩ := List.forall_mem_append.mp h
    obtain ⟨hline, hne⟩ := hlast last List.mem_cons_self
    rw [hdrop, lines_endEach fun line hline => (hfront line hline).1, lines_last hline.no_feed hne]

/-! ## 3. Blanks -/

/-- A text that neither begins nor ends with a blank, and is not empty. -/
structure IsTrimmed (s : List Char) : Prop where
  ne_nil : s ≠ []
  head : ∀ c ∈ s.head?, isBlank c = false
  last : ∀ c ∈ s.getLast?, isBlank c = false

theorem isTrimmed_iff {s : List Char} :
    (s ≠ [] ∧ s.head?.all (!isBlank ·) = true ∧ s.getLast?.all (!isBlank ·) = true) ↔
      IsTrimmed s := by
  simp only [Option.all_eq_true, Bool.not_eq_true']
  exact ⟨fun ⟨hne, hhead, hlast⟩ => ⟨hne, hhead, hlast⟩, fun h => ⟨h.ne_nil, h.head, h.last⟩⟩

instance (s : List Char) : Decidable (IsTrimmed s) := decidable_of_iff _ isTrimmed_iff

theorem IsTrimmed.append {front back : List Char} (hfront : IsTrimmed front)
    (hback : IsTrimmed back) (mid : List Char) : IsTrimmed (front ++ (mid ++ back)) where
  ne_nil := List.append_ne_nil_of_left_ne_nil hfront.ne_nil _
  head := by
    rw [List.head?_append_of_ne_nil _ hfront.ne_nil]
    exact hfront.head
  last := by
    rw [← List.append_assoc, List.getLast?_append_of_ne_nil _ hback.ne_nil]
    exact hback.last

/-- Blanks before a text are left out, and nothing else if no others are at its ends. -/
theorem trim_between {front s : List Char} (hfront : ∀ c ∈ front, isBlank c = true)
    (h : IsTrimmed s) : trim (front ++ s) = s := by
  obtain ⟨hne, hhead, hlast⟩ := h
  have hkeep {t : List Char} (ht : ∀ c ∈ t.head?, isBlank c = false) : t.dropWhile isBlank = t := by
    cases t with
    | nil => rfl
    | cons c t => rw [List.dropWhile_cons_of_neg (by simp [ht c rfl])]
  have hreverse : s.reverse.dropWhile isBlank = s.reverse :=
    hkeep (by rwa [List.head?_reverse])
  rw [trim, List.dropWhile_append_of_pos hfront, hkeep hhead, trimEnd, hreverse,
    List.reverse_reverse]

end Logbook.Text
