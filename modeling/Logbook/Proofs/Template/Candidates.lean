import Logbook.Disk.Path
import Logbook.Proofs.Decimal.Digits
import Logbook.Proofs.Text.Replacing
import Logbook.Template

/-!
# Candidates of a template

A template without date tokens is the same at every time. Its candidates differ from each other, and
they differ name by name: the counter is put into every name of the path for itself, and no name
becomes empty, a dot or two dots by that.

Results:
1. `resolve_undated`: without date tokens a template stands for itself.
2. `candidate_inj`: the counter can be told from the candidate.
3. `ofText_numbered`: a numbered path is the path with its names numbered.
-/

namespace Logbook

namespace Template

open Text (contains)
open Time.Pattern (Item)

/-! ## 1. Templates without date tokens -/

theorem prefix_of_prefix_escapePercents {part s : List Char} (hpart : '%' ∉ part)
    (h : part <+: escapePercents s) : part <+: s := by
  induction s generalizing part with
  | nil => exact h
  | cons c s ih =>
    cases part with
    | nil => exact List.nil_prefix
    | cons d part =>
      rw [List.mem_cons, not_or] at hpart
      rw [escapePercents, List.flatMap_cons] at h
      split at h
      · exact absurd (List.cons_prefix_cons.mp h).1.symm hpart.1
      · obtain ⟨rfl, htail⟩ := List.cons_prefix_cons.mp h
        exact List.cons_prefix_cons.mpr ⟨rfl, ih hpart.2 htail⟩

theorem infix_of_infix_escapePercents {part s : List Char} (hpart : '%' ∉ part)
    (h : part <:+: escapePercents s) : part <:+: s := by
  induction s with
  | nil => exact h
  | cons c s ih =>
    rw [escapePercents, List.flatMap_cons] at h
    -- a percent sign is written twice, and a part without one begins at neither of the two
    split at h
    · rcases List.infix_cons_iff.mp h with hfirst | h
      · rcases List.prefix_cons_iff.mp hfirst with rfl | ⟨t, rfl, -⟩
        · exact List.nil_infix
        · exact absurd List.mem_cons_self hpart
      rcases List.infix_cons_iff.mp h with hsecond | h
      · rcases List.prefix_cons_iff.mp hsecond with rfl | ⟨t, rfl, -⟩
        · exact List.nil_infix
        · exact absurd List.mem_cons_self hpart
      exact (ih h).trans (List.suffix_cons _ _).isInfix
    · next hc =>
      rcases List.infix_cons_iff.mp h with hfirst | h
      · refine (prefix_of_prefix_escapePercents hpart ?_).isInfix
        rwa [escapePercents, List.flatMap_cons, if_neg hc]
      · exact (ih h).trans (List.suffix_cons _ _).isInfix

theorem contains_escapePercents {part s : List Char} (hpart : '%' ∉ part)
    (h : contains part s = false) : contains part (escapePercents s) = false := by
  rw [← Bool.not_eq_true, Text.contains_iff] at h ⊢
  exact fun hi => h (infix_of_infix_escapePercents hpart hi)

theorem pattern_undated {template : List Char} (h : hasDateTokens template = false) :
    pattern template = escapePercents template := by
  have hnone : ∀ entry ∈ dateTokens, contains entry.1 (escapePercents template) = false := by
    intro entry hmem
    have hpercent : '%' ∉ entry.1 := by
      revert entry
      decide
    refine contains_escapePercents hpercent ?_
    have hany := List.any_eq_false.mp h entry hmem
    simpa using hany
  rw [pattern]
  -- no token is found, so each of them leaves the text as it is
  generalize escapePercents template = s at hnone
  generalize dateTokens = tokens at hnone
  induction tokens with
  | nil => rfl
  | cons entry tokens ih =>
    have hfirst := Text.replaceFirst_of_not_contains entry.2 (hnone entry List.mem_cons_self)
    rw [List.foldl_cons]
    dsimp only
    rw [hfirst]
    exact ih fun entry hmem => hnone entry (List.mem_cons_of_mem _ hmem)

theorem read_escapePercents (s : List Char) :
    Time.Pattern.read (escapePercents s) = s.map Item.text := by
  rw [Time.Pattern.read]
  induction s with
  | nil => rfl
  | cons c s ih =>
    rw [escapePercents, List.flatMap_cons, List.map_cons]
    split
    · next hc =>
      subst hc
      show [Item.text '%'] ++ Time.Pattern.readFrom 0 (escapePercents s) = _
      rw [ih]
      rfl
    · next hc =>
      show Time.Pattern.readFrom 0 (c :: escapePercents s) = _
      rw [Time.Pattern.readFrom, if_neg hc, ih]

theorem renderItems?_text (t : Time.Stamp) (s : List Char) :
    Time.Pattern.renderItems? t (s.map Item.text) = some s := by
  induction s with
  | nil => rfl
  | cons c s ih =>
    rw [List.map_cons, Time.Pattern.renderItems?, ih]
    rfl

/-- Without date tokens a template stands for itself at all times. -/
theorem resolve_undated {template : List Char} (h : hasDateTokens template = false)
    (t : Time.Stamp) : resolve template t = template := by
  rw [resolve, pattern_undated h, Time.Pattern.render?, read_escapePercents, renderItems?_text]
  rfl

/-! ## 2. The counter -/

theorem candidate_eq_self {s : List Char} (h : hasIndex s = false) (i : Nat) :
    candidate s i = s :=
  Text.replaceAll_of_not_contains _ h

theorem digitsOf_infix {s : List Char} (h : hasIndex s = true) (i : Nat) :
    Decimal.digitsOf i <:+: candidate s i :=
  Text.infix_replaceAll _ (by decide) h

/-- The counter can be told from the candidate. -/
theorem candidate_inj {s : List Char} {i j : Nat} (hs : hasIndex s = true)
    (h : candidate s i = candidate s j) : i = j := by
  have hdigits := Text.replaceAll_inj (by decide) hs h
  rw [← Decimal.natOfDigits_digitsOf i, hdigits, Decimal.natOfDigits_digitsOf]

/-- A candidate is a text without digits only if the template is that text. -/
theorem candidate_eq_iff {s d : List Char} (i : Nat) (hdigits : d.any Char.isDigit = false)
    (hd : hasIndex d = false) : candidate s i = d ↔ s = d := by
  cases hs : hasIndex s with
  | false => rw [candidate_eq_self hs]
  | true =>
    refine ⟨fun h => ?_, fun h => ?_⟩
    · obtain ⟨hne, hall⟩ := Decimal.isDigits_digitsOf i
      obtain ⟨c, hc⟩ := List.exists_mem_of_ne_nil _ hne
      have hmem : c ∈ d := (h ▸ digitsOf_infix hs i).subset hc
      exact absurd (hall c hc) (List.any_eq_false.mp hdigits c hmem)
    · rw [h, hd] at hs
      cases hs

theorem slash_not_mem_candidate {s : List Char} (h : '/' ∉ s) (i : Nat) :
    '/' ∉ candidate s i := by
  intro hmem
  rcases Text.mem_replaceAll hmem with hs | hd
  · exact h hs
  · exact absurd ((Decimal.isDigits_digitsOf i).2 _ hd) (by decide)

theorem candidate_append_slash (a b : List Char) (i : Nat) :
    candidate (a ++ '/' :: b) i = candidate a i ++ '/' :: candidate b i :=
  Text.replaceAll_append_cons _ (by decide) (by decide) a b

end Template

/-! ## 3. Names -/

open Template (candidate candidate_eq_iff)

theorem splitSlashes_of_not_mem {s : List Char} (h : '/' ∉ s) : splitSlashes s = [s] := by
  induction s with
  | nil => rfl
  | cons c s ih =>
    rw [List.mem_cons, not_or] at h
    rw [splitSlashes, if_neg (Ne.symm h.1), ih h.2]
    rfl

theorem splitSlashes_ne_nil (s : List Char) : splitSlashes s ≠ [] := by
  cases s with
  | nil => simp [splitSlashes]
  | cons c s =>
    rw [splitSlashes]
    split
    · simp
    · cases splitSlashes s <;> simp [Text.pushFirst]

theorem splitSlashes_append (a b : List Char) :
    splitSlashes (a ++ '/' :: b) = splitSlashes a ++ splitSlashes b := by
  induction a with
  | nil => rfl
  | cons c a ih =>
    rw [List.cons_append, splitSlashes, splitSlashes, ih]
    split
    · rfl
    · cases ha : splitSlashes a with
      | nil => exact absurd ha (splitSlashes_ne_nil a)
      | cons name rest => rfl

theorem splitSlashes_append_slash {a : List Char} (h : '/' ∉ a) (b : List Char) :
    splitSlashes (a ++ '/' :: b) = a :: splitSlashes b := by
  rw [splitSlashes_append, splitSlashes_of_not_mem h]
  rfl

/-- The names between the slashes are numbered one by one. -/
theorem splitSlashes_candidate (s : List Char) (i : Nat) :
    splitSlashes (candidate s i) = (splitSlashes s).map fun name => candidate name i := by
  induction hn : s.length using Nat.strongRecOn generalizing s with
  | ind n ih =>
    by_cases hs : '/' ∈ s
    · obtain ⟨a, b, rfl, ha⟩ := List.eq_append_cons_of_mem hs
      have hlt : b.length < n := by simp [← hn]; omega
      rw [Template.candidate_append_slash,
        splitSlashes_append_slash (Template.slash_not_mem_candidate ha i),
        splitSlashes_append_slash ha, ih _ hlt b rfl, List.map_cons]
    · rw [splitSlashes_of_not_mem (Template.slash_not_mem_candidate hs i),
        splitSlashes_of_not_mem hs, List.map_singleton]

/-- A text with the counter in place. -/
def numbered (i : Nat) (s : String) : String := .ofList (candidate s.toList i)

theorem numbered_eq_iff {i : Nat} {s d : String} (hdigits : d.toList.any Char.isDigit = false)
    (hd : Template.hasIndex d.toList = false) : numbered i s = d ↔ s = d := by
  rw [numbered, ← String.toList_inj, String.toList_ofList, candidate_eq_iff i hdigits hd,
    String.toList_inj]

theorem numbered_inj {i j : Nat} {s : String} (hs : Template.hasIndex s.toList = true)
    (h : numbered i s = numbered j s) : i = j :=
  Template.candidate_inj hs (String.ofList_injective h)

/-- A text that stays the same with another counter has no place for one. -/
theorem numbered_const {i j : Nat} {s : String} (hij : i ≠ j) (h : numbered i s = numbered j s)
    (k : Nat) : numbered k s = s := by
  cases hs : Template.hasIndex s.toList with
  | true => exact absurd (numbered_inj hs h) hij
  | false => rw [numbered, Template.candidate_eq_self hs, String.ofList_toList]

theorem isDots_candidate (name : List Char) (i : Nat) :
    isDots (candidate name i) = isDots name := by
  rw [Bool.eq_iff_iff, isDots, isDots, Bool.or_eq_true, Bool.or_eq_true, beq_iff_eq, beq_iff_eq,
    beq_iff_eq, beq_iff_eq, candidate_eq_iff i (by decide) (by decide),
    candidate_eq_iff i (by decide) (by decide)]

theorem withoutDots_candidate (names : List (List Char)) (i : Nat) :
    withoutDots (names.map fun name => candidate name i) =
      (withoutDots names).map (numbered i) := by
  have hdot (name : List Char) : (candidate name i != ['.']) = (name != ['.']) := by
    rw [Bool.eq_iff_iff, bne_iff_ne, bne_iff_ne, Ne, Ne,
      candidate_eq_iff i (by decide) (by decide)]
  rw [withoutDots, withoutDots, List.filter_map, List.map_map, List.map_map]
  simp only [Function.comp_def, hdot, numbered, String.toList_ofList]

theorem head?_candidate (s : List Char) (i : Nat) :
    ((candidate s i).head? == some '/') = (s.head? == some '/') := by
  cases s with
  | nil => rfl
  | cons c s =>
    obtain ⟨hne, hall⟩ := Decimal.isDigits_digitsOf i
    rw [candidate, Text.replaceAll, Text.replaceFrom]
    split
    · next hp =>
      have hc : c = 'i' := (List.cons_prefix_cons.mp (List.isPrefixOf_iff_prefix.mp hp)).1.symm
      cases hd : Decimal.digitsOf i with
      | nil => exact absurd hd hne
      | cons d digits =>
        have hdigit : d.isDigit = true := hall d (hd ▸ List.mem_cons_self)
        have hslash : d ≠ '/' := by
          rintro rfl
          exact absurd hdigit (by decide)
        simp [hc, hslash]
    · rfl

/-- A path in which names are numbered: the way to its file is the same up to the numbers. -/
theorem ofText_numbered (s : String) (i : Nat) :
    (Path.ofText (numbered i s)).absolute = (Path.ofText s).absolute ∧
      (Path.ofText (numbered i s)).folders = (Path.ofText s).folders.map (numbered i) ∧
      (Path.ofText (numbered i s)).last? = (Path.ofText s).last?.map (numbered i) := by
  have hempty (name : List Char) : (candidate name i).isEmpty = name.isEmpty := by
    rw [Bool.eq_iff_iff, List.isEmpty_iff, List.isEmpty_iff,
      candidate_eq_iff i (by decide) (by decide)]
  have hnames : (splitSlashes (candidate s.toList i)).filter (fun name => !name.isEmpty) =
      ((splitSlashes s.toList).filter fun name => !name.isEmpty).map
        fun name => candidate name i := by
    rw [splitSlashes_candidate, List.filter_map]
    simp only [Function.comp_def, hempty]
  simp only [Path.ofText, numbered, String.toList_ofList, hnames, List.getLast?_map,
    head?_candidate]
  -- a last name of dots counts among the folders, and a number makes no dots
  generalize (splitSlashes s.toList).filter (fun name => !name.isEmpty) = names
  cases hlast : names.getLast? with
  | none => exact ⟨rfl, rfl, rfl⟩
  | some last =>
    rw [Option.map_some]
    dsimp only
    rw [isDots_candidate]
    split
    · exact ⟨rfl, withoutDots_candidate names i, rfl⟩
    · refine ⟨rfl, ?_, ?_⟩
      · rw [← List.map_dropLast]
        exact withoutDots_candidate names.dropLast i
      · simp [numbered]

end Logbook
