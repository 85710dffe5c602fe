import Logbook.Proofs.Json.Grammar
import Logbook.Proofs.Text.Utf8

/-!
# The reader reads what the grammar derives

`Tree.ofText?` finds the meaning of every JSON text. A piece of text is read to its end and no
further if what follows cannot continue it: after a string that is anything, after a number it must
not be a digit, a point or an exponent, after a value it is a gap or what may follow an element.

Results:
1. `takeUnits_append`, `takeNumeral_append`, `takeValue_append`: the readers of the parts.
2. `ofText?_eq_of_isElement`: the reader of texts.
3. `ofBytes?_encode`: the reader of bytes.
-/

namespace Logbook.Json

/-! ## Gaps -/

/-- The text does not begin with a gap. -/
def NoGap (s : List Char) : Prop := ∀ c, s.head? = some c → isGap c = false

theorem NoGap.cons {c : Char} {s : List Char} (h : isGap c = false) : NoGap (c :: s) := by
  intro d hd
  cases hd
  exact h

theorem skipGap_eq {s : List Char} (h : NoGap s) : skipGap s = s := by
  cases s with
  | nil => rfl
  | cons c s => rw [skipGap, List.dropWhile_cons, h c rfl]; rfl

theorem skipGap_append {g s : List Char} (hg : IsGap g) (hs : NoGap s) : skipGap (g ++ s) = s := by
  rw [skipGap, List.dropWhile_append_of_pos hg]
  exact skipGap_eq hs

/-! ## Strings -/

theorem takeUnits_escape {e c : Char} (s : List Char) (h : unescape? e = some c) :
    takeUnits ('\\' :: e :: s) = (takeUnits s).map fun (us, rest) => (.char c :: us, rest) := by
  rw [takeUnits]
  · rw [h]
    cases takeUnits s <;> rfl
  · intro a b c d s' he
    cases he
    cases h

theorem takeUnits_plain {c : Char} (s : List Char) (hl : 0x20 ≤ c.toNat) (hq : c ≠ '"')
    (hb : c ≠ '\\') :
    takeUnits (c :: s) = (takeUnits s).map fun (us, rest) => (.char c :: us, rest) := by
  rw [takeUnits]
  · rw [if_neg (by simp [hb]; omega)]
    cases takeUnits s <;> rfl
  · exact fun h => hq h
  · intro a b c' d s' h
    exact absurd h hb
  · intro e s' h
    exact absurd h hb

theorem takeUnits_append {s : List Char} {us : List StringUnit} (h : IsUnits s us)
    (rest : List Char) : takeUnits (s ++ '"' :: rest) = some (us, rest) := by
  induction h with
  | nil => rfl
  | plain hl hq hb _ ih =>
    rw [List.cons_append, takeUnits_plain _ hl hq hb, ih]
    rfl
  | escape he _ ih =>
    rw [List.cons_append, List.cons_append, takeUnits_escape _ he, ih]
    rfl
  | code hn _ ih =>
    simp only [List.cons_append]
    rw [takeUnits, hn, ih]

theorem takeString_append {s : List Char} {t : String} (h : IsString s t) (rest : List Char) :
    takeString (s ++ rest) = some (t, rest) := by
  cases h with
  | @mk s us h =>
    show (takeUnits (s ++ ['"'] ++ rest)).map _ = _
    rw [List.append_assoc, List.singleton_append, takeUnits_append h]
    rfl

/-! ## Numbers -/

/-- The text does not begin with a digit. -/
def NoDigit (s : List Char) : Prop := ∀ c, s.head? = some c → c.isDigit = false

theorem takeDigits_append {s rest : List Char} (h : IsDigits s) (hr : NoDigit rest) :
    takeDigits (s ++ rest) = some (s, rest) := by
  have htake : rest.takeWhile Char.isDigit = [] := by
    cases rest with
    | nil => rfl
    | cons c rest => rw [List.takeWhile_cons, hr c rfl]; rfl
  have hdrop : rest.dropWhile Char.isDigit = rest := by
    cases rest with
    | nil => rfl
    | cons c rest => rw [List.dropWhile_cons, hr c rfl]; rfl
  rw [takeDigits, List.takeWhile_append_of_pos h.2, htake, List.append_nil,
    List.dropWhile_append_of_pos h.2, hdrop]
  cases s with
  | nil => exact absurd rfl h.1
  | cons c s => rfl

theorem takeWhole_append {s rest : List Char} (h : IsWhole s) (hr : NoDigit rest) :
    takeWhole (s ++ rest) = some (s, rest) := by
  rw [takeWhole, takeDigits_append h.1 hr]
  exact if_neg fun ⟨hz, hne⟩ => hne (h.2 hz)

/-- What may stand behind a whole number: nothing that would make more of it. -/
structure EndsNumber (s : List Char) : Prop where
  digit : NoDigit s
  point : s.head? ≠ some '.'
  lower : s.head? ≠ some 'e'
  upper : s.head? ≠ some 'E'

theorem takeFraction_append {s digits rest : List Char} (h : IsFraction s digits)
    (hr : NoDigit rest) (hp : rest.head? ≠ some '.') :
    takeFraction (s ++ rest) = some (digits, rest) := by
  cases h with
  | none =>
    rw [List.nil_append, takeFraction]
    intro s hs
    rw [hs] at hp
    exact hp rfl
  | digits h => exact takeDigits_append h hr

theorem takeSigned_digits {s : List Char} (h : IsDigits s) (rest : List Char) :
    takeSigned (s ++ rest) =
      (takeDigits (s ++ rest)).map fun (digits, rest) => (Text.natOfDigits digits, rest) := by
  obtain ⟨hne, hd⟩ := h
  cases s with
  | nil => exact absurd rfl hne
  | cons c s =>
    have hc := hd c List.mem_cons_self
    rw [List.cons_append, takeSigned]
    · rintro s' hs
      cases hs
      cases hc
    · rintro s' hs
      cases hs
      cases hc

theorem takeExponent_append {s rest : List Char} {x : Int} (h : IsExponent s x)
    (hr : EndsNumber rest) : takeExponent (s ++ rest) = some (x, rest) := by
  cases h with
  | none =>
    rw [List.nil_append, takeExponent]
    · intro s hs
      exact hr.lower (by rw [hs]; rfl)
    · intro s hs
      exact hr.upper (by rw [hs]; rfl)
  | plain he h =>
    have hs := takeSigned_digits h rest
    rw [takeDigits_append h hr.digit] at hs
    rcases he with rfl | rfl <;> exact hs
  | @plus e s he h =>
    have hs : takeSigned ('+' :: (s ++ rest)) = some ((Text.natOfDigits s : Int), rest) := by
      rw [takeSigned, takeDigits_append h hr.digit]
      rfl
    rcases he with rfl | rfl <;> exact hs
  | @minus e s he h =>
    have hs : takeSigned ('-' :: (s ++ rest)) = some (-(Text.natOfDigits s : Int), rest) := by
      rw [takeSigned, takeDigits_append h hr.digit]
      rfl
    rcases he with rfl | rfl <;> exact hs

/-- An exponent and what follows it do not go on with the digits before them. -/
theorem IsExponent.noDigit {s rest : List Char} {x : Int} (h : IsExponent s x)
    (hr : EndsNumber rest) : NoDigit (s ++ rest) ∧ (s ++ rest).head? ≠ some '.' := by
  have key (e : Char) (t : List Char) (he : e = 'e' ∨ e = 'E') :
      NoDigit (e :: t) ∧ (e :: t).head? ≠ some '.' := by
    rcases he with rfl | rfl
    · exact ⟨fun c hc => by cases hc; rfl, by simp⟩
    · exact ⟨fun c hc => by cases hc; rfl, by simp⟩
  cases h with
  | none => exact ⟨hr.digit, hr.point⟩
  | plain he _ => exact key _ _ he
  | plus he _ => exact key _ _ he
  | minus he _ => exact key _ _ he

theorem IsFraction.noDigit {s digits rest : List Char} (h : IsFraction s digits)
    (hr : NoDigit rest) : NoDigit (s ++ rest) := by
  cases h with
  | none => exact hr
  | digits _ =>
    intro c hc
    cases hc
    rfl

theorem takeUnsigned_append {whole frac digits exp rest : List Char} {x : Int} (negative : Bool)
    (hw : IsWhole whole) (hf : IsFraction frac digits) (he : IsExponent exp x)
    (hr : EndsNumber rest) :
    takeUnsigned negative (whole ++ (frac ++ (exp ++ rest))) =
      some (⟨negative, Text.natOfDigits (whole ++ digits), x - digits.length⟩, rest) := by
  obtain ⟨hd, hp⟩ := he.noDigit hr
  rw [takeUnsigned, takeWhole_append hw (hf.noDigit hd)]
  simp only [Option.bind_eq_bind, Option.bind_some]
  rw [takeFraction_append hf hd hp]
  simp only [Option.bind_some]
  rw [takeExponent_append he hr]
  rfl

/-- The first character of a whole part is a digit. -/
theorem IsWhole.cons {s : List Char} (h : IsWhole s) :
    ∃ c t, s = c :: t ∧ c.isDigit = true := by
  obtain ⟨⟨hne, hd⟩, _⟩ := h
  cases s with
  | nil => exact absurd rfl hne
  | cons c t => exact ⟨c, t, rfl, hd c List.mem_cons_self⟩

theorem takeNumeral_append {s rest : List Char} {n : Numeral} (h : IsNumeral s n)
    (hr : EndsNumber rest) : takeNumeral (s ++ rest) = some (n, rest) := by
  cases h with
  | @mk whole frac digits exp x negative hw hf he =>
    have hu := takeUnsigned_append negative hw hf he hr
    cases negative with
    | true => simpa [signText, takeNumeral] using hu
    | false =>
      obtain ⟨c, t, rfl, hc⟩ := hw.cons
      simp only [signText, List.append_assoc, List.cons_append] at hu ⊢
      rw [takeNumeral]
      · exact hu
      · rintro s hs
        cases hs
        cases hc

/-- A number begins with a digit or a minus sign. -/
theorem IsNumeral.cons {s : List Char} {n : Numeral} (h : IsNumeral s n) :
    ∃ c t, s = c :: t ∧ (c = '-' ∨ c.isDigit = true) := by
  cases h with
  | @mk whole frac digits exp x negative hw hf he =>
    obtain ⟨c, t, rfl, hc⟩ := hw.cons
    cases negative with
    | true => exact ⟨'-', _, rfl, .inl rfl⟩
    | false => exact ⟨c, _, rfl, .inr hc⟩

/-! ## Values -/

/-- The text does not go on with the value before it: it is empty, or begins with a gap, a comma or
a closing bracket. -/
def Follows (s : List Char) : Prop :=
  ∀ c, s.head? = some c → isGap c = true ∨ c = ',' ∨ c = ']' ∨ c = '\x7d'

theorem Follows.endsNumber {s : List Char} (h : Follows s) : EndsNumber s := by
  have key (p : Char) (hp : isGap p = false ∧ p ≠ ',' ∧ p ≠ ']' ∧ p ≠ '\x7d') :
      s.head? ≠ some p := by
    intro hs
    rcases h p hs with hg | hc | hc | hc
    · exact absurd (hp.1.symm.trans hg) Bool.false_ne_true
    · exact hp.2.1 hc
    · exact hp.2.2.1 hc
    · exact hp.2.2.2 hc
  refine ⟨fun c hc => ?_, key _ (by decide), key _ (by decide), key _ (by decide)⟩
  rcases h c hc with hg | rfl | rfl | rfl
  · simp only [isGap, Bool.or_eq_true, decide_eq_true_eq] at hg
    rcases hg with ((rfl | rfl) | rfl) | rfl <;> rfl
  · rfl
  · rfl
  · rfl

theorem Follows.gap_append {g s : List Char} (hg : IsGap g) (hs : Follows s) :
    Follows (g ++ s) := by
  cases g with
  | nil => exact hs
  | cons c g =>
    intro d hd
    cases hd
    exact .inl (hg c List.mem_cons_self)

/-- A value begins with a character that neither is a gap nor closes a bracket. -/
theorem IsValue.cons {s : List Char} {t : Tree} (h : IsValue s t) :
    ∃ c u, s = c :: u ∧ isGap c = false ∧ c ≠ ']' := by
  cases h with
  | null => exact ⟨_, _, rfl, by decide⟩
  | bool b => cases b <;> exact ⟨_, _, rfl, by decide⟩
  | number h =>
    obtain ⟨c, u, rfl, hc⟩ := h.cons
    refine ⟨c, u, rfl, ?_, ?_⟩
    · cases hg : isGap c with
      | false => rfl
      | true =>
        simp only [isGap, Bool.or_eq_true, decide_eq_true_eq] at hg
        rcases hc with rfl | hc
        · simp at hg
        · rcases hg with ((rfl | rfl) | rfl) | rfl <;> cases hc
    · rintro rfl
      rcases hc with hc | hc <;> cases hc
  | text h =>
    cases h
    exact ⟨_, _, rfl, by decide⟩
  | emptyList => exact ⟨_, _, rfl, by decide⟩
  | list => exact ⟨_, _, rfl, by decide⟩
  | emptyObject => exact ⟨_, _, rfl, by decide⟩
  | object => exact ⟨_, _, rfl, by decide⟩

theorem IsValue.noGap {s : List Char} {t : Tree} (h : IsValue s t) (rest : List Char) :
    NoGap (s ++ rest) := by
  obtain ⟨c, u, rfl, hc, _⟩ := h.cons
  exact NoGap.cons hc

theorem IsString.noGap {s : List Char} {t : String} (h : IsString s t) (rest : List Char) :
    NoGap (s ++ rest) := by
  cases h
  exact NoGap.cons rfl

/-- A number is taken where the first character is one of a number. -/
theorem takeValue_numeral (n : Nat) {c : Char} {s : List Char} (hc : c = '-' ∨ c.isDigit = true) :
    takeValue (n + 1) (c :: s) =
      (takeNumeral (c :: s)).map fun (x, rest) => (.number x, rest) := by
  have key (p : Char) (hp : p ≠ '-' ∧ p.isDigit = false) : c ≠ p := by
    rintro rfl
    rcases hc with hc | hc
    · exact hp.1 hc
    · exact Bool.false_ne_true (hp.2.symm.trans hc)
  rw [takeValue]
  · intro r h
    exact key 'n' (by decide) (List.cons.inj h).1
  · intro r h
    exact key 't' (by decide) (List.cons.inj h).1
  · intro r h
    exact key 'f' (by decide) (List.cons.inj h).1
  · intro r h
    exact key '"' (by decide) (List.cons.inj h).1
  · intro r h
    exact key '[' (by decide) (List.cons.inj h).1
  · intro r h
    exact key '\x7b' (by decide) (List.cons.inj h).1

/-- A list is taken item by item unless its bracket is closed at once. -/
theorem takeValue_list (n : Nat) {s : List Char} (h : ∀ r, skipGap s ≠ ']' :: r) :
    takeValue (n + 1) ('[' :: s) = (takeItems n s).map fun (ts, rest) => (.list ts, rest) := by
  rw [takeValue]
  split
  · next r hr => exact absurd hr (h r)
  · rfl

/-- An object is taken member by member unless its brace is closed at once. -/
theorem takeValue_object (n : Nat) {s : List Char} (h : ∀ r, skipGap s ≠ '\x7d' :: r) :
    takeValue (n + 1) ('\x7b' :: s) =
      (takeMembers n s).map fun (ms, rest) => (.object ms, rest) := by
  rw [takeValue]
  split
  · next r hr => exact absurd hr (h r)
  · rfl

theorem IsElement.skipGap_ne {s : List Char} {t : Tree} (h : IsElement s t) (rest r : List Char) :
    skipGap (s ++ rest) ≠ ']' :: r := by
  cases h with
  | @mk g s h t hg hv hh =>
    rw [List.append_assoc, List.append_assoc, skipGap_append hg (hv.noGap _)]
    obtain ⟨c, u, rfl, _, hc⟩ := hv.cons
    exact fun he => hc (List.cons.inj he).1

theorem IsItems.skipGap_ne {s : List Char} {ts : List Tree} (h : IsItems s ts)
    (rest r : List Char) : skipGap (s ++ rest) ≠ ']' :: r := by
  cases h with
  | one h => exact h.skipGap_ne rest r
  | @more s r' t ts h _ =>
    rw [List.append_assoc]
    exact h.skipGap_ne _ r

theorem IsMembers.skipGap_ne {s : List Char} {ms : List (String × Tree)} (h : IsMembers s ms)
    (rest r : List Char) : skipGap (s ++ rest) ≠ '\x7d' :: r := by
  have key {g k : List Char} {name : String} (hg : IsGap g) (hk : IsString k name)
      (u : List Char) : skipGap (g ++ (k ++ u)) ≠ '\x7d' :: r := by
    rw [skipGap_append hg (hk.noGap u)]
    cases hk
    simp
  cases h with
  | one hg hk _ _ => simpa only [List.append_assoc] using key hg hk _
  | more hg hk _ _ _ => simpa only [List.append_assoc] using key hg hk _

/-- What has to be taken is the least that the bound on the nesting may be. -/
theorem exists_succ {m n : Nat} (hm : 0 < m) (h : m ≤ n) : ∃ k, n = k + 1 :=
  ⟨n - 1, by omega⟩

-- By induction on the derivation. A bracket and an element each use up one of the bound, so twice
-- the length of a text is enough for it.
mutual

theorem takeValue_append {s : List Char} {t : Tree} :
    IsValue s t → ∀ {n : Nat} {rest : List Char}, 2 * s.length ≤ n → Follows rest →
      takeValue n (s ++ rest) = some (t, rest)
  | .null, n, rest, hn, _ => by
    obtain ⟨n, rfl⟩ := exists_succ (by simp) hn
    rfl
  | .bool b, n, rest, hn, _ => by
    obtain ⟨n, rfl⟩ := exists_succ (by cases b <;> simp [boolText]) hn
    cases b <;> rfl
  | .number h, n, rest, hn, hr => by
    have ht := takeNumeral_append h hr.endsNumber
    obtain ⟨c, u, rfl, hc⟩ := h.cons
    obtain ⟨n, rfl⟩ := exists_succ (by simp) hn
    rw [List.cons_append] at ht ⊢
    rw [takeValue_numeral n hc, ht]
    rfl
  | .text h, n, rest, hn, _ => by
    have ht := takeString_append h rest
    cases h with
    | mk h =>
      obtain ⟨n, rfl⟩ := exists_succ (by simp) hn
      simp only [List.cons_append] at ht ⊢
      rw [takeValue, ht]
      rfl
  | .emptyList hg, n, rest, hn, _ => by
    obtain ⟨n, rfl⟩ := exists_succ (by simp) hn
    rw [List.cons_append, List.cons_append, List.append_assoc, List.singleton_append, takeValue,
      skipGap_append hg (NoGap.cons rfl)]
    rfl
  | .list (s := s) h, n, rest, hn, _ => by
    obtain ⟨n, rfl⟩ := exists_succ (by simp) hn
    rw [List.cons_append, List.cons_append, List.append_assoc, List.singleton_append,
      takeValue_list n (h.skipGap_ne _), takeItems_append h (by simp at hn; omega)]
    rfl
  | .emptyObject hg, n, rest, hn, _ => by
    obtain ⟨n, rfl⟩ := exists_succ (by simp) hn
    rw [List.cons_append, List.cons_append, List.append_assoc, List.singleton_append, takeValue,
      skipGap_append hg (NoGap.cons rfl)]
    rfl
  | .object h, n, rest, hn, _ => by
    obtain ⟨n, rfl⟩ := exists_succ (by simp) hn
    rw [List.cons_append, List.cons_append, List.append_assoc, List.singleton_append,
      takeValue_object n (h.skipGap_ne _), takeMembers_append h (by simp at hn; omega)]
    rfl

/-- After an element its value has been taken, and the gap behind it is left. -/
theorem takeElement_append {s : List Char} {t : Tree} :
    IsElement s t → ∀ {n : Nat} {rest : List Char}, 2 * s.length ≤ n → Follows rest → NoGap rest →
      ∃ left, takeValue n (skipGap (s ++ rest)) = some (t, left) ∧ skipGap left = rest
  | .mk (h := h) hg hv hh, n, rest, hn, hr, hng => by
    refine ⟨h ++ rest, ?_, skipGap_append hh hng⟩
    rw [List.append_assoc, List.append_assoc, skipGap_append hg (hv.noGap _)]
    exact takeValue_append hv (by simp at hn; omega) (hr.gap_append hh)

theorem takeItems_append {s : List Char} {ts : List Tree} :
    IsItems s ts → ∀ {n : Nat} {rest : List Char}, 2 * s.length + 1 ≤ n →
      takeItems n (s ++ ']' :: rest) = some (ts, rest)
  | .one h, n, rest, hn => by
    obtain ⟨n, rfl⟩ := exists_succ (Nat.succ_pos _) hn
    have hf : Follows (']' :: rest) := fun c hc => by cases hc; simp
    obtain ⟨left, ht, hl⟩ := takeElement_append h (n := n) (by omega) hf (NoGap.cons rfl)
    rw [takeItems, ht]
    simp only [Option.bind_eq_bind, Option.bind_some, hl]
  | .more (s := s) (r := r) h hs, n, rest, hn => by
    obtain ⟨n, rfl⟩ := exists_succ (Nat.succ_pos _) hn
    simp only [List.length_append, List.length_cons] at hn
    have hf : Follows (',' :: (r ++ ']' :: rest)) := fun c hc => by cases hc; simp
    obtain ⟨left, ht, hl⟩ := takeElement_append h (n := n) (by omega) hf (NoGap.cons rfl)
    rw [List.append_assoc, List.cons_append, takeItems, ht]
    simp only [Option.bind_eq_bind, Option.bind_some, hl]
    rw [takeItems_append hs (by omega)]
    rfl

theorem takeMembers_append {s : List Char} {ms : List (String × Tree)} :
    IsMembers s ms → ∀ {n : Nat} {rest : List Char}, 2 * s.length + 1 ≤ n →
      takeMembers n (s ++ '\x7d' :: rest) = some (ms, rest)
  | .one (k := k) (s := s) hg hk hh h, n, rest, hn => by
    obtain ⟨n, rfl⟩ := exists_succ (Nat.succ_pos _) hn
    simp only [List.length_append, List.length_cons] at hn
    have hf : Follows ('\x7d' :: rest) := fun c hc => by cases hc; simp
    obtain ⟨left, ht, hl⟩ := takeElement_append h (n := n) (by omega) hf (NoGap.cons rfl)
    simp only [List.append_assoc, List.cons_append]
    rw [takeMembers, skipGap_append hg (hk.noGap _), takeString_append hk]
    simp only [Option.bind_eq_bind, Option.bind_some]
    rw [skipGap_append hh (NoGap.cons rfl)]
    simp only [ht, Option.bind_some, hl]
  | .more (k := k) (s := s) (r := r) hg hk hh h hs, n, rest, hn => by
    obtain ⟨n, rfl⟩ := exists_succ (Nat.succ_pos _) hn
    simp only [List.length_append, List.length_cons] at hn
    have hf : Follows (',' :: (r ++ '\x7d' :: rest)) := fun c hc => by cases hc; simp
    obtain ⟨left, ht, hl⟩ := takeElement_append h (n := n) (by omega) hf (NoGap.cons rfl)
    simp only [List.append_assoc, List.cons_append]
    rw [takeMembers, skipGap_append hg (hk.noGap _), takeString_append hk]
    simp only [Option.bind_eq_bind, Option.bind_some]
    rw [skipGap_append hh (NoGap.cons rfl)]
    simp only [ht, Option.bind_some, hl]
    rw [takeMembers_append hs (by omega)]
    rfl

end

/-! ## Texts -/

/-- The reader finds the meaning of every JSON text. -/
theorem ofText?_eq_of_isElement {s : List Char} {t : Tree} (h : IsElement s t) :
    Tree.ofText? s = some t := by
  have hf : Follows [] := fun c hc => by cases hc
  have hg : NoGap [] := fun c hc => by cases hc
  obtain ⟨left, ht, hl⟩ := takeElement_append h (Nat.le_refl _) hf hg
  rw [List.append_nil] at ht
  rw [Tree.ofText?, ht]
  exact if_pos hl

/-- The same for a text given by its bytes. -/
theorem ofBytes?_encode {s : List Char} {t : Tree} (h : IsElement s t) :
    Tree.ofBytes? (Utf8.encode s) = some t := by
  rw [Tree.ofBytes?, Utf8.decode?_encode]
  exact ofText?_eq_of_isElement h

end Logbook.Json
