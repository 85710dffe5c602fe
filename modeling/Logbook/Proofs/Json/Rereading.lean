import Logbook.Proofs.Json.Escaping
import Logbook.Proofs.Json.Reading
import Logbook.Proofs.Decimal.Digits
import Logbook.Json.Reader

/-!
# Readers after writers

A reader that finds a string, a truth value or a whole number as a document has it takes exactly
that and gives the value back, whatever stands behind. Behind a number it must be something that
does not go on with it. The other way round a whole number that was read has at most 64 bits, so it
can be written and read again.

Results:
1. `readStringRest_escapeText`, `readText_quote`, `nextName_comma`: strings and names;
   `readStringRest_isUnits`: strings that were not written here, in any of their spellings.
2. `readBool_boolText`, `readNat_digitsOf`: truth values and whole numbers.
3. `le_largestWord_of_readNat`: what numbers are read.
-/

namespace Logbook.Json

open Decimal (digitsOf)
open Text (digitValue natOfDigits)

/-! ## 1. Strings and names -/

/-- The letters of documents are read back as the characters they stand for. -/
theorem unescape?_document {c letter : Char} (h : Letters.document.letter? c = some letter) :
    unescape? letter = some c := by
  simp only [Letters.document] at h
  split at h
  · cases h; rfl
  · cases h; rfl
  · cases h; rfl
  · cases h; rfl
  · cases h; rfl
  · cases h

theorem readStringRest_escape {e c : Char} (s : List Char) (h : unescape? e = some c) :
    readStringRest ('\\' :: e :: s) = withChar c (readStringRest s) := by
  have hu : e ≠ 'u' := by
    rintro rfl
    cases h
  rw [readStringRest]
  · rw [h]
  · exact fun a b c d t he => absurd he hu
  · exact hu

theorem readStringRest_code {c : Char} (s : List Char) (h : c.toNat < 0x20) :
    readStringRest (codeEscape c ++ s) = withChar c (readStringRest s) := by
  show readStringRest
    ('\\' :: 'u' :: '0' :: '0' :: hexDigit (c.toNat / 16) :: hexDigit (c.toNat % 16) :: s) = _
  rw [readStringRest, hexValue4?_code h]
  dsimp only
  rw [if_neg (by simp; omega), if_pos (by simp; omega), Char.ofNat_toNat]

theorem readStringRest_plain {c : Char} (s : List Char) (hl : 0x20 ≤ c.toNat) (hq : c ≠ '"')
    (hb : c ≠ '\\') : readStringRest (c :: s) = withChar c (readStringRest s) := by
  rw [readStringRest]
  · exact if_neg (by omega)
  · exact hq
  · exact fun a b c d t ht => absurd ht hb
  · exact fun t ht => absurd ht hb
  · exact fun c t ht => absurd ht hb
  · exact fun ht => absurd ht hb

theorem readStringRest_escapeChar (c : Char) (s : List Char) :
    readStringRest (escapeChar .document c ++ s) = withChar c (readStringRest s) := by
  unfold escapeChar
  split
  · next hc =>
    rcases Bool.or_eq_true_iff.mp hc with hq | hb
    · obtain rfl := of_decide_eq_true hq
      exact readStringRest_escape s rfl
    · obtain rfl := of_decide_eq_true hb
      exact readStringRest_escape s rfl
  next hc =>
  simp only [Bool.or_eq_true, decide_eq_true_eq, not_or] at hc
  split
  · next letter hl => exact readStringRest_escape s (unescape?_document hl)
  split
  · next hlow => exact readStringRest_code s hlow
  · exact readStringRest_plain s (by omega) hc.1 hc.2

theorem readStringRest_escapeText (s rest : List Char) :
    readStringRest (escapeText .document s ++ '"' :: rest) = .ok (s, rest) := by
  induction s with
  | nil => rfl
  | cons c s ih =>
    have hsplit : escapeText .document (c :: s) ++ '"' :: rest
        = escapeChar .document c ++ (escapeText .document s ++ '"' :: rest) := by
      rw [escapeText, List.flatMap_cons, List.append_assoc]
      rfl
    rw [hsplit, readStringRest_escapeChar, ih]
    rfl

/-- Every half of a surrogate pair has the other half beside it. -/
inductive IsPaired : List StringUnit → Prop
  | nil : IsPaired []
  | char {c : Char} {us : List StringUnit} : IsPaired us → IsPaired (.char c :: us)
  | pair {high low : Nat} {us : List StringUnit} :
      high < 0xDC00 → 0xDC00 ≤ low → IsPaired us → IsPaired (.half high :: .half low :: us)

/-- Only a code escape can give half of a pair. -/
theorem IsUnits.of_half {s : List Char} {us : List StringUnit} {n : Nat}
    (h : IsUnits s (.half n :: us)) :
    0xD800 ≤ n ∧ n < 0xE000 ∧ ∃ a b c d t, s = '\\' :: 'u' :: a :: b :: c :: d :: t ∧
      hexValue4? a b c d = some n ∧ IsUnits t us := by
  generalize hus : StringUnit.half n :: us = units at h
  cases h with
  | nil => cases hus
  | plain => cases hus
  | escape => cases hus
  | @code a b c d m t rest hcode ht =>
    obtain ⟨hhalf, rfl⟩ := List.cons.inj hus
    unfold StringUnit.ofCode at hhalf
    split at hhalf
    · next hrange =>
      cases hhalf
      exact ⟨hrange.1, hrange.2, a, b, c, d, t, rfl, hcode, ht⟩
    · cases hhalf

theorem readStringRest_pair {a b c d e f g h : Char} {high low : Nat} (s : List Char)
    (hhigh : hexValue4? a b c d = some high) (hfirst : 0xD800 ≤ high ∧ high < 0xDC00)
    (hlow : hexValue4? e f g h = some low) (hsecond : 0xDC00 ≤ low ∧ low < 0xE000) :
    readStringRest ('\\' :: 'u' :: a :: b :: c :: d :: '\\' :: 'u' :: e :: f :: g :: h :: s) =
      withChar (pairedChar high low) (readStringRest s) := by
  rw [readStringRest, hhigh]
  dsimp only
  rw [if_neg (by simp; omega), if_neg (by simp; omega)]
  simp only [hlow]
  rw [if_pos (by simp; omega)]

/-- A string is read as the text that it stands for, whatever spelling it has. -/
theorem readStringRest_isUnits {s : List Char} {us : List StringUnit} (h : IsUnits s us)
    (hpaired : IsPaired us) (rest : List Char) :
    readStringRest (s ++ '"' :: rest) = .ok (joinUnits us, rest) := by
  induction hpaired generalizing s with
  | nil =>
    cases h
    rfl
  | @char c us _ ih =>
    generalize hus : StringUnit.char c :: us = units at h
    cases h with
    | nil => cases hus
    | plain hlow hquote hslash ht =>
      obtain ⟨hchar, rfl⟩ := List.cons.inj hus
      cases hchar
      rw [List.cons_append, readStringRest_plain _ hlow hquote hslash, ih ht]
      rfl
    | escape hletter ht =>
      obtain ⟨hchar, rfl⟩ := List.cons.inj hus
      cases hchar
      rw [List.cons_append, List.cons_append, readStringRest_escape _ hletter, ih ht]
      rfl
    | @code _ _ _ _ n _ _ hcode ht =>
      obtain ⟨hchar, rfl⟩ := List.cons.inj hus
      unfold StringUnit.ofCode at hchar
      split at hchar
      · cases hchar
      next hrange =>
      cases hchar
      simp only [List.cons_append]
      rw [readStringRest, hcode]
      dsimp only
      rw [if_neg (by simp; omega), if_pos (by simp; omega), ih ht, ← hus]
      rfl
  | @pair high low us hhigh hlow _ ih =>
    obtain ⟨hstart, -, a, b, c, d, t, rfl, hcode, ht⟩ := h.of_half
    obtain ⟨-, hend, e, f, g, i, u, rfl, hcode', hu⟩ := ht.of_half
    simp only [List.cons_append]
    rw [readStringRest_pair _ hcode ⟨hstart, hhigh⟩ hcode' ⟨hlow, hend⟩, ih hu, joinUnits,
      if_pos ⟨hhigh, hlow⟩]
    rfl

/-- A document that is nothing but a string: its characters between quotes, each in any of its
spellings, with gaps around. -/
inductive IsStringDocument (s : String) : String → Prop
  | mk {before inside after : List Char} {us : List StringUnit} :
      IsGap before → IsUnits inside us → IsPaired us → IsGap after → s.toList = joinUnits us →
      IsStringDocument s (String.ofList (before ++ ('"' :: (inside ++ '"' :: after))))

theorem quote_append (s rest : List Char) :
    quote .document s ++ rest = '"' :: (escapeText .document s ++ '"' :: rest) := by
  show '"' :: (escapeText .document s ++ ['"'] ++ rest) = _
  rw [List.append_assoc]
  rfl

theorem readText_quote (s : String) (rest : List Char) :
    readText (quote .document s.toList ++ rest) = .ok (s, rest) := by
  rw [quote_append, readText, skipGap_eq (.cons rfl)]
  show (readStringRest _).map _ = _
  rw [readStringRest_escapeText]
  show Except.ok (String.ofList s.toList, rest) = _
  rw [String.ofList_toList]

/-- The name of the first member is at the front of the text. -/
theorem nextName_first {c : Char} {s : List Char} (hgap : isGap c = false) (hc : c ≠ '\x7d') :
    nextName true (c :: s) = nextName.named (c :: s) := by
  rw [nextName, skipGap_eq (.cons hgap)]
  split
  · next heq => cases heq
  · next heq => exact absurd (List.cons.inj heq).1 hc
  · next heq =>
    obtain ⟨rfl, rfl⟩ := List.cons.inj heq
    rfl

/-- The name of a later member is behind the comma. -/
theorem nextName_comma {c : Char} {s : List Char} (hgap : isGap c = false) (hc : c ≠ '\x7d') :
    nextName false (',' :: c :: s) = nextName.named (c :: s) := by
  rw [nextName, skipGap_eq (.cons rfl)]
  split
  · next heq => cases heq
  · next heq => exact absurd (List.cons.inj heq).1 (by decide)
  next heq =>
  obtain ⟨rfl, rfl⟩ := List.cons.inj heq
  rw [if_neg Bool.false_ne_true, if_pos rfl, skipGap_eq (.cons hgap)]
  split
  · next heq => exact absurd (List.cons.inj heq).1 hc
  · rfl

/-! ## 2. Truth values and whole numbers -/

theorem readBool_boolText (b : Bool) (rest : List Char) :
    readBool (boolText b ++ rest) = .ok (b, rest) := by
  cases b with
  | false => rfl
  | true => rfl

theorem le_foldl_digits (digits : List Char) (n : Nat) :
    n ≤ digits.foldl (fun n c => 10 * n + digitValue c) n := by
  induction digits generalizing n with
  | nil => exact Nat.le_refl n
  | cons c digits ih =>
    have hstep : n ≤ 10 * n + digitValue c := by omega
    exact Nat.le_trans hstep (ih _)

/-- All digits go into the significand of a number that fits. -/
theorem gather_eq {digits : List Char} {n : Nat}
    (h : digits.foldl (fun n c => 10 * n + digitValue c) n ≤ largestWord) :
    gather n digits
      = (digits.foldl (fun n c => 10 * n + digitValue c) n, digits.length) := by
  induction digits generalizing n with
  | nil => rfl
  | cons c digits ih =>
    -- the significand only grows, so what fits in the end has fitted all along
    have hnext : 10 * n + digitValue c ≤ largestWord :=
      Nat.le_trans (le_foldl_digits digits _) h
    rw [gather]
    dsimp only
    rw [if_pos hnext, ih h]
    rfl

theorem gather_digitsOf {n : Nat} (h : n ≤ largestWord) :
    gather 0 (digitsOf n) = (n, (digitsOf n).length) := by
  have hn : (digitsOf n).foldl (fun n c => 10 * n + digitValue c) 0 = n :=
    Decimal.natOfDigits_digitsOf n
  rw [gather_eq (by rw [hn]; exact h), hn]

theorem NoDigit.takeWhile {rest : List Char} (h : NoDigit rest) :
    rest.takeWhile Char.isDigit = [] := by
  cases rest with
  | nil => rfl
  | cons c rest => rw [List.takeWhile_cons, h c rfl]; rfl

theorem NoDigit.dropWhile {rest : List Char} (h : NoDigit rest) :
    rest.dropWhile Char.isDigit = rest := by
  cases rest with
  | nil => rfl
  | cons c rest => rw [List.dropWhile_cons, h c rfl]; rfl

theorem finishNumber_whole (significand : Nat) {rest : List Char} (h : EndsNumber rest) :
    finishNumber false significand 0 rest = .ok (.natural significand, rest) := by
  rw [finishNumber]
  · rfl
  · exact fun s hs => h.point (by rw [hs]; rfl)
  · exact fun s hs => h.lower (by rw [hs]; rfl)
  · exact fun s hs => h.upper (by rw [hs]; rfl)

theorem readNumber_zero {rest : List Char} (h : EndsNumber rest) :
    readNumber false ('0' :: rest) = .ok (.natural 0, rest) := by
  cases rest with
  | nil => rfl
  | cons c rest =>
    rw [readNumber, h.digit c rfl]
    exact finishNumber_whole 0 h

theorem readNumber_digitsOf {n : Nat} (hn : n ≤ largestWord) {rest : List Char}
    (h : EndsNumber rest) : readNumber false (digitsOf n ++ rest) = .ok (.natural n, rest) := by
  have hdigits := Decimal.isDigits_digitsOf n
  have hgather := gather_digitsOf hn
  have hhead := Decimal.head?_digitsOf n
  obtain ⟨c, digits, hd⟩ := List.exists_cons_of_ne_nil hdigits.1
  by_cases hz : c = '0'
  · subst hz
    obtain rfl := hhead (by rw [hd]; rfl)
    exact readNumber_zero h
  rw [hd] at hdigits hgather ⊢
  have hc : c.isDigit = true := hdigits.2 c List.mem_cons_self
  have hrest : ∀ d ∈ digits, d.isDigit = true := fun d hmem =>
    hdigits.2 d (List.mem_cons_of_mem c hmem)
  rw [List.cons_append, readNumber, hc]
  · dsimp only
    rw [List.takeWhile_append_of_pos hrest, List.dropWhile_append_of_pos hrest,
      h.digit.takeWhile, h.digit.dropWhile, List.append_nil, hgather]
    dsimp only
    rw [Nat.sub_self]
    exact finishNumber_whole n h
  · exact hz

theorem readNat_digitsOf {n : Nat} (hn : n ≤ largestWord) {rest : List Char} (h : EndsNumber rest) :
    readNat (digitsOf n ++ rest) = .ok (n, rest) := by
  have hread := readNumber_digitsOf hn h
  have hdigits := Decimal.isDigits_digitsOf n
  obtain ⟨c, digits, hd⟩ := List.exists_cons_of_ne_nil hdigits.1
  have hc : c.isDigit = true := hdigits.2 c (by rw [hd]; exact List.mem_cons_self)
  have hgap : isGap c = false := by
    rw [Bool.eq_false_iff]
    intro hg
    simp only [isGap, Bool.or_eq_true, decide_eq_true_eq] at hg
    rcases hg with ((rfl | rfl) | rfl) | rfl <;> cases hc
  have hminus : c ≠ '-' := by
    rintro rfl
    cases hc
  rw [hd, List.cons_append] at hread ⊢
  rw [readNat, skipGap_eq (.cons hgap)]
  split
  · next heq => cases heq
  · next heq => exact absurd (List.cons.inj heq).1 hminus
  · next heq =>
    cases heq
    rw [hc, hread]
    rfl

/-! ## 3. What numbers are read -/

/-- A number that is not below zero and whole has at most 64 bits. -/
def Number.Fits : Number → Prop
  | natural n => n ≤ largestWord
  | negative _ | float _ => True

theorem gather_le {n : Nat} (h : n ≤ largestWord) (digits : List Char) :
    (gather n digits).1 ≤ largestWord := by
  induction digits generalizing n with
  | nil => exact h
  | cons c digits ih =>
    rw [gather]
    dsimp only
    split
    · next hnext => exact ih hnext
    · exact h

section Fits

variable {negative : Bool} {significand : Nat} {number : Number} {s rest : List Char}

theorem readExponent_fits {start : Int}
    (h : readExponent negative significand start s = .ok (number, rest)) : number.Fits := by
  unfold readExponent at h
  split at h
  next below digits _ =>
  split at h
  · cases h
  dsimp only at h
  split at h
  · cases h
  split at h
  · split at h
    · cases h
    · cases h
      trivial
  · split at h
    · cases h
      trivial
    · cases h

theorem finishFloat_fits {exponent : Int}
    (h : finishFloat negative significand exponent s = .ok (number, rest)) : number.Fits := by
  unfold finishFloat at h
  split at h
  · exact readExponent_fits h
  · exact readExponent_fits h
  · split at h
    · cases h
      trivial
    · cases h

theorem readFraction_fits {start : Int}
    (h : readFraction negative significand start s = .ok (number, rest)) : number.Fits := by
  unfold readFraction at h
  dsimp only at h
  split at h
  · cases h
  · exact finishFloat_fits h

theorem finishNumber_fits {dropped : Nat} (hs : significand ≤ largestWord)
    (h : finishNumber negative significand dropped s = .ok (number, rest)) : number.Fits := by
  unfold finishNumber at h
  split at h
  · exact readFraction_fits h
  · exact readExponent_fits h
  · exact readExponent_fits h
  split at h
  · exact finishFloat_fits h
  split at h
  · cases h
    exact hs
  split at h
  · cases h
    trivial
  · cases h
    trivial

theorem readNumber_fits (h : readNumber negative s = .ok (number, rest)) : number.Fits := by
  unfold readNumber at h
  split at h
  · cases h
  · split at h
    · split at h
      · cases h
      · exact finishNumber_fits (Nat.zero_le _) h
    · exact finishNumber_fits (Nat.zero_le _) h
  · next c digits _ =>
    split at h
    · cases h
    · have hle := gather_le (Nat.zero_le largestWord) (c :: digits.takeWhile Char.isDigit)
      dsimp only at h
      obtain ⟨significand, used⟩ := gather 0 (c :: digits.takeWhile Char.isDigit)
      exact finishNumber_fits hle h

end Fits

theorem Number.toNat_le {number : Number} {n : Nat} (hf : number.Fits)
    (h : number.toNat = .ok n) : n ≤ largestWord := by
  cases number with
  | natural m =>
    cases h
    exact hf
  | negative m => cases h
  | float bits => cases h

theorem le_of_readNumber {negative : Bool} {s rest : List Char} {n : Nat}
    (h : (do
      let (number, rest) ← readNumber negative s
      return (← number.toNat, rest)) = (.ok (n, rest) : Except Error (Nat × List Char))) :
    n ≤ largestWord := by
  cases hread : readNumber negative s with
  | error e =>
    rw [hread] at h
    cases h
  | ok taken =>
    obtain ⟨number, after⟩ := taken
    rw [hread] at h
    cases hn : number.toNat with
    | error e =>
      simp only [bind, Except.bind, hn] at h
      cases h
    | ok m =>
      simp only [bind, Except.bind, hn] at h
      cases h
      exact number.toNat_le (readNumber_fits hread) hn

theorem le_largestWord_of_readNat {s rest : List Char} {n : Nat} (h : readNat s = .ok (n, rest)) :
    n ≤ largestWord := by
  unfold readNat at h
  split at h
  · cases h
  · exact le_of_readNumber h
  · next c t hminus heq =>
    cases hc : c.isDigit with
    | false =>
      rw [hc] at h
      cases h
    | true =>
      rw [hc] at h
      exact le_of_readNumber h

end Logbook.Json
