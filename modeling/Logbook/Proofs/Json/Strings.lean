import Logbook.Proofs.Json.Escaping
import Logbook.Proofs.Line.Unbroken
import Logbook.Proofs.Text.Runs

/-!
# Strings in bytes

A reader of lines has bytes in front of it, not characters: it takes a string byte by byte, stops at
the first quote that no backslash precedes, and refuses control bytes and bytes that are no
characters. What the escapes write is read in this way up to the quote that was put after it, and no
further, whatever stands before and after it.

Results:
1. `isPlainByte_iff`: which characters stand for themselves can be seen from their first bytes.
2. `takeBytes_encode`: the inside of a string, read from its bytes.
3. `encode_escapeText`: the escapes of a text, found byte by byte.
4. `isPlain_of_takeBytes`: only what needs no escape is read as it stands.
5. `escaped_reads_back`: escaped bytes and quoted texts, read from anywhere inside a buffer.
-/

namespace Logbook.Json

open Utf8 (Piece)

/-! ## 1. A reader -/

/-- A byte as the letter that it is by itself. -/
def letter (b : UInt8) : Char := Char.ofNat b.toNat

/-- The escape behind a backslash, with the number of its bytes. -/
def escapeAt : Bytes → Option (StringUnit × Nat)
  | [] => none
  | e :: s =>
    if e = 0x75 then
      match s with
      | x :: y :: z :: w :: _ =>
        (hexValue4? (letter x) (letter y) (letter z) (letter w)).map fun n => (.ofCode n, 5)
      | _ => none
    else (unescape? (letter e)).map fun c => (.char c, 1)

/-- The unit at the front of `a :: rest`, with the number of its bytes after the first. -/
def unitAt (a : UInt8) (rest : Bytes) : Option (StringUnit × Nat) :=
  if a = 0x5C then escapeAt rest
  else if a < 0x20 then none
  else
    match Utf8.front a rest with
    | .char c more => some (.char c, more)
    | .broken _ => none

/-- Takes the rest of a string whose opening quote has been taken; `skip` bytes at the front belong
to the unit before them. -/
def takeBytes : Nat → Bytes → Option (List StringUnit × Bytes)
  | _, [] => none
  | n + 1, _ :: rest => takeBytes n rest
  | 0, a :: rest =>
    if a = 0x22 then some ([], rest)
    else
      match unitAt a rest with
      | some (u, more) => (takeBytes more rest).map fun (us, left) => (u :: us, left)
      | none => none

/-- The text of a string whose opening quote has been taken, and the bytes after its end. -/
def takeText (bytes : Bytes) : Option (List Char × Bytes) :=
  (takeBytes 0 bytes).map fun (us, rest) => (joinUnits us, rest)

/-- The text of a string, and the bytes after its end. -/
def takeQuoted : Bytes → Option (List Char × Bytes)
  | 0x22 :: bytes => takeText bytes
  | _ => none

/-! ## 2. Bytes that stand for themselves -/

/-- A byte that stands for itself inside a string. -/
def IsPlainByte (b : UInt8) : Prop := 0x20 ≤ b ∧ b ≠ 0x22 ∧ b ≠ 0x5C

instance (b : UInt8) : Decidable (IsPlainByte b) :=
  inferInstanceAs (Decidable (0x20 ≤ b ∧ b ≠ 0x22 ∧ b ≠ 0x5C))

theorem toNat_letter (b : UInt8) : (letter b).toNat = b.toNat :=
  Utf8.toNat_charOfNat (.inl (Nat.lt_trans b.toNat_lt (by decide)))

theorem letter_inj {b b' : UInt8} : letter b = letter b' ↔ b = b' := by
  refine ⟨fun h => ?_, congrArg letter⟩
  rw [← UInt8.toNat_inj, ← toNat_letter, h, toNat_letter]

theorem isPlain_letter (b : UInt8) : IsPlain (letter b) ↔ IsPlainByte b := by
  have hlow : 0x20 ≤ (letter b).toNat ↔ 0x20 ≤ b := by
    rw [toNat_letter, UInt8.le_iff_toNat_le]
    rfl
  have hquote : letter b = '"' ↔ b = 0x22 := @letter_inj b 0x22
  have hslash : letter b = '\\' ↔ b = 0x5C := @letter_inj b 0x5C
  rw [IsPlain, IsPlainByte, hlow, ne_eq, hquote, ne_eq, hslash]

/-- A character below U+0080 is the byte with its code. -/
theorem encodeChar_ascii {c : Char} (h : c.toNat < 0x80) :
    ∃ b, String.utf8EncodeChar c = [b] ∧ letter b = c := by
  have hv : c.val.toNat = c.toNat := rfl
  refine ⟨UInt8.ofNat c.toNat, ?_, ?_⟩
  · rw [String.utf8EncodeChar, hv, if_pos (by omega)]
  · rw [letter, Utf8.toNat_ofNat (by omega), Char.ofNat_toNat]

theorem isPlain_high {c : Char} (h : 0x80 ≤ c.toNat) : IsPlain c :=
  ⟨Nat.le_trans (by decide) h, fun he => absurd h (he ▸ by decide),
    fun he => absurd h (he ▸ by decide)⟩

theorem isPlainByte_high {b : UInt8} (h : 0x80 ≤ b.toNat) : IsPlainByte b :=
  ⟨UInt8.le_iff_toNat_le.2 (Nat.le_trans (by decide) h), fun he => absurd h (he ▸ by decide),
    fun he => absurd h (he ▸ by decide)⟩

/-- No byte of a longer character is a quote, a backslash or a control byte. -/
theorem isPlainByte_of_mem {c : Char} (h : 0x80 ≤ c.toNat) :
    ∀ b ∈ String.utf8EncodeChar c, IsPlainByte b := fun b hb =>
  isPlainByte_high (Utf8.encodeChar_ge (Nat.le_refl 0x80) h b hb)

/-- Whether a character stands for itself can be seen from its first byte. -/
theorem isPlainByte_iff {c : Char} {a : UInt8} {tail : Bytes}
    (h : String.utf8EncodeChar c = a :: tail) : IsPlainByte a ↔ IsPlain c := by
  rcases Nat.lt_or_ge c.toNat 0x80 with hlow | hhigh
  · obtain ⟨b, hb, rfl⟩ := encodeChar_ascii hlow
    rw [hb] at h
    cases h
    exact (isPlain_letter a).symm
  · have hmem : a ∈ String.utf8EncodeChar c := by
      rw [h]
      exact List.mem_cons_self
    exact iff_of_true (isPlainByte_of_mem hhigh a hmem) (isPlain_high hhigh)

/-! ## 3. Reading a string -/

theorem takeBytes_skip (tail rest : Bytes) :
    takeBytes tail.length (tail ++ rest) = takeBytes 0 rest := by
  induction tail with
  | nil => rfl
  | cons _ tail ih => exact ih

/-- A hexadecimal digit is a character of one byte. -/
theorem hexValue?_ascii {c : Char} {n : Nat} (h : hexValue? c = some n) : c.toNat < 0x80 := by
  simp only [hexValue?, Char.isDigit, Bool.and_eq_true, decide_eq_true_eq, Char.le_def,
    UInt32.le_iff_toNat_le] at h
  have hv : c.val.toNat = c.toNat := rfl
  split at h
  next hd => exact Nat.lt_of_le_of_lt hd.2 (by decide)
  split at h
  next ha => exact Nat.lt_of_le_of_lt ha.2 (by decide)
  split at h
  next hA => exact Nat.lt_of_le_of_lt hA.2 (by decide)
  · cases h

theorem hexValue4?_ascii {a b c d : Char} {n : Nat} (h : hexValue4? a b c d = some n) :
    a.toNat < 0x80 ∧ b.toNat < 0x80 ∧ c.toNat < 0x80 ∧ d.toNat < 0x80 := by
  simp only [hexValue4?, Option.bind_eq_bind, Option.bind_eq_some_iff] at h
  obtain ⟨_, ha, _, hb, _, hc, _, hd, _⟩ := h
  exact ⟨hexValue?_ascii ha, hexValue?_ascii hb, hexValue?_ascii hc, hexValue?_ascii hd⟩

theorem unescape?_ascii {e c : Char} (h : unescape? e = some c) : e.toNat < 0x80 ∧ e ≠ 'u' := by
  unfold unescape? at h
  split at h <;> first | exact ⟨by decide, by decide⟩ | cases h

/-- A unit in front of bytes, and what is taken after it. -/
theorem takeBytes_unit {a : UInt8} (tail : Bytes) {rest left : Bytes} {u : StringUnit}
    {us : List StringUnit} (ha : a ≠ 0x22) (hu : unitAt a (tail ++ rest) = some (u, tail.length))
    (h : takeBytes 0 rest = some (us, left)) :
    takeBytes 0 (a :: tail ++ rest) = some (u :: us, left) := by
  rw [List.cons_append, takeBytes, if_neg ha, hu]
  simp only [takeBytes_skip, h, Option.map_some]

theorem takeBytes_encode {s : List Char} {us : List StringUnit} (h : IsUnits s us) (rest : Bytes) :
    takeBytes 0 (Utf8.encode s ++ 0x22 :: rest) = some (us, rest) := by
  induction h with
  | nil => rfl
  | @plain c s us hlow hquote hslash _ ih =>
    obtain ⟨a, tail, he, hf⟩ := Utf8.front_encodeChar c
    have hfront := hf (Utf8.encode s ++ 0x22 :: rest)
    obtain ⟨ha, hquote, hslash⟩ := (isPlainByte_iff he).2 ⟨hlow, hquote, hslash⟩
    rw [Utf8.encode_cons, he, List.append_assoc]
    refine takeBytes_unit tail hquote ?_ ih
    rw [unitAt, if_neg hslash, if_neg (UInt8.not_lt.2 ha), hfront]
  | @escape e c s us he _ ih =>
    obtain ⟨hlt, hne⟩ := unescape?_ascii he
    obtain ⟨b, hb, hl⟩ := encodeChar_ascii hlt
    have hu : b ≠ 0x75 := fun h => hne (hl.symm.trans (h ▸ rfl))
    rw [Utf8.encode_cons, Utf8.encode_cons, hb]
    refine takeBytes_unit (a := 0x5C) [b] (by decide) ?_ ih
    rw [unitAt, if_pos rfl, List.cons_append, escapeAt.eq_def]
    simp only [if_neg hu, hl, he, Option.map_some, List.length_singleton]
  | @code a b c d n s us hn _ ih =>
    obtain ⟨ha, hb, hc, hd⟩ := hexValue4?_ascii hn
    obtain ⟨x, hx, hlx⟩ := encodeChar_ascii ha
    obtain ⟨y, hy, hly⟩ := encodeChar_ascii hb
    obtain ⟨z, hz, hlz⟩ := encodeChar_ascii hc
    obtain ⟨w, hw, hlw⟩ := encodeChar_ascii hd
    simp only [Utf8.encode_cons, hx, hy, hz, hw]
    refine takeBytes_unit (a := 0x5C) [0x75, x, y, z, w] (by decide) ?_ ih
    rw [unitAt, if_pos rfl]
    simp only [List.cons_append, escapeAt, hlx, hly, hlz, hlw, hn, Option.map_some, if_true]
    rfl

/-- The text of a string, read from its bytes up to its end. -/
theorem takeText_encode {s t : List Char} (h : IsUnits s (t.map .char)) (rest : Bytes) :
    takeText (Utf8.encode s ++ 0x22 :: rest) = some (t, rest) := by
  rw [takeText, takeBytes_encode h]
  exact congrArg (fun s => some (s, rest)) (joinUnits_chars t)

/-! ## 4. Escapes, byte by byte -/

/-- A byte of a text, escaped without looking at the bytes around it. -/
def escapeByte (b : UInt8) : Bytes :=
  if IsPlainByte b then [b] else Utf8.encode (escapeChar .line (letter b))

theorem letter?_line {c : Char} (h : 0x20 ≤ c.toNat) : Letters.line.letter? c = none := by
  simp only [Letters.line]
  split
  · exact absurd h (by decide)
  · exact absurd h (by decide)
  · exact absurd h (by decide)
  · rfl

theorem escapeChar_plain {c : Char} (h : IsPlain c) : escapeChar .line c = [c] := by
  obtain ⟨hlow, hquote, hslash⟩ := h
  simp only [escapeChar, hquote, hslash, letter?_line hlow, decide_false, Bool.or_self,
    Bool.false_eq_true, if_false]
  exact if_neg (Nat.not_lt.2 hlow)

theorem encode_escapeChar (c : Char) :
    Utf8.encode (escapeChar .line c) = (String.utf8EncodeChar c).flatMap escapeByte := by
  have hself (hp : IsPlain c) : Utf8.encode (escapeChar .line c) = String.utf8EncodeChar c := by
    rw [escapeChar_plain hp, Utf8.encode_cons]
    exact List.append_nil _
  rcases Nat.lt_or_ge c.toNat 0x80 with hlow | hhigh
  · obtain ⟨b, hb, rfl⟩ := encodeChar_ascii hlow
    rw [hb, List.flatMap_singleton, escapeByte]
    split
    next hp => rw [hself ((isPlain_letter b).2 hp), hb]
    next => rfl
  · have hb (b : UInt8) (hmem : b ∈ String.utf8EncodeChar c) : escapeByte b = [b] :=
      if_pos (isPlainByte_of_mem hhigh b hmem)
    rw [hself (isPlain_high hhigh), List.flatMap_congr hb, List.flatMap_singleton']

/-- No byte of a longer character is taken for a quote, a backslash or a control character: a text
can be escaped in its bytes. -/
theorem encode_escapeText (s : List Char) :
    Utf8.encode (escapeText .line s) = (Utf8.encode s).flatMap escapeByte := by
  induction s with
  | nil => rfl
  | cons c s ih =>
    rw [Utf8.encode_cons, List.flatMap_append, ← encode_escapeChar, ← ih, ← Utf8.encode_append]
    rfl

/-! ## 5. Texts that are read as they stand -/

/-- The bytes that a unit stands for, at most. -/
def StringUnit.size : StringUnit → Nat
  | .char c => (String.utf8EncodeChar c).length
  | .half _ => 3

theorem encodeChar_length_le (c : Char) : (String.utf8EncodeChar c).length ≤ 4 := by
  rw [String.length_utf8EncodeChar]
  exact c.utf8Size_le_four

theorem joinUnits_length_le (us : List StringUnit) :
    (Utf8.encode (joinUnits us)).length ≤ (us.map StringUnit.size).sum := by
  have hone (c : Char) (s : List Char) : (Utf8.encode (c :: s)).length =
      (String.utf8EncodeChar c).length + (Utf8.encode s).length := by
    rw [Utf8.encode_cons, List.length_append]
  have hhalf : (String.utf8EncodeChar '\uFFFD').length = 3 := by decide
  fun_induction joinUnits us with
  | case1 => exact Nat.le_refl _
  | case2 c rest ih =>
    rw [hone, List.map_cons, List.sum_cons]
    exact Nat.add_le_add_left ih _
  | case3 high low rest hpair ih =>
    have hchar := encodeChar_length_le (pairedChar high low)
    simp only [hone, List.map_cons, List.sum_cons, StringUnit.size]
    omega
  | case4 high low rest hpair ih =>
    rw [hone, hhalf, List.map_cons, List.sum_cons]
    exact Nat.add_le_add_left ih _
  | case5 code rest hrest ih =>
    rw [hone, hhalf, List.map_cons, List.sum_cons]
    exact Nat.add_le_add_left ih _

theorem size_unescape? {e c : Char} (h : unescape? e = some c) : (StringUnit.char c).size = 1 := by
  unfold unescape? at h
  split at h <;> first | (cases h; rfl) | cases h

/-- An escape is longer than what it stands for, by the backslash at least. -/
theorem escapeAt_size {s : Bytes} {u : StringUnit} {more : Nat} (h : escapeAt s = some (u, more)) :
    u.size ≤ more := by
  have hcode (n : Nat) : (StringUnit.ofCode n).size ≤ 4 := by
    unfold StringUnit.ofCode
    split
    · exact Nat.le_succ 3
    · exact encodeChar_length_le _
  unfold escapeAt at h
  split at h
  · cases h
  split at h
  · split at h
    · obtain ⟨n, -, hn⟩ := Option.map_eq_some_iff.1 h
      cases hn
      exact Nat.le_succ_of_le (hcode n)
    · cases h
  · obtain ⟨c, hc, hu⟩ := Option.map_eq_some_iff.1 h
    cases hu
    exact Nat.le_of_eq (size_unescape? hc)

theorem unitAt_size {a : UInt8} {rest : Bytes} {u : StringUnit} {more : Nat}
    (h : unitAt a rest = some (u, more)) : u.size ≤ more + 1 := by
  unfold unitAt at h
  split at h
  · exact Nat.le_succ_of_le (escapeAt_size h)
  split at h
  · cases h
  split at h
  · next c more' hf =>
    cases h
    obtain ⟨tail, -, -, rfl, he⟩ := Utf8.front_sound hf
    rw [StringUnit.size, he, List.length_cons]
  · cases h

/-- What a string stands for has no more bytes than were taken. -/
theorem takeBytes_length_le {skip : Nat} {bytes left : Bytes} {us : List StringUnit}
    (h : takeBytes skip bytes = some (us, left)) :
    skip + (us.map StringUnit.size).sum + 1 + left.length ≤ bytes.length := by
  induction bytes generalizing skip us with
  | nil => cases skip <;> cases h
  | cons a rest ih =>
    cases skip with
    | succ skip =>
      have hle := ih h
      rw [List.length_cons]
      omega
    | zero =>
      rw [takeBytes] at h
      split at h
      · cases h
        simp only [List.map_nil, List.sum_nil, List.length_cons]
        omega
      split at h
      · next u more hu =>
        obtain ⟨⟨us', left'⟩, hrest, he⟩ := Option.map_eq_some_iff.1 h
        cases he
        have hle := ih hrest
        have hsize := unitAt_size hu
        rw [List.map_cons, List.sum_cons, List.length_cons]
        omega
      · cases h

/-- A text in quotes that is read as it stands has nothing in it that needs an escape. -/
theorem isPlain_of_takeBytes {s : List Char} {rest : Bytes} {us : List StringUnit}
    (h : takeBytes 0 (Utf8.encode s ++ 0x22 :: rest) = some (us, rest)) (hs : joinUnits us = s) :
    ∀ c ∈ s, IsPlain c := by
  induction s generalizing us with
  | nil => exact fun c hc => absurd hc List.not_mem_nil
  | cons c s ih =>
    obtain ⟨a, tail, he, hf⟩ := Utf8.front_encodeChar c
    have hfront := hf (Utf8.encode s ++ 0x22 :: rest)
    have hlength : (Utf8.encode (c :: s)).length = tail.length + 1 + (Utf8.encode s).length := by
      rw [Utf8.encode_cons, he, List.length_append, List.length_cons]
    rw [Utf8.encode_cons, he, List.append_assoc, List.cons_append, takeBytes] at h
    split at h
    · -- a quote ends the string, so it stands for nothing
      have hus := (Prod.mk.inj (Option.some.inj h)).1
      rw [← hus] at hs
      cases hs
    next hquote =>
    split at h
    · next u more hu =>
      obtain ⟨⟨us', left⟩, hrest, hus⟩ := Option.map_eq_some_iff.1 h
      cases hus
      unfold unitAt at hu
      split at hu
      · -- a backslash leaves too few bytes for the whole text
        have hle := takeBytes_length_le hrest
        have hsize := escapeAt_size hu
        have hjoined := joinUnits_length_le (u :: us')
        rw [hs, hlength, List.map_cons, List.sum_cons] at hjoined
        simp only [List.length_append, List.length_cons] at hle
        omega
      next hslash =>
      split at hu
      · cases hu
      next hlow =>
      rw [hfront] at hu
      cases hu
      rw [takeBytes_skip] at hrest
      have hplain : IsPlain c := (isPlainByte_iff he).1 ⟨UInt8.not_lt.1 hlow, hquote, hslash⟩
      have hjoined : joinUnits us' = s := (List.cons.inj hs).2
      exact fun d hd => (List.mem_cons.1 hd).elim (fun h => h ▸ hplain) (ih hrest hjoined d)
    · cases h

/-! ## 6. Reading back what was escaped -/

/-- Bytes that are a text are escaped as the text. -/
theorem escapeBytes_encode (s : List Char) :
    escapeBytes .line (Utf8.encode s) = escapeText .line s := by
  have hp := Utf8.pieces_encode_append s []
  rw [List.append_nil] at hp
  rw [escapeBytes, hp, show Utf8.pieces [] = [] from rfl, List.append_nil, List.flatMap_map]
  rfl

/-- A quoted text ends where it was ended. -/
theorem takeQuoted_quote (s : List Char) (rest : Bytes) :
    takeQuoted (Utf8.encode (quote .line s) ++ rest) = some (s, rest) := by
  have hq : Utf8.encode (quote .line s) ++ rest =
      0x22 :: (Utf8.encode (escapeText .line s) ++ 0x22 :: rest) := by
    rw [quote, List.cons_append, Utf8.encode_cons, Utf8.encode_append]
    simp only [List.append_assoc]
    rfl
  rw [hq]
  exact takeText_encode (isUnits_escapeText s) rest

/-- What is written for bytes is a text without a control byte, and what is written for a text is
the same by either way. A reader that begins where the buffer ended reads runs of characters as they
are and U+FFFD for each byte between them, and stops at the quote put after it. A quoted text is
therefore known by its bytes, and by the first of them. -/
theorem escaped_reads_back (buffer bytes rest : Bytes) (s : List Char) :
    (Unbroken (Utf8.encode (escapeBytes .line bytes)) ∧
      (∃! ps, Utf8.Parted bytes ps) ∧
      ∀ ps, Utf8.Parted bytes ps →
        takeText ((buffer ++ Utf8.encode (escapeBytes .line bytes) ++ 0x22 :: rest).drop
          buffer.length) = some (ps.map pieceChar, rest)) ∧
    escapeBytes .line (Utf8.encode s) = escapeText .line s ∧
    takeQuoted ((buffer ++ Utf8.encode (quote .line s) ++ rest).drop buffer.length) =
      some (s, rest) ∧
    ∀ t later, Utf8.encode (quote .line s) ++ rest = Utf8.encode (quote .line t) ++ later →
      s = t ∧ rest = later := by
  refine ⟨⟨unbroken_encode (noControl_escapeBytes bytes), ?_, ?_⟩, escapeBytes_encode s, ?_, ?_⟩
  · exact ⟨Utf8.pieces bytes, Utf8.parted_iff.2 rfl, fun ps h => Utf8.parted_iff.1 h⟩
  · intro ps hps
    rw [List.append_assoc, List.drop_left, Utf8.parted_iff.1 hps]
    exact takeText_encode (isUnits_escapeBytes bytes) rest
  · rw [List.append_assoc, List.drop_left]
    exact takeQuoted_quote s rest
  · intro t later h
    have hs := takeQuoted_quote s rest
    rw [h, takeQuoted_quote t later] at hs
    exact ⟨(Prod.mk.inj (Option.some.inj hs)).1.symm, (Prod.mk.inj (Option.some.inj hs)).2.symm⟩

end Logbook.Json
