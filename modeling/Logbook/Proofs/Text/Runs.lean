import Logbook.Proofs.Text.Utf8

/-!
# Runs of characters in bytes

Bytes that need not be a text hold runs of characters, and between them stretches in which no
character is encoded. `Utf8.pieces` takes the bytes apart in just this way. That it can go from left
to right rests on two facts: what is taken for a character is one, and the first byte of a character
never continues another, so that the characters in bytes do not overlap.

Results:
1. `front_sound`: what is recognised at the front of bytes stands there.
2. `pieces_append`: bytes are taken apart the same way whatever begins after them.
3. `parted_iff`: `pieces` is the row of runs and stretches that the bytes are.
-/

namespace Logbook.Utf8

/-! ## 1. What is recognised -/

theorem isTail_of_isSecond {lead b : UInt8} (h : isSecond lead b = true) : isTail b = true := by
  simp only [isSecond, isTail, ← UInt8.toNat_inj, UInt8.le_iff_toNat_le, UInt8.reduceToNat] at h ⊢
  split at h
  · simp only [Bool.and_eq_true, decide_eq_true_eq] at h ⊢
    omega
  split at h
  · simp only [Bool.and_eq_true, decide_eq_true_eq] at h ⊢
    omega
  split at h
  · simp only [Bool.and_eq_true, decide_eq_true_eq] at h ⊢
    omega
  split at h
  · simp only [Bool.and_eq_true, decide_eq_true_eq] at h ⊢
    omega
  · exact h

theorem isTail_bounds {b : UInt8} (h : isTail b = true) : 0x80 ≤ b.toNat ∧ b.toNat ≤ 0xBF := by
  simpa only [isTail, Bool.and_eq_true, decide_eq_true_eq, UInt8.le_iff_toNat_le,
    UInt8.reduceToNat] using h

/-- The bounds of a second byte, which keep out surrogates, values too large and encodings longer
than needed. -/
theorem isSecond_bounds {lead b : UInt8} (h : isSecond lead b = true) :
    (lead.toNat = 0xE0 → 0xA0 ≤ b.toNat) ∧ (lead.toNat = 0xED → b.toNat ≤ 0x9F) ∧
      (lead.toNat = 0xF0 → 0x90 ≤ b.toNat) ∧ (lead.toNat = 0xF4 → b.toNat ≤ 0x8F) := by
  simp only [isSecond, isTail, ← UInt8.toNat_inj, UInt8.le_iff_toNat_le, UInt8.reduceToNat] at h
  refine ⟨fun he => ?_, fun he => ?_, fun he => ?_, fun he => ?_⟩ <;>
    simp only [he] at h <;> simp at h <;> omega

/-- The code of a character, when it is one of a character. -/
theorem toNat_charOfNat {n : Nat} (h : n < 0xD800 ∨ 0xDFFF < n ∧ n < 0x110000) :
    (Char.ofNat n).val.toNat = n := by
  rw [Char.ofNat, dif_pos (show n.isValidChar from h)]
  rfl

theorem byte_eq {b : UInt8} {n : Nat} (h : n = b.toNat) : UInt8.ofNat n = b := by
  rw [h, UInt8.ofNat_toNat]

theorem front2_sound {a : UInt8} {rest : Bytes} {c : Char} {more : Nat} (hlow : 0xC2 ≤ a.toNat)
    (hhigh : a.toNat ≤ 0xDF) (h : front2 a rest = .char c more) :
    ∃ tail after, rest = tail ++ after ∧ tail.length = more ∧
      String.utf8EncodeChar c = a :: tail := by
  match rest, h with
  | b :: rest, h =>
    simp only [front2] at h
    split at h <;> cases h
    next hb =>
      have htail := isTail_bounds (isTail_of_isSecond hb)
      refine ⟨[b], rest, rfl, rfl, ?_⟩
      rw [String.utf8EncodeChar, toNat_charOfNat (by simp only [tailBits]; omega), tailBits]
      rw [if_neg (by omega), if_pos (by omega), byte_eq (b := a) (by omega),
        byte_eq (b := b) (by omega)]

theorem front3_sound {a : UInt8} {rest : Bytes} {c : Char} {more : Nat} (hlow : 0xE0 ≤ a.toNat)
    (hhigh : a.toNat ≤ 0xEF) (h : front3 a rest = .char c more) :
    ∃ tail after, rest = tail ++ after ∧ tail.length = more ∧
      String.utf8EncodeChar c = a :: tail := by
  match rest, h with
  | [b], h => simp only [front3] at h; split at h <;> cases h
  | b :: d :: rest, h =>
    simp only [front3] at h
    split at h
    next hb =>
      split at h <;> cases h
      next hd =>
        have hb' := isTail_bounds (isTail_of_isSecond hb)
        have hd' := isTail_bounds hd
        have hsecond := isSecond_bounds hb
        refine ⟨[b, d], rest, rfl, rfl, ?_⟩
        rw [String.utf8EncodeChar, toNat_charOfNat (by simp only [tailBits]; omega), tailBits,
          tailBits]
        rw [if_neg (by omega), if_neg (by omega), if_pos (by omega), byte_eq (b := a) (by omega),
          byte_eq (b := b) (by omega), byte_eq (b := d) (by omega)]
    next => cases h

theorem front4_sound {a : UInt8} {rest : Bytes} {c : Char} {more : Nat} (hlow : 0xF0 ≤ a.toNat)
    (hhigh : a.toNat ≤ 0xF4) (h : front4 a rest = .char c more) :
    ∃ tail after, rest = tail ++ after ∧ tail.length = more ∧
      String.utf8EncodeChar c = a :: tail := by
  match rest, h with
  | [b], h => simp only [front4] at h; split at h <;> cases h
  | [b, d], h =>
    simp only [front4] at h
    split at h
    · split at h <;> cases h
    · cases h
  | b :: d :: e :: rest, h =>
    simp only [front4] at h
    split at h
    next hb =>
      split at h
      next hd =>
        split at h <;> cases h
        next he =>
          have hb' := isTail_bounds (isTail_of_isSecond hb)
          have hd' := isTail_bounds hd
          have he' := isTail_bounds he
          have hsecond := isSecond_bounds hb
          refine ⟨[b, d, e], rest, rfl, rfl, ?_⟩
          rw [String.utf8EncodeChar, toNat_charOfNat (by simp only [tailBits]; omega), tailBits,
            tailBits, tailBits]
          rw [if_neg (by omega), if_neg (by omega), if_neg (by omega), byte_eq (b := a) (by omega),
            byte_eq (b := b) (by omega), byte_eq (b := d) (by omega), byte_eq (b := e) (by omega)]
      next => cases h
    next => cases h

/-- What is recognised as a character at the front of bytes are the bytes of that character. -/
theorem front_sound {a : UInt8} {rest : Bytes} {c : Char} {more : Nat}
    (h : front a rest = .char c more) :
    ∃ tail after, rest = tail ++ after ∧ tail.length = more ∧
      String.utf8EncodeChar c = a :: tail := by
  simp only [front, UInt8.le_iff_toNat_le, UInt8.lt_iff_toNat_lt, UInt8.reduceToNat] at h
  split at h
  next hone =>
    cases h
    refine ⟨[], rest, rfl, rfl, ?_⟩
    rw [String.utf8EncodeChar, toNat_charOfNat (by omega), if_pos (by omega), UInt8.ofNat_toNat]
  split at h
  · cases h
  split at h
  · exact front2_sound (by omega) (by omega) h
  split at h
  · exact front3_sound (by omega) (by omega) h
  split at h
  · exact front4_sound (by omega) (by omega) h
  · cases h

/-! ## 2. Characters do not overlap -/

/-- The first byte of a character continues no other. -/
theorem isTail_of_front {a : UInt8} {rest : Bytes} {c : Char} {more : Nat}
    (h : front a rest = .char c more) : isTail a = false := by
  refine Bool.eq_false_iff.2 fun htail => ?_
  have hb := isTail_bounds htail
  simp only [front, UInt8.le_iff_toNat_le, UInt8.lt_iff_toNat_lt, UInt8.reduceToNat] at h
  rw [if_neg (by omega), if_pos (by omega)] at h
  cases h

/-- Where a character is expected to go on, a byte that continues none is as good as the end. -/
theorem front_append (a : UInt8) (rest : Bytes) {x : UInt8} (more : Bytes)
    (hx : isTail x = false) : front a (rest ++ x :: more) = front a rest := by
  have hsecond : isSecond a x = false :=
    Bool.eq_false_iff.2 fun h => Bool.eq_false_iff.1 hx (isTail_of_isSecond h)
  have h2 : front2 a (rest ++ x :: more) = front2 a rest := by
    rcases rest with _ | ⟨b, rest⟩
    · simp [front2, hsecond]
    · rfl
  have h3 : front3 a (rest ++ x :: more) = front3 a rest := by
    rcases rest with _ | ⟨b, _ | ⟨d, rest⟩⟩
    · cases more <;> simp [front3, hsecond]
    · simp [front3, hx]
    · rfl
  have h4 : front4 a (rest ++ x :: more) = front4 a rest := by
    rcases rest with _ | ⟨b, _ | ⟨d, _ | ⟨e, rest⟩⟩⟩
    · rcases more with _ | ⟨y, _ | ⟨z, more⟩⟩ <;> simp [front4, hsecond]
    · cases more <;> simp [front4, hx]
    · simp [front4, hx]
    · rfl
  simp only [front, h2, h3, h4]

/-- A character begins where these bytes begin. -/
def Begins (bytes : Bytes) : Prop :=
  ∃ c after, bytes = String.utf8EncodeChar c ++ after

/-- No character is encoded anywhere in these bytes. -/
def IsStray (bytes : Bytes) : Prop :=
  ∀ before after, bytes = before ++ after → ¬ Begins after

theorem begins_cons {a : UInt8} {rest : Bytes} :
    Begins (a :: rest) ↔ ∃ c more, front a rest = .char c more := by
  constructor
  · rintro ⟨c, after, h⟩
    obtain ⟨x, tail, he, hf⟩ := front_encodeChar c
    rw [he] at h
    cases h
    exact ⟨c, tail.length, hf after⟩
  · rintro ⟨c, more, h⟩
    obtain ⟨tail, after, rfl, -, he⟩ := front_sound h
    exact ⟨c, after, by rw [he]; rfl⟩

theorem not_begins_nil : ¬ Begins [] := by
  rintro ⟨c, after, h⟩
  obtain ⟨x, tail, he, -⟩ := front_encodeChar c
  rw [he] at h
  cases h

/-- A character that begins in bytes ends in them, if a character begins after them. -/
theorem begins_append {a : UInt8} {rest bytes : Bytes} (hb : Begins bytes) :
    Begins (a :: rest ++ bytes) ↔ Begins (a :: rest) := by
  cases bytes with
  | nil => exact absurd hb not_begins_nil
  | cons x more =>
    obtain ⟨_, _, hx⟩ := begins_cons.1 hb
    rw [List.cons_append, begins_cons, begins_cons, front_append a rest more (isTail_of_front hx)]

theorem isStray_nil : IsStray [] := by
  intro before after h
  rw [(List.append_eq_nil_iff.1 h.symm).2]
  exact not_begins_nil

theorem isStray_cons {a : UInt8} {rest : Bytes} :
    IsStray (a :: rest) ↔ ¬ Begins (a :: rest) ∧ IsStray rest := by
  constructor
  · intro h
    exact ⟨h [] _ rfl, fun before after he => h (a :: before) after (by rw [he]; rfl)⟩
  · rintro ⟨hfirst, hrest⟩ before after h
    cases before with
    | nil =>
      cases h
      exact hfirst
    | cons _ before =>
      cases h
      exact hrest before after rfl

theorem begins_encode {s : List Char} (hs : s ≠ []) (bytes : Bytes) :
    Begins (encode s ++ bytes) := by
  cases s with
  | nil => exact absurd rfl hs
  | cons c s => exact ⟨c, encode s ++ bytes, by rw [encode_cons, List.append_assoc]⟩

/-! ## 3. Taking bytes apart -/

theorem piecesFrom_append (skip : Nat) (bytes : Bytes) {later : Bytes} (hl : Begins later)
    (hs : skip ≤ bytes.length) :
    piecesFrom skip (bytes ++ later) = piecesFrom skip bytes ++ pieces later := by
  induction bytes generalizing skip with
  | nil =>
    rw [Nat.le_zero.1 hs]
    rfl
  | cons a rest ih =>
    cases skip with
    | succ skip => exact ih skip (Nat.le_of_succ_le_succ hs)
    | zero =>
      have hfront : front a (rest ++ later) = front a rest := by
        match later, hl with
        | [], _ => rw [List.append_nil]
        | x :: more, hl =>
          obtain ⟨_, _, hx⟩ := begins_cons.1 hl
          exact front_append a rest more (isTail_of_front hx)
      simp only [List.cons_append, piecesFrom, hfront]
      cases hf : front a rest with
      | char c more =>
        obtain ⟨tail, after, rfl, rfl, -⟩ := front_sound hf
        simp only [ih tail.length (by simp), List.cons_append]
      | broken _ => simp only [ih 0 (Nat.zero_le _), List.cons_append]

/-- Bytes are taken apart the same way whatever begins after them. -/
theorem pieces_append (bytes : Bytes) {later : Bytes} (hl : Begins later) :
    pieces (bytes ++ later) = pieces bytes ++ pieces later :=
  piecesFrom_append 0 bytes hl (Nat.zero_le _)

theorem pieces_stray {bytes : Bytes} (h : IsStray bytes) : pieces bytes = bytes.map .stray := by
  induction bytes with
  | nil => rfl
  | cons a rest ih =>
    obtain ⟨hfirst, hrest⟩ := isStray_cons.1 h
    rw [pieces, piecesFrom, List.map_cons]
    cases hf : front a rest with
    | char c more => exact absurd (begins_cons.2 ⟨c, more, hf⟩) hfirst
    | broken _ => exact congrArg _ (ih hrest)

/-- Bytes as a row of stretches without a character and runs of characters, each run as long as it
can be: where it ends, no character begins. -/
inductive Parted : Bytes → List Piece → Prop
  | strays {gap : Bytes} : IsStray gap → Parted gap (gap.map .stray)
  | run {gap bytes : Bytes} {s : List Char} {ps : List Piece} : IsStray gap → s ≠ [] →
      ¬ Begins bytes → Parted bytes ps →
      Parted (gap ++ encode s ++ bytes) (gap.map .stray ++ s.map .char ++ ps)

theorem Parted.char_cons {c : Char} {bytes : Bytes} {ps : List Piece} (h : Parted bytes ps) :
    Parted (String.utf8EncodeChar c ++ bytes) (.char c :: ps) := by
  -- the character opens a run of its own, unless a run begins right after it
  have hopen (hend : ¬ Begins bytes) :
      Parted (String.utf8EncodeChar c ++ bytes) (.char c :: ps) := by
    have hrun := Parted.run isStray_nil (List.cons_ne_nil c []) hend h
    rwa [encode_cons, encode_nil, List.append_nil, List.nil_append] at hrun
  cases h with
  | strays hgap => exact hopen (hgap [] _ rfl)
  | @run gap bytes s ps hgap hs hend hparted =>
    cases gap with
    | nil =>
      have hrun := Parted.run isStray_nil (List.cons_ne_nil c s) hend hparted
      rwa [encode_cons, List.nil_append, List.append_assoc] at hrun
    | cons a gap =>
      refine hopen fun hb => ?_
      rw [List.append_assoc, begins_append (begins_encode hs bytes)] at hb
      exact hgap [] _ rfl hb

theorem Parted.stray_cons {a : UInt8} {bytes : Bytes} {ps : List Piece} (h : Parted bytes ps)
    (ha : ¬ Begins (a :: bytes)) : Parted (a :: bytes) (.stray a :: ps) := by
  cases h with
  | strays hgap => exact Parted.strays (isStray_cons.2 ⟨ha, hgap⟩)
  | @run gap bytes s ps hgap hs hend hparted =>
    have hb : Begins (encode s ++ bytes) := begins_encode hs bytes
    rw [List.append_assoc, ← List.cons_append, begins_append hb] at ha
    exact Parted.run (isStray_cons.2 ⟨ha, hgap⟩) hs hend hparted

theorem parted_piecesFrom (skip : Nat) (bytes : Bytes) :
    Parted (bytes.drop skip) (piecesFrom skip bytes) := by
  induction bytes generalizing skip with
  | nil =>
    rw [List.drop_nil, piecesFrom]
    exact .strays isStray_nil
  | cons a rest ih =>
    cases skip with
    | succ skip => exact ih skip
    | zero =>
      rw [List.drop_zero, piecesFrom]
      cases hf : front a rest with
      | char c more =>
        obtain ⟨tail, after, rfl, rfl, he⟩ := front_sound hf
        have hrest : Parted after (piecesFrom tail.length (tail ++ after)) := by
          simpa using ih tail.length
        rw [← List.cons_append, ← he]
        exact hrest.char_cons
      | broken more =>
        have ha : ¬ Begins (a :: rest) := fun h => by
          obtain ⟨c, more, h⟩ := begins_cons.1 h
          rw [hf] at h
          cases h
        exact (ih 0).stray_cons ha

/-- Every byte string is a row of stretches and runs in one way only, and `pieces` finds it. -/
theorem parted_iff {bytes : Bytes} {ps : List Piece} : Parted bytes ps ↔ ps = pieces bytes := by
  constructor
  · intro h
    induction h with
    | strays hgap => exact (pieces_stray hgap).symm
    | @run gap bytes s ps hgap hs _ _ ih =>
      rw [List.append_assoc gap, pieces_append gap (begins_encode hs bytes), pieces_stray hgap,
        pieces_encode_append, ih, List.append_assoc]
  · rintro rfl
    exact parted_piecesFrom 0 bytes

end Logbook.Utf8
