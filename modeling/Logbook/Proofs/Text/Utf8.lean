import Logbook.Text.Utf8

/-!
# Reading back what was encoded

`Utf8.pieces` finds the characters of a text again in its bytes, whatever bytes follow them.

Results:
1. `front_encodeChar`: the bytes of a character are recognised as that character.
2. `pieces_encode_append`: a text in front of other bytes is split into its characters.
3. `decode?_encode`: the bytes of a text decode to the text.
-/

namespace Logbook.Utf8

/-! ## 1. One character -/

/-- The code points of characters: surrogates are none. -/
theorem char_range (c : Char) : c.toNat < 0xD800 ∨ 0xE000 ≤ c.toNat ∧ c.toNat < 0x110000 := by
  have h : c.val.toNat.isValidChar := c.valid
  rcases h with h | ⟨h, h'⟩
  · exact .inl h
  · exact .inr ⟨by show 0xE000 ≤ c.val.toNat; omega, h'⟩

theorem ofNat_eq {c : Char} {n : Nat} (h : n = c.toNat) : Char.ofNat n = c := by
  rw [h, Char.ofNat_toNat]

theorem toNat_ofNat {n : Nat} (h : n < 256) : (UInt8.ofNat n).toNat = n := by
  rw [UInt8.toNat_ofNat', Nat.mod_eq_of_lt h]

theorem isTail_ofNat {n : Nat} (h : n < 64) : isTail (UInt8.ofNat (n + 0x80)) = true := by
  have hn := toNat_ofNat (n := n + 0x80) (by omega)
  simp only [isTail, Bool.and_eq_true, decide_eq_true_eq, UInt8.le_iff_toNat_le, hn,
    UInt8.reduceToNat]
  omega

theorem tailBits_ofNat {n : Nat} (h : n < 64) : tailBits (UInt8.ofNat (n + 0x80)) = n := by
  rw [tailBits, toNat_ofNat (by omega)]
  omega

/-- A second byte is allowed if it is a continuing one outside the narrow leads, and within their
bounds after them. -/
theorem isSecond_ofNat {a n : Nat} (ha : a < 256) (hn : n < 64) (hE0 : a = 0xE0 → 0x20 ≤ n)
    (hED : a = 0xED → n < 0x20) (hF0 : a = 0xF0 → 0x10 ≤ n) (hF4 : a = 0xF4 → n < 0x10) :
    isSecond (UInt8.ofNat a) (UInt8.ofNat (n + 0x80)) = true := by
  have ea := toNat_ofNat ha
  have en := toNat_ofNat (n := n + 0x80) (by omega)
  simp only [isSecond, isTail, ← UInt8.toNat_inj, UInt8.le_iff_toNat_le, ea, en, UInt8.reduceToNat]
  split
  · next h => simpa using by have := hE0 h; omega
  split
  · next h => simpa using by have := hED h; omega
  split
  · next h => simpa using by have := hF0 h; omega
  split
  · next h => simpa using by have := hF4 h; omega
  · simpa using by omega

theorem front_one {a : Nat} {rest : Bytes} (h : a ≤ 0x7F) :
    front (UInt8.ofNat a) rest = .char (Char.ofNat a) 0 := by
  have ha := toNat_ofNat (n := a) (by omega)
  simp only [front, UInt8.le_iff_toNat_le, ha, UInt8.reduceToNat, if_pos h]

theorem front_two {a b : Nat} {rest : Bytes} (ha : 2 ≤ a) (ha' : a < 32) (hb : b < 64) :
    front (UInt8.ofNat (a + 0xC0)) (UInt8.ofNat (b + 0x80) :: rest) =
      .char (Char.ofNat (a * 64 + b)) 1 := by
  have ea := toNat_ofNat (n := a + 0xC0) (by omega)
  have hs : isSecond (UInt8.ofNat (a + 0xC0)) (UInt8.ofNat (b + 0x80)) = true :=
    isSecond_ofNat (by omega) hb (by omega) (by omega) (by omega) (by omega)
  simp only [front, UInt8.le_iff_toNat_le, UInt8.lt_iff_toNat_lt, ea, UInt8.reduceToNat]
  rw [if_neg (by omega), if_neg (by omega), if_pos (by omega), front2, if_pos hs, ea,
    tailBits_ofNat hb, show (a + 0xC0) % 32 = a by omega]

theorem front_three {a b c : Nat} {rest : Bytes} (ha : a < 16) (hb : b < 64) (hc : c < 64)
    (hlow : a = 0 → 0x20 ≤ b) (hhigh : a = 13 → b < 0x20) :
    front (UInt8.ofNat (a + 0xE0)) (UInt8.ofNat (b + 0x80) :: UInt8.ofNat (c + 0x80) :: rest) =
      .char (Char.ofNat ((a * 64 + b) * 64 + c)) 2 := by
  have ea := toNat_ofNat (n := a + 0xE0) (by omega)
  have hs : isSecond (UInt8.ofNat (a + 0xE0)) (UInt8.ofNat (b + 0x80)) = true :=
    isSecond_ofNat (by omega) hb (by omega) (by omega) (by omega) (by omega)
  simp only [front, UInt8.le_iff_toNat_le, UInt8.lt_iff_toNat_lt, ea, UInt8.reduceToNat]
  rw [if_neg (by omega), if_neg (by omega), if_neg (by omega), if_pos (by omega), front3,
    if_pos hs, if_pos (isTail_ofNat hc), ea, tailBits_ofNat hb, tailBits_ofNat hc,
    show (a + 0xE0) % 16 = a by omega]

theorem front_four {a b c d : Nat} {rest : Bytes} (ha : a ≤ 4) (hb : b < 64) (hc : c < 64)
    (hd : d < 64) (hlow : a = 0 → 0x10 ≤ b) (hhigh : a = 4 → b < 0x10) :
    front (UInt8.ofNat (a + 0xF0))
        (UInt8.ofNat (b + 0x80) :: UInt8.ofNat (c + 0x80) :: UInt8.ofNat (d + 0x80) :: rest) =
      .char (Char.ofNat (((a * 64 + b) * 64 + c) * 64 + d)) 3 := by
  have ea := toNat_ofNat (n := a + 0xF0) (by omega)
  have hs : isSecond (UInt8.ofNat (a + 0xF0)) (UInt8.ofNat (b + 0x80)) = true :=
    isSecond_ofNat (by omega) hb (by omega) (by omega) (by omega) (by omega)
  simp only [front, UInt8.le_iff_toNat_le, UInt8.lt_iff_toNat_lt, ea, UInt8.reduceToNat]
  rw [if_neg (by omega), if_neg (by omega), if_neg (by omega), if_neg (by omega),
    if_pos (by omega), front4, if_pos hs, if_pos (isTail_ofNat hc), if_pos (isTail_ofNat hd), ea,
    tailBits_ofNat hb, tailBits_ofNat hc, tailBits_ofNat hd, show (a + 0xF0) % 8 = a by omega]

/-- The bytes of a character are recognised as that character, whatever follows. -/
theorem front_encodeChar (c : Char) :
    ∃ a tail, String.utf8EncodeChar c = a :: tail ∧
      ∀ rest, front a (tail ++ rest) = .char c tail.length := by
  have hr := char_range c
  have hv : c.val.toNat = c.toNat := rfl
  -- one case for each length; the bounds on second bytes hold since surrogates are no characters
  simp only [String.utf8EncodeChar, hv]
  split
  · next h =>
    refine ⟨_, [], rfl, fun rest => ?_⟩
    rw [List.nil_append, front_one h, Char.ofNat_toNat]
    rfl
  split
  · next h =>
    refine ⟨_, _, rfl, fun rest => ?_⟩
    simp only [List.cons_append, List.nil_append]
    rw [front_two (by omega) (by omega) (by omega), ofNat_eq (c := c) (by omega)]
    rfl
  split
  · next h =>
    refine ⟨_, _, rfl, fun rest => ?_⟩
    simp only [List.cons_append, List.nil_append]
    rw [front_three (by omega) (by omega) (by omega) (by omega) (by omega),
      ofNat_eq (c := c) (by omega)]
    rfl
  · refine ⟨_, _, rfl, fun rest => ?_⟩
    simp only [List.cons_append, List.nil_append]
    rw [front_four (by omega) (by omega) (by omega) (by omega) (by omega) (by omega),
      ofNat_eq (c := c) (by omega)]
    rfl

/-! ## 2. Texts -/

theorem encode_cons (c : Char) (s : List Char) :
    encode (c :: s) = String.utf8EncodeChar c ++ encode s := rfl

@[simp] theorem encode_nil : encode [] = [] := rfl

theorem encode_append (s t : List Char) : encode (s ++ t) = encode s ++ encode t :=
  List.flatMap_append

theorem piecesFrom_length (tail rest : Bytes) :
    piecesFrom tail.length (tail ++ rest) = piecesFrom 0 rest := by
  induction tail with
  | nil => rfl
  | cons _ tail ih => exact ih

/-- A character in front of other bytes is split off as one piece. -/
theorem pieces_encodeChar_append (c : Char) (rest : Bytes) :
    pieces (String.utf8EncodeChar c ++ rest) = .char c :: pieces rest := by
  obtain ⟨a, tail, he, hf⟩ := front_encodeChar c
  rw [he, List.cons_append, pieces, piecesFrom, hf rest]
  exact congrArg _ (piecesFrom_length tail rest)

/-- A text in front of other bytes is split into its characters. -/
theorem pieces_encode_append (s : List Char) (rest : Bytes) :
    pieces (encode s ++ rest) = s.map .char ++ pieces rest := by
  induction s with
  | nil => rfl
  | cons c s ih =>
    rw [encode_cons, List.append_assoc, pieces_encodeChar_append, ih]
    rfl

theorem mapM_char? (s : List Char) : (s.map Piece.char).mapM Piece.char? = some s := by
  induction s with
  | nil => rfl
  | cons c s ih =>
    rw [List.map_cons, List.mapM_cons, ih]
    rfl

/-- The bytes of a text decode to the text. -/
theorem decode?_encode (s : List Char) : decode? (encode s) = some s := by
  rw [decode?, ← List.append_nil (encode s), pieces_encode_append]
  exact (congrArg (List.mapM Piece.char?) (List.append_nil _)).trans (mapM_char? s)

end Logbook.Utf8
