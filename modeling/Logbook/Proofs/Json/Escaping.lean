import Logbook.Proofs.Json.Grammar
import Logbook.Json.Quoted

/-!
# Escaped strings

A quoted text is a JSON string that stands for the text. Bytes that need not be characters are
quoted as the text that has U+FFFD in place of every byte that belongs to no character.

Results:
1. `isUnits_escapeText`, `isUnits_escapeBytes`: the inside of a quoted text.
2. `isString_quote`, `isString_bytes`: what a quoted text stands for.
-/

namespace Logbook.Json

open Utf8 (Piece)

/-- The character that is read for a piece. -/
def pieceChar : Piece → Char
  | .char c => c
  | .stray _ => '\uFFFD'

/-- Bytes as a text, with U+FFFD for each byte that belongs to no character. -/
def readable (bytes : Bytes) : List Char := (Utf8.pieces bytes).map pieceChar

theorem joinUnits_chars (s : List Char) : joinUnits (s.map .char) = s := by
  induction s with
  | nil => rfl
  | cons c s ih => rw [List.map_cons, joinUnits, ih]

/-! ## 1. Inside the quotes -/

theorem hexValue4?_code {n : Nat} (h : n < 0x20) :
    hexValue4? '0' '0' (hexDigit (n / 16)) (hexDigit (n % 16)) = some n := by
  have hall : ∀ n < 0x20,
      hexValue4? '0' '0' (hexDigit (n / 16)) (hexDigit (n % 16)) = some n := by decide
  exact hall n h

theorem ofCode_toNat {c : Char} (h : c.toNat < 0x20) : StringUnit.ofCode c.toNat = .char c := by
  rw [StringUnit.ofCode, if_neg (by omega), Char.ofNat_toNat]

/-- The letters of log lines are read back as the characters they stand for. -/
theorem unescape?_line {c letter : Char} (h : Letters.line.letter? c = some letter) :
    unescape? letter = some c := by
  simp only [Letters.line] at h
  split at h
  · cases h; rfl
  · cases h; rfl
  · cases h; rfl
  · cases h

theorem isUnits_escapeChar {s : List Char} {us : List StringUnit} (c : Char) (h : IsUnits s us) :
    IsUnits (escapeChar .line c ++ s) (.char c :: us) := by
  unfold escapeChar
  split
  · next hc =>
    rcases Bool.or_eq_true_iff.mp hc with hq | hb
    · obtain rfl := of_decide_eq_true hq
      exact .escape rfl h
    · obtain rfl := of_decide_eq_true hb
      exact .escape rfl h
  next hc =>
  simp only [Bool.or_eq_true, decide_eq_true_eq, not_or] at hc
  split
  · next letter hl => exact .escape (unescape?_line hl) h
  split
  · next hlow =>
    rw [← ofCode_toNat hlow]
    exact .code (hexValue4?_code hlow) h
  · exact .plain (by omega) hc.1 hc.2 h

theorem isUnits_escapeText (s : List Char) : IsUnits (escapeText .line s) (s.map .char) := by
  induction s with
  | nil => exact .nil
  | cons c s ih => exact isUnits_escapeChar c ih

theorem isUnits_escapePieces (ps : List Piece) :
    IsUnits (ps.flatMap (escapePiece .line)) ((ps.map pieceChar).map .char) := by
  induction ps with
  | nil => exact .nil
  | cons p ps ih =>
    cases p with
    | char c => exact isUnits_escapeChar c ih
    | stray b => exact .code (n := 0xFFFD) rfl ih

theorem isUnits_escapeBytes (bytes : Bytes) :
    IsUnits (escapeBytes .line bytes) ((readable bytes).map .char) :=
  isUnits_escapePieces (Utf8.pieces bytes)

/-- Characters that need no escape stand for themselves. -/
def IsPlain (c : Char) : Prop := 0x20 ≤ c.toNat ∧ c ≠ '"' ∧ c ≠ '\\'

instance (c : Char) : Decidable (IsPlain c) :=
  inferInstanceAs (Decidable (0x20 ≤ c.toNat ∧ c ≠ '"' ∧ c ≠ '\\'))

theorem isUnits_plain {s : List Char} (h : ∀ c ∈ s, IsPlain c) : IsUnits s (s.map .char) := by
  induction s with
  | nil => exact .nil
  | cons c s ih =>
    obtain ⟨hl, hq, hb⟩ := h c List.mem_cons_self
    exact .plain hl hq hb (ih fun d hd => h d (List.mem_cons_of_mem c hd))

/-! ## 2. With the quotes -/

theorem isString_of_isUnits {s t : List Char} (h : IsUnits s (t.map .char)) :
    IsString ('"' :: s ++ ['"']) (String.ofList t) := by
  have hs := IsString.mk h
  rwa [joinUnits_chars] at hs

/-- A quoted text stands for the text. -/
theorem isString_quote (s : List Char) : IsString (quote .line s) (String.ofList s) :=
  isString_of_isUnits (isUnits_escapeText s)

theorem isString_quoteLine (s : String) : IsString (quote .line s.toList) s := by
  have hs := isString_quote s.toList
  rwa [String.ofList_toList] at hs

/-- Quoted bytes stand for the bytes as a text. -/
theorem isString_bytes (bytes : Bytes) :
    IsString ('"' :: escapeBytes .line bytes ++ ['"']) (String.ofList (readable bytes)) :=
  isString_of_isUnits (isUnits_escapeBytes bytes)

/-- Characters that need no escape, in quotes. -/
theorem isString_plain {s : List Char} (h : ∀ c ∈ s, IsPlain c) :
    IsString ('"' :: s ++ ['"']) (String.ofList s) :=
  isString_of_isUnits (isUnits_plain h)

end Logbook.Json
