import Logbook.Text.Utf8

/-!
# Quoted JSON strings

Quotes and backslashes are escaped, control characters are written with a letter or by their code,
everything else stands for itself. Which control characters have a letter depends on where the
string is written: log lines use three letters, documents five.

`escapeBytes` takes bytes that need not be characters and writes U+FFFD by its code for each byte
that belongs to none.
-/

namespace Logbook.Json

/-- The letters that stand for control characters. -/
structure Letters where
  letter? : Char → Option Char

/-- The letters used in log lines. -/
def Letters.line : Letters where
  letter?
    | '\n' => some 'n'
    | '\r' => some 'r'
    | '\t' => some 't'
    | _ => none

/-- The letters used in documents. -/
def Letters.document : Letters where
  letter?
    | '\x08' => some 'b'
    | '\x0c' => some 'f'
    | '\n' => some 'n'
    | '\r' => some 'r'
    | '\t' => some 't'
    | _ => none

/-- A hexadecimal digit, for `n` below 16. -/
def hexDigit (n : Nat) : Char := Nat.digitChar n

/-- The code of a character below U+0100. -/
def codeEscape (c : Char) : List Char :=
  ['\\', 'u', '0', '0', hexDigit (c.toNat / 16), hexDigit (c.toNat % 16)]

def escapeChar (letters : Letters) (c : Char) : List Char :=
  if c = '"' || c = '\\' then ['\\', c]
  else match letters.letter? c with
    | some letter => ['\\', letter]
    | none => if c.toNat < 0x20 then codeEscape c else [c]

def escapeText (letters : Letters) (s : List Char) : List Char := s.flatMap (escapeChar letters)

/-- A text as a string with its quotes. -/
def quote (letters : Letters) (s : List Char) : List Char := '"' :: escapeText letters s ++ ['"']

/-- A character, or the escaped U+FFFD for a byte that belongs to none. -/
def escapePiece (letters : Letters) : Utf8.Piece → List Char
  | .char c => escapeChar letters c
  | .stray _ => ['\\', 'u', 'f', 'f', 'f', 'd']

def escapeBytes (letters : Letters) (bytes : Bytes) : List Char :=
  (Utf8.pieces bytes).flatMap (escapePiece letters)

end Logbook.Json
