/-!
# UTF-8

Characters as bytes and bytes as characters. Reading never fails: what is not the encoding of a
character is handed over byte by byte (`pieces`) or replaced run by run (`lossy`).

A lead byte fixes how many bytes follow and narrows the first of them, so that surrogates, values
above U+10FFFF and encodings longer than needed are refused at the earliest byte:

| lead byte    | second byte | further bytes |
|--------------|-------------|---------------|
| `00` to `7F` |             |               |
| `C2` to `DF` | `80` to `BF`| none          |
| `E0`         | `A0` to `BF`| one           |
| `ED`         | `80` to `9F`| one           |
| other `Ex`   | `80` to `BF`| one           |
| `F0`         | `90` to `BF`| two           |
| `F1` to `F3` | `80` to `BF`| two           |
| `F4`         | `80` to `8F`| two           |
-/

namespace Logbook

/-- A run of bytes, as written to a sink or kept in a file. -/
abbrev Bytes := List UInt8

namespace Utf8

/-- The bytes of a text. -/
def encode (s : List Char) : Bytes := s.flatMap String.utf8EncodeChar

def ofString (s : String) : Bytes := encode s.toList

/-- What stands at the front of a byte string, the first byte included: a character with `more`
bytes after its first one, or a sequence that breaks off with `more` bytes after its first one. -/
inductive Front where
  | char (c : Char) (more : Nat)
  | broken (more : Nat)
  deriving DecidableEq, Repr

/-- A byte that continues a character. -/
def isTail (b : UInt8) : Bool := 0x80 ≤ b && b ≤ 0xBF

/-- The six payload bits of a continuing byte. -/
def tailBits (b : UInt8) : Nat := b.toNat % 64

/-- Whether `b` may follow the lead byte `lead` directly. -/
def isSecond (lead b : UInt8) : Bool :=
  if lead = 0xE0 then 0xA0 ≤ b && b ≤ 0xBF
  else if lead = 0xED then 0x80 ≤ b && b ≤ 0x9F
  else if lead = 0xF0 then 0x90 ≤ b && b ≤ 0xBF
  else if lead = 0xF4 then 0x80 ≤ b && b ≤ 0x8F
  else isTail b

def front2 (a : UInt8) : Bytes → Front
  | b :: _ =>
    if isSecond a b then .char (Char.ofNat (a.toNat % 32 * 64 + tailBits b)) 1 else .broken 0
  | [] => .broken 0

def front3 (a : UInt8) : Bytes → Front
  | b :: c :: _ =>
    if isSecond a b then
      if isTail c then .char (Char.ofNat ((a.toNat % 16 * 64 + tailBits b) * 64 + tailBits c)) 2
      else .broken 1
    else .broken 0
  | [b] => if isSecond a b then .broken 1 else .broken 0
  | [] => .broken 0

def front4 (a : UInt8) : Bytes → Front
  | b :: c :: d :: _ =>
    if isSecond a b then
      if isTail c then
        if isTail d then
          .char (Char.ofNat (((a.toNat % 8 * 64 + tailBits b) * 64 + tailBits c) * 64 + tailBits d)) 3
        else .broken 2
      else .broken 1
    else .broken 0
  | [b, c] => if isSecond a b then (if isTail c then .broken 2 else .broken 1) else .broken 0
  | [b] => if isSecond a b then .broken 1 else .broken 0
  | [] => .broken 0

/-- Reads the front of the byte string `a :: rest`. -/
def front (a : UInt8) (rest : Bytes) : Front :=
  if a ≤ 0x7F then .char (Char.ofNat a.toNat) 0
  else if a < 0xC2 then .broken 0
  else if a ≤ 0xDF then front2 a rest
  else if a ≤ 0xEF then front3 a rest
  else if a ≤ 0xF4 then front4 a rest
  else .broken 0

/-- A character, or a byte that belongs to none. -/
inductive Piece where
  | char (c : Char)
  | stray (b : UInt8)
  deriving DecidableEq, Repr

/-- Splits bytes into pieces; `skip` bytes at the front belong to the piece before them. -/
def piecesFrom : Nat → Bytes → List Piece
  | _, [] => []
  | n + 1, _ :: rest => piecesFrom n rest
  | 0, a :: rest =>
    match front a rest with
    | .char c more => .char c :: piecesFrom more rest
    | .broken _ => .stray a :: piecesFrom 0 rest

/-- The characters of a byte string, with every byte outside of them kept as it is. -/
def pieces (bytes : Bytes) : List Piece := piecesFrom 0 bytes

/-- The character behind a piece, if it is one. -/
def Piece.char? : Piece → Option Char
  | .char c => some c
  | .stray _ => none

/-- The text of a byte string that is all characters. -/
def decode? (bytes : Bytes) : Option (List Char) := (pieces bytes).mapM Piece.char?

/-- Reads bytes with U+FFFD for each sequence that breaks off; `skip` bytes at the front are
already accounted for. -/
def lossyFrom : Nat → Bytes → List Char
  | _, [] => []
  | n + 1, _ :: rest => lossyFrom n rest
  | 0, a :: rest =>
    match front a rest with
    | .char c more => c :: lossyFrom more rest
    | .broken more => '\uFFFD' :: lossyFrom more rest

/-- The text of a byte string, where each broken sequence counts as one U+FFFD. -/
def lossy (bytes : Bytes) : List Char := lossyFrom 0 bytes

end Utf8

end Logbook
