import Logbook.Json.Error
import Logbook.Text.Number

/-!
# Reading JSON

Readers take what they need from the front of a text and leave the rest. Each is told what kind of
value it should find, and names the first thing that is wrong, whether with the syntax or with the
kind of a value. `skipValue` passes over a value of any kind, checking its syntax only.
-/

namespace Logbook.Json

open Decimal (Binary)

/-- A step that takes something from the front of a text. -/
abbrev Reader (α : Type) := List Char → Except Error (α × List Char)

/-- A character that may stand between the parts of a document. -/
def isGap (c : Char) : Bool := c = ' ' || c = '\n' || c = '\t' || c = '\r'

/-- The text from its first part on. -/
def skipGap (s : List Char) : List Char := s.dropWhile isGap

/-! ## Words -/

/-- Takes the rest of a word whose first letter has been seen. -/
def readWord : List Char → List Char → Except Error (List Char)
  | [], s => .ok s
  | _ :: _, [] => .error .endInValue
  | w :: word, c :: s => if c = w then readWord word s else .error .expectedWord

/-! ## Strings -/

def hexValue? (c : Char) : Option Nat :=
  if c.isDigit then some (c.toNat - '0'.toNat)
  else if 'a' ≤ c && c ≤ 'f' then some (c.toNat - 'a'.toNat + 10)
  else if 'A' ≤ c && c ≤ 'F' then some (c.toNat - 'A'.toNat + 10)
  else none

def hexValue4? (a b c d : Char) : Option Nat := do
  let a ← hexValue? a
  let b ← hexValue? b
  let c ← hexValue? c
  let d ← hexValue? d
  return ((a * 16 + b) * 16 + c) * 16 + d

/-- What is wrong with a code escape followed by `s`: fewer than four bytes are left, or the four
are not digits. -/
def codeError (s : List Char) : Error :=
  if (Utf8.encode (s.take 4)).length < 4 then .endInString else .invalidEscape

/-- The character behind an escape of one letter. -/
def unescape? : Char → Option Char
  | '"' => some '"'
  | '\\' => some '\\'
  | '/' => some '/'
  | 'b' => some '\x08'
  | 'f' => some '\x0c'
  | 'n' => some '\n'
  | 'r' => some '\r'
  | 't' => some '\t'
  | _ => none

/-- The character of a pair of surrogates. -/
def pairedChar (high low : Nat) : Char :=
  Char.ofNat ((high - 0xD800) * 0x400 + (low - 0xDC00) + 0x10000)

/-- Puts a character in front of what a string reader has taken. -/
def withChar (c : Char) (result : Except Error (List Char × List Char)) :
    Except Error (List Char × List Char) :=
  result.map fun (s, rest) => (c :: s, rest)

/-- What is wrong after the first half of a surrogate pair when no second half follows. -/
def secondHalfError : List Char → Error
  | [] => .endInString
  | ['\\'] => .endInString
  | '\\' :: 'u' :: s => codeError s
  | _ => .brokenSurrogatePair

/-- Takes the rest of a string whose opening quote has been taken. -/
def readStringRest : Reader (List Char)
  | [] => .error .endInString
  | '"' :: s => .ok ([], s)
  | '\\' :: 'u' :: a :: b :: c :: d :: s =>
    match hexValue4? a b c d with
    | none => .error (codeError (a :: b :: c :: d :: s))
    | some n =>
      if 0xDC00 ≤ n && n ≤ 0xDFFF then .error .loneSurrogate
      else if n < 0xD800 || 0xDBFF < n then withChar (Char.ofNat n) (readStringRest s)
      else match s with
        | '\\' :: 'u' :: e :: f :: g :: h :: t =>
          match hexValue4? e f g h with
          | none => .error (codeError (e :: f :: g :: h :: t))
          | some low =>
            if 0xDC00 ≤ low && low ≤ 0xDFFF then withChar (pairedChar n low) (readStringRest t)
            else .error .loneSurrogate
        | _ => .error (secondHalfError s)
  | '\\' :: 'u' :: s => .error (codeError s)
  | '\\' :: c :: s =>
    match unescape? c with
    | some c => withChar c (readStringRest s)
    | none => .error .invalidEscape
  | ['\\'] => .error .endInString
  | c :: s => if c.toNat < 0x20 then .error .controlCharacter else withChar c (readStringRest s)

/-- Passes over the rest of a string. Codes need not be those of characters. -/
def skipStringRest : List Char → Except Error (List Char)
  | [] => .error .endInString
  | '"' :: s => .ok s
  | '\\' :: 'u' :: a :: b :: c :: d :: s =>
    if (hexValue4? a b c d).isSome then skipStringRest s
    else .error (codeError (a :: b :: c :: d :: s))
  | '\\' :: 'u' :: s => .error (codeError s)
  | '\\' :: c :: s => if (unescape? c).isSome then skipStringRest s else .error .invalidEscape
  | ['\\'] => .error .endInString
  | c :: s => if c.toNat < 0x20 then .error .controlCharacter else skipStringRest s

/-! ## Numbers -/

/-- A number as it stands in a document: a whole number of 64 bits, with a sign only below zero, or
the bits of a floating-point number. -/
inductive Number where
  | natural (n : Nat)
  | negative (n : Nat)
  | float (bits : Nat)
  deriving DecidableEq, Repr

def largestWord : Nat := 18446744073709551615

/-- Adds digits to a significand for as long as it fits 64 bits: the significand, and how many
digits went into it. -/
def gather (significand : Nat) : List Char → Nat × Nat
  | [] => (significand, 0)
  | c :: digits =>
    let next := 10 * significand + Text.digitValue c
    if next ≤ largestWord then
      let (n, used) := gather next digits
      (n, used + 1)
    else (significand, 0)

/-- The bits of the product of two numbers that are not negative. -/
def timesBits (a b : Nat) : Nat :=
  match Binary.ofBits Decimal.double a, Binary.ofBits Decimal.double b with
  | .finite _ m p _, .finite _ n q _ => Decimal.roundScaled Decimal.double (m * n) 1 (p + q)
  | _, _ => Decimal.double.infinity

/-- The bits of the quotient of two numbers that are not negative. -/
def overBits (a b : Nat) : Nat :=
  match Binary.ofBits Decimal.double a, Binary.ofBits Decimal.double b with
  | .finite _ m p _, .finite _ n q _ => Decimal.roundScaled Decimal.double m n (p - q)
  | _, _ => Decimal.double.infinity

/-- The bits of the double nearest to a power of ten. -/
def powerOfTen (n : Nat) : Nat := Decimal.roundRatio Decimal.double (Decimal.pow10 n) 1

/-- Divides by `10 ^ exponent` in steps of `10 ^ 308`, each rounded; `steps` bounds their number. -/
def scaleDown (bits : Nat) (exponent : Nat) : Nat → Nat
  | 0 => bits
  | steps + 1 =>
    if exponent ≤ 308 then overBits bits (powerOfTen exponent)
    else if bits = 0 then 0
    else scaleDown (overBits bits (powerOfTen 308)) (exponent - 308) steps

/-- The bits of `significand * 10 ^ exponent`, where the significand, the power and the result are
rounded one after the other. -/
def scaled? (significand : Nat) (exponent : Int) : Option Nat :=
  let bits := Decimal.roundRatio Decimal.double significand 1
  if exponent < 0 then some (scaleDown bits (-exponent).toNat 4)
  else if exponent ≤ 308 then
    let product := timesBits bits (powerOfTen exponent.toNat)
    if product = Decimal.double.infinity then none else some product
  else if bits = 0 then some 0
  else none

def signedFloat (negative : Bool) (bits : Nat) : Number :=
  .float (Decimal.double.signBit negative + bits)

/-- The largest exponent that is kept. -/
def largestExponent : Nat := 2147483647

/-- Takes an exponent, whose letter has been taken, and finishes the number. -/
def readExponent (negative : Bool) (significand : Nat) (start : Int) : Reader Number := fun s =>
  let (below, s) := match s with
    | '+' :: rest => (false, rest)
    | '-' :: rest => (true, rest)
    | _ => (false, s)
  match s with
  | [] => .error .endInValue
  | c :: _ =>
    if !c.isDigit then .error .invalidNumber
    else
      let rest := s.dropWhile Char.isDigit
      let exponent := Text.natOfDigits (s.takeWhile Char.isDigit)
      if largestExponent < exponent then
        if significand ≠ 0 && !below then .error .numberOutOfRange
        else .ok (signedFloat negative 0, rest)
      else
        match scaled? significand (if below then start - exponent else start + exponent) with
        | some bits => .ok (signedFloat negative bits, rest)
        | none => .error .numberOutOfRange

/-- Finishes a number of which everything but an exponent has been taken. -/
def finishFloat (negative : Bool) (significand : Nat) (exponent : Int) : Reader Number
  | 'e' :: s => readExponent negative significand exponent s
  | 'E' :: s => readExponent negative significand exponent s
  | s =>
    match scaled? significand exponent with
    | some bits => .ok (signedFloat negative bits, s)
    | none => .error .numberOutOfRange

/-- Takes a fraction, whose point has been taken, and finishes the number. Digits beyond those that
fit the significand are passed over. -/
def readFraction (negative : Bool) (significand : Nat) (start : Int) : Reader Number := fun s =>
  let digits := s.takeWhile Char.isDigit
  let rest := s.dropWhile Char.isDigit
  if digits.isEmpty then .error (if rest.isEmpty then .endInValue else .invalidNumber)
  else
    let (significand, used) := gather significand digits
    finishFloat negative significand (start - used) rest

/-- The magnitude of the smallest whole number of 64 bits with a sign. -/
def lowestMagnitude : Nat := 9223372036854775808

/-- Finishes a number of which the digits before the point have been taken: `dropped` of them did
not fit the significand. -/
def finishNumber (negative : Bool) (significand dropped : Nat) : Reader Number
  | '.' :: s => readFraction negative significand dropped s
  | 'e' :: s => readExponent negative significand dropped s
  | 'E' :: s => readExponent negative significand dropped s
  | s =>
    if dropped ≠ 0 then finishFloat negative significand dropped s
    else if !negative then .ok (.natural significand, s)
    else if significand = 0 || lowestMagnitude < significand then
      .ok (signedFloat true (Decimal.roundRatio Decimal.double significand 1), s)
    else .ok (.negative significand, s)

/-- Takes a number, of which a minus sign has been taken. -/
def readNumber (negative : Bool) : Reader Number
  | [] => .error .endInValue
  | '0' :: s =>
    match s with
    | c :: _ => if c.isDigit then .error .invalidNumber else finishNumber negative 0 0 s
    | [] => finishNumber negative 0 0 s
  | c :: s =>
    if !c.isDigit then .error .invalidNumber
    else
      let digits := c :: s.takeWhile Char.isDigit
      let (significand, used) := gather 0 digits
      finishNumber negative significand (digits.length - used) (s.dropWhile Char.isDigit)

/-- What a number is when something else was expected. -/
def Number.found : Number → Found
  | natural n => .int n
  | negative n => .int (-n)
  | float bits => .float bits

/-- Passes over an exponent, whose letter has been taken. -/
def skipExponent (s : List Char) : Except Error (List Char) :=
  let s := match s with
    | '+' :: rest => rest
    | '-' :: rest => rest
    | _ => s
  match s with
  | c :: rest => if c.isDigit then .ok (rest.dropWhile Char.isDigit) else .error .invalidNumber
  | [] => .error .invalidNumber

/-- Passes over what may follow the whole part of a number. -/
def skipNumberRest : List Char → Except Error (List Char)
  | 'e' :: s => skipExponent s
  | 'E' :: s => skipExponent s
  | '.' :: s =>
    if (s.takeWhile Char.isDigit).isEmpty then .error .invalidNumber
    else match s.dropWhile Char.isDigit with
      | 'e' :: rest => skipExponent rest
      | 'E' :: rest => skipExponent rest
      | rest => .ok rest
  | s => .ok s

/-- Passes over a number, of which a minus sign has been taken. -/
def skipNumber : List Char → Except Error (List Char)
  | [] => .error .invalidNumber
  | '0' :: s =>
    match s with
    | c :: _ => if c.isDigit then .error .invalidNumber else skipNumberRest s
    | [] => skipNumberRest s
  | c :: s =>
    if c.isDigit then skipNumberRest (s.dropWhile Char.isDigit) else .error .invalidNumber

/-! ## Values of a given kind -/

/-- What is wrong when the value at the front of `s` is not of the expected kind. A value that is
itself malformed is reported as such. -/
def mismatch (expected : String) (s : List Char) : Error :=
  match s with
  | 'n' :: rest => wrong (readWord ['u', 'l', 'l'] rest) fun _ => .null
  | 't' :: rest => wrong (readWord ['r', 'u', 'e'] rest) fun _ => .bool true
  | 'f' :: rest => wrong (readWord ['a', 'l', 's', 'e'] rest) fun _ => .bool false
  | '-' :: rest => wrong (readNumber true rest) fun (n, _) => n.found
  | '"' :: rest => wrong (readStringRest rest) fun (text, _) => .text (String.ofList text)
  | '[' :: _ => .wrongType .list expected
  | '\x7b' :: _ => .wrongType .object expected
  | c :: _ =>
    if c.isDigit then wrong (readNumber false s) fun (n, _) => n.found else .expectedValue
  | [] => .expectedValue
where
  /-- The error of a value that was read, or the error met while reading it. -/
  wrong {α : Type} (result : Except Error α) (found : α → Found) : Error :=
    match result with
    | .ok a => .wrongType (found a) expected
    | .error e => e

def readBool : Reader Bool := fun s =>
  match skipGap s with
  | [] => .error .endInValue
  | 't' :: rest => (readWord ['r', 'u', 'e'] rest).map fun rest => (true, rest)
  | 'f' :: rest => (readWord ['a', 'l', 's', 'e'] rest).map fun rest => (false, rest)
  | s => .error (mismatch "a boolean" s)

def readText : Reader String := fun s =>
  match skipGap s with
  | [] => .error .endInValue
  | '"' :: rest => (readStringRest rest).map fun (text, rest) => (String.ofList text, rest)
  | s => .error (mismatch "a string" s)

/-- The number itself if it is a whole number that is not negative. -/
def Number.toNat : Number → Except Error Nat
  | natural n => .ok n
  | negative n => .error (.wrongValue (.int (-n)) "u64")
  | float bits => .error (.wrongType (.float bits) "u64")

/-- Takes a whole number of 64 bits that is not negative. -/
def readNat : Reader Nat := fun s =>
  match skipGap s with
  | [] => .error .endInValue
  | '-' :: rest => do
    let (number, rest) ← readNumber true rest
    return (← number.toNat, rest)
  | c :: rest => do
    if !c.isDigit then throw (mismatch "u64" (c :: rest))
    let (number, rest) ← readNumber false (c :: rest)
    return (← number.toNat, rest)

/-! ## Values of any kind -/

/-- A bracket that has been opened. -/
inductive Bracket where
  | list | object
  deriving DecidableEq, Repr

/-- The error for a text that ends within a bracket. -/
def Bracket.endError : Bracket → Error
  | list => .endInList
  | object => .endInObject

/-- The error for something else than a comma or the closing bracket. -/
def Bracket.commaError : Bracket → Error
  | list => .expectedListEnd
  | object => .expectedObjectEnd

def Bracket.closing : Bracket → Char
  | list => ']'
  | object => '\x7d'

/-- Passes over closing brackets and the comma after them. Given are the brackets still open, the
innermost first, and whether the innermost already holds a value. What is left open comes with the
text at the next value or name; nothing is left open when the whole value has been passed. -/
def skipClosing : List Bracket → Bool → List Char → Except Error (List Bracket × List Char)
  | [], _, s => .ok ([], s)
  | b :: _, _, [] => .error b.endError
  | b :: outer, filled, c :: s =>
    if isGap c then skipClosing (b :: outer) filled s
    else if filled && c = ',' then .ok (b :: outer, s)
    else if c = b.closing then skipClosing outer true s
    else if filled then .error b.commaError
    else .ok (b :: outer, c :: s)

/-- Passes over the name of a member and its colon. -/
def skipName (s : List Char) : Except Error (List Char) :=
  match skipGap s with
  | '"' :: rest => do
    match skipGap (← skipStringRest rest) with
    | ':' :: rest => return rest
    | [] => throw .endInObject
    | _ :: _ => throw .expectedColon
  | [] => .error .endInObject
  | _ :: _ => .error .keyNotText

/-- What the front of a value is: a whole value, or an opened bracket. -/
def skipFront (s : List Char) : Except Error (Option Bracket × List Char) :=
  match skipGap s with
  | [] => .error .endInValue
  | 'n' :: rest => (readWord ['u', 'l', 'l'] rest).map (none, ·)
  | 't' :: rest => (readWord ['r', 'u', 'e'] rest).map (none, ·)
  | 'f' :: rest => (readWord ['a', 'l', 's', 'e'] rest).map (none, ·)
  | '-' :: rest => (skipNumber rest).map (none, ·)
  | '"' :: rest => (skipStringRest rest).map (none, ·)
  | '[' :: rest => .ok (some .list, rest)
  | '\x7b' :: rest => .ok (some .object, rest)
  | c :: rest => if c.isDigit then (skipNumber (c :: rest)).map (none, ·) else .error .expectedValue

/-- Passes over values within the brackets `opened`. Every turn takes at least one character, so
`turns` never runs out when it starts above the length of the text. -/
def skipWithin : Nat → List Bracket → List Char → Except Error (List Char)
  | 0, _, _ => .error .endInValue
  | turns + 1, opened, s => do
    let (front, s) ← skipFront s
    let (opened, s) ← match front with
      | some bracket => skipClosing (bracket :: opened) false s
      | none => skipClosing opened true s
    match opened with
    | [] => return s
    | .list :: _ => skipWithin turns opened s
    | .object :: _ => skipWithin turns opened (← skipName s)

def skipValue (s : List Char) : Except Error (List Char) := skipWithin (s.length + 1) [] s

/-! ## Lists and objects -/

/-- The text at the next item of a list, or after its end. -/
def nextItem (first : Bool) (s : List Char) : Except Error (Bool × List Char) :=
  match skipGap s with
  | [] => .error .endInList
  | ']' :: rest => .ok (false, ']' :: rest)
  | c :: rest =>
    if first then .ok (true, c :: rest)
    else if c = ',' then
      match skipGap rest with
      | ']' :: _ => .error .trailingComma
      | [] => .error .endInValue
      | rest => .ok (true, rest)
    else .error .expectedListEnd

/-- Takes the closing bracket of a list that should hold no more items. -/
def endList (s : List Char) : Except Error (List Char) :=
  match skipGap s with
  | ']' :: rest => .ok rest
  | ',' :: rest =>
    match skipGap rest with
    | ']' :: _ => .error .trailingComma
    | _ => .error .trailingCharacters
  | [] => .error .endInList
  | _ :: _ => .error .trailingCharacters

/-- Takes the name of the next member of an object, or the closing bracket. -/
def nextName (first : Bool) (s : List Char) : Except Error (Option String × List Char) :=
  match skipGap s with
  | [] => .error .endInObject
  | '\x7d' :: rest => .ok (none, rest)
  | c :: rest =>
    if first then named (c :: rest)
    else if c = ',' then
      match skipGap rest with
      | '\x7d' :: _ => .error .trailingComma
      | rest => named rest
    else .error .expectedObjectEnd
where
  /-- Takes a name, which is a string. -/
  named : List Char → Except Error (Option String × List Char)
    | '"' :: rest => (readStringRest rest).map fun (name, rest) => (some (String.ofList name), rest)
    | [] => .error .endInValue
    | _ :: _ => .error .keyNotText

def readColon (s : List Char) : Except Error (List Char) :=
  match skipGap s with
  | ':' :: rest => .ok rest
  | [] => .error .endInObject
  | _ :: _ => .error .expectedColon

/-- Checks that nothing follows a document. -/
def endDocument (s : List Char) : Except Error Unit :=
  if (skipGap s).isEmpty then .ok () else .error .trailingCharacters

end Logbook.Json
