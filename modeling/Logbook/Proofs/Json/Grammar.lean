import Logbook.Json.Reader
import Mathlib.Algebra.Group.Nat.Defs

/-!
# The grammar of JSON texts

Which texts are JSON by RFC 8259, and what each of them stands for. The grammar is given by
relations between a piece of text and its meaning, one for each of its rules, and
`Tree.ofText?` is a reader for it. Members of an object keep their order, and none is dropped when
two have the same name.

| rule               | relation     | meaning                                     |
|--------------------|--------------|---------------------------------------------|
| `ws`               | `IsGap`      |                                             |
| `string`           | `IsString`   | a text, with surrogate escapes put together |
| `number`           | `IsNumeral`  | sign, digits and power of ten               |
| `value`            | `IsValue`    | a tree                                      |
| `ws value ws`      | `IsElement`  | a tree                                      |
| `value, value, ..` | `IsItems`    | trees                                       |
| `member, ..`       | `IsMembers`  | names and trees                             |

A JSON text is an element.
-/

namespace Logbook.Json

/-! ## What texts stand for -/

/-- A number as it is written: `coefficient * 10 ^ exponent`, with the sign apart, so that the two
zeros differ. -/
structure Numeral where
  negative : Bool
  coefficient : Nat
  exponent : Int
  deriving DecidableEq, Repr

/-- What a JSON text stands for. -/
inductive Tree where
  | null
  | bool (b : Bool)
  | number (n : Numeral)
  | text (s : String)
  | list (items : List Tree)
  | object (members : List (String × Tree))

/-- A part of a string: a character, or one half of a surrogate pair given by its code. -/
inductive StringUnit where
  | char (c : Char)
  | half (code : Nat)
  deriving DecidableEq, Repr

/-- The unit behind a code of four digits. -/
def StringUnit.ofCode (n : Nat) : StringUnit :=
  if 0xD800 ≤ n ∧ n < 0xE000 then .half n else .char (Char.ofNat n)

/-- The text of a string. Two halves that make a pair become one character, any other half is
replaced. -/
def joinUnits : List StringUnit → List Char
  | [] => []
  | .char c :: rest => c :: joinUnits rest
  | .half high :: .half low :: rest =>
    if high < 0xDC00 ∧ 0xDC00 ≤ low then pairedChar high low :: joinUnits rest
    else '\uFFFD' :: joinUnits (.half low :: rest)
  | .half _ :: rest => '\uFFFD' :: joinUnits rest

/-! ## The rules -/

/-- Blanks, tabs and line ends, perhaps none. -/
def IsGap (s : List Char) : Prop := ∀ c ∈ s, isGap c = true

/-- The inside of a string, unit by unit. -/
inductive IsUnits : List Char → List StringUnit → Prop
  | nil : IsUnits [] []
  | plain {c : Char} {s : List Char} {us : List StringUnit} :
      0x20 ≤ c.toNat → c ≠ '"' → c ≠ '\\' → IsUnits s us → IsUnits (c :: s) (.char c :: us)
  | escape {e c : Char} {s : List Char} {us : List StringUnit} :
      unescape? e = some c → IsUnits s us → IsUnits ('\\' :: e :: s) (.char c :: us)
  | code {a b c d : Char} {n : Nat} {s : List Char} {us : List StringUnit} :
      hexValue4? a b c d = some n → IsUnits s us →
      IsUnits ('\\' :: 'u' :: a :: b :: c :: d :: s) (.ofCode n :: us)

/-- A string with its quotes. -/
inductive IsString : List Char → String → Prop
  | mk {s : List Char} {us : List StringUnit} :
      IsUnits s us → IsString ('"' :: s ++ ['"']) (String.ofList (joinUnits us))

/-- Digits, at least one. -/
def IsDigits (s : List Char) : Prop := s ≠ [] ∧ ∀ c ∈ s, c.isDigit = true

/-- The whole part of a number: no zero stands in front of other digits. -/
def IsWhole (s : List Char) : Prop := IsDigits s ∧ (s.head? = some '0' → s = ['0'])

/-- The fraction of a number, with its digits. -/
inductive IsFraction : List Char → List Char → Prop
  | none : IsFraction [] []
  | digits {s : List Char} : IsDigits s → IsFraction ('.' :: s) s

/-- The exponent of a number, with its value. -/
inductive IsExponent : List Char → Int → Prop
  | none : IsExponent [] 0
  | plain {e : Char} {s : List Char} :
      e = 'e' ∨ e = 'E' → IsDigits s → IsExponent (e :: s) (Text.natOfDigits s)
  | plus {e : Char} {s : List Char} :
      e = 'e' ∨ e = 'E' → IsDigits s → IsExponent (e :: '+' :: s) (Text.natOfDigits s)
  | minus {e : Char} {s : List Char} :
      e = 'e' ∨ e = 'E' → IsDigits s → IsExponent (e :: '-' :: s) (-Text.natOfDigits s)

/-- The sign of a number. -/
def signText (negative : Bool) : List Char := if negative then ['-'] else []

/-- A number. The digits of whole part and fraction are read in one row. -/
inductive IsNumeral : List Char → Numeral → Prop
  | mk {whole frac digits exp : List Char} {x : Int} (negative : Bool) :
      IsWhole whole → IsFraction frac digits → IsExponent exp x →
      IsNumeral (signText negative ++ whole ++ frac ++ exp)
        ⟨negative, Text.natOfDigits (whole ++ digits), x - digits.length⟩

mutual

/-- A value. -/
inductive IsValue : List Char → Tree → Prop
  | null : IsValue ['n', 'u', 'l', 'l'] .null
  | bool (b : Bool) : IsValue (boolText b) (.bool b)
  | number {s : List Char} {n : Numeral} : IsNumeral s n → IsValue s (.number n)
  | text {s : List Char} {t : String} : IsString s t → IsValue s (.text t)
  | emptyList {g : List Char} : IsGap g → IsValue ('[' :: g ++ [']']) (.list [])
  | list {s : List Char} {ts : List Tree} : IsItems s ts → IsValue ('[' :: s ++ [']']) (.list ts)
  | emptyObject {g : List Char} : IsGap g → IsValue ('\x7b' :: g ++ ['\x7d']) (.object [])
  | object {s : List Char} {ms : List (String × Tree)} :
      IsMembers s ms → IsValue ('\x7b' :: s ++ ['\x7d']) (.object ms)

/-- A value with gaps around it. -/
inductive IsElement : List Char → Tree → Prop
  | mk {g s h : List Char} {t : Tree} :
      IsGap g → IsValue s t → IsGap h → IsElement (g ++ s ++ h) t

/-- Elements with commas between them, at least one. -/
inductive IsItems : List Char → List Tree → Prop
  | one {s : List Char} {t : Tree} : IsElement s t → IsItems s [t]
  | more {s r : List Char} {t : Tree} {ts : List Tree} :
      IsElement s t → IsItems r ts → IsItems (s ++ ',' :: r) (t :: ts)

/-- Members with commas between them, at least one. -/
inductive IsMembers : List Char → List (String × Tree) → Prop
  | one {g k h s : List Char} {name : String} {t : Tree} :
      IsGap g → IsString k name → IsGap h → IsElement s t →
      IsMembers (g ++ k ++ h ++ ':' :: s) [(name, t)]
  | more {g k h s r : List Char} {name : String} {t : Tree} {ms : List (String × Tree)} :
      IsGap g → IsString k name → IsGap h → IsElement s t → IsMembers r ms →
      IsMembers (g ++ k ++ h ++ ':' :: s ++ ',' :: r) ((name, t) :: ms)

end

/-! ## A reader -/

/-- Takes the rest of a string whose opening quote has been taken. -/
def takeUnits : List Char → Option (List StringUnit × List Char)
  | [] => none
  | '"' :: s => some ([], s)
  | '\\' :: 'u' :: a :: b :: c :: d :: s =>
    match hexValue4? a b c d, takeUnits s with
    | some n, some (us, rest) => some (.ofCode n :: us, rest)
    | _, _ => none
  | '\\' :: e :: s =>
    match unescape? e, takeUnits s with
    | some c, some (us, rest) => some (.char c :: us, rest)
    | _, _ => none
  | c :: s =>
    if c.toNat < 0x20 ∨ c = '\\' then none
    else
      match takeUnits s with
      | some (us, rest) => some (.char c :: us, rest)
      | none => none

/-- Takes a string. -/
def takeString : List Char → Option (String × List Char)
  | '"' :: s => (takeUnits s).map fun (us, rest) => (String.ofList (joinUnits us), rest)
  | _ => none

/-- Takes digits, at least one. -/
def takeDigits (s : List Char) : Option (List Char × List Char) :=
  match s.takeWhile Char.isDigit with
  | [] => none
  | digits => some (digits, s.dropWhile Char.isDigit)

/-- Takes the whole part of a number. -/
def takeWhole (s : List Char) : Option (List Char × List Char) :=
  match takeDigits s with
  | some (digits, rest) =>
    if digits.head? = some '0' ∧ digits ≠ ['0'] then none else some (digits, rest)
  | none => none

/-- Takes a fraction, if there is one. -/
def takeFraction : List Char → Option (List Char × List Char)
  | '.' :: s => takeDigits s
  | s => some ([], s)

/-- Takes an exponent whose letter has been taken. -/
def takeSigned : List Char → Option (Int × List Char)
  | '+' :: s => (takeDigits s).map fun (digits, rest) => (Text.natOfDigits digits, rest)
  | '-' :: s => (takeDigits s).map fun (digits, rest) => (-Text.natOfDigits digits, rest)
  | s => (takeDigits s).map fun (digits, rest) => (Text.natOfDigits digits, rest)

/-- Takes an exponent, if there is one. -/
def takeExponent : List Char → Option (Int × List Char)
  | 'e' :: s => takeSigned s
  | 'E' :: s => takeSigned s
  | s => some (0, s)

/-- Takes a number of which a sign has been taken. -/
def takeUnsigned (negative : Bool) (s : List Char) : Option (Numeral × List Char) := do
  let (whole, s) ← takeWhole s
  let (digits, s) ← takeFraction s
  let (x, s) ← takeExponent s
  return (⟨negative, Text.natOfDigits (whole ++ digits), x - digits.length⟩, s)

/-- Takes a number. -/
def takeNumeral : List Char → Option (Numeral × List Char)
  | '-' :: s => takeUnsigned true s
  | s => takeUnsigned false s

mutual

/-- Takes a value; the number bounds the nesting. -/
def takeValue : Nat → List Char → Option (Tree × List Char)
  | 0, _ => none
  | _ + 1, 'n' :: 'u' :: 'l' :: 'l' :: s => some (.null, s)
  | _ + 1, 't' :: 'r' :: 'u' :: 'e' :: s => some (.bool true, s)
  | _ + 1, 'f' :: 'a' :: 'l' :: 's' :: 'e' :: s => some (.bool false, s)
  | _ + 1, '"' :: s => (takeString ('"' :: s)).map fun (t, rest) => (.text t, rest)
  | n + 1, '[' :: s =>
    match skipGap s with
    | ']' :: rest => some (.list [], rest)
    | _ => (takeItems n s).map fun (ts, rest) => (.list ts, rest)
  | n + 1, '\x7b' :: s =>
    match skipGap s with
    | '\x7d' :: rest => some (.object [], rest)
    | _ => (takeMembers n s).map fun (ms, rest) => (.object ms, rest)
  | _ + 1, s => (takeNumeral s).map fun (x, rest) => (.number x, rest)

/-- Takes the items of a list and its closing bracket. -/
def takeItems : Nat → List Char → Option (List Tree × List Char)
  | 0, _ => none
  | n + 1, s => do
    let (t, s) ← takeValue n (skipGap s)
    match skipGap s with
    | ',' :: s => (takeItems n s).map fun (ts, rest) => (t :: ts, rest)
    | ']' :: rest => some ([t], rest)
    | _ => none

/-- Takes the members of an object and its closing brace. -/
def takeMembers : Nat → List Char → Option (List (String × Tree) × List Char)
  | 0, _ => none
  | n + 1, s => do
    let (name, s) ← takeString (skipGap s)
    match skipGap s with
    | ':' :: s => do
      let (t, s) ← takeValue n (skipGap s)
      match skipGap s with
      | ',' :: s => (takeMembers n s).map fun (ms, rest) => ((name, t) :: ms, rest)
      | '\x7d' :: rest => some ([(name, t)], rest)
      | _ => none
    | _ => none

end

/-- What a JSON text stands for. -/
def Tree.ofText? (s : List Char) : Option Tree :=
  match takeValue (2 * s.length) (skipGap s) with
  | some (t, rest) => if skipGap rest = [] then some t else none
  | none => none

/-- What a JSON text stands for that is given by its bytes. -/
def Tree.ofBytes? (bytes : Bytes) : Option Tree := (Utf8.decode? bytes).bind Tree.ofText?

end Logbook.Json
