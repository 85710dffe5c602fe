import Logbook.Decimal.Shortest

/-!
# Laying out decimals

A decimal is written positionally or with an exponent. A `Style` says for which exponents the one
or the other is used, what is written when there is no fraction, and which of two shortest decimals
is chosen when both are equally near.

| style            | positional          | whole numbers | exponent        | ties    |
|------------------|---------------------|---------------|-----------------|---------|
| `plain`          | always              | `15`          |                 | up      |
| `inspected`      | `1e-4` up to `1e16` | `15.0`        | `1e16`, `1e-5`  | up      |
| `document`       | `1e-5` up to `1e16` | `15.0`        | `1e+16`, `1e-6` | to even |
| `documentSingle` | `1e-6` up to `1e13` | `15.0`        | `1e+13`, `1e-7` | to even |
-/

namespace Logbook.Decimal

/-- The conventions of one way to write numbers. -/
structure Style where
  /-- The exponents written positionally, the first and the last; every exponent if missing. -/
  positional? : Option (Int × Int)
  /-- Whether a whole number has `.0` behind it. -/
  point : Bool
  /-- Whether a positive exponent has its sign. -/
  plus : Bool
  /-- The choice between two decimals that are equally near. -/
  tie : Tie
  deriving DecidableEq, Repr

/-- Digits alone, whatever the size of the number. -/
def Style.plain : Style := ⟨none, false, false, .up⟩

def Style.inspected : Style := ⟨some (-4, 15), true, false, .up⟩

/-- The form of a 64-bit number in a JSON document. -/
def Style.document : Style := ⟨some (-5, 15), true, true, .even⟩

/-- The form of a 32-bit number in a JSON document. -/
def Style.documentSingle : Style := ⟨some (-6, 12), true, true, .even⟩

/-- The fraction `.0` where the style asks for it. -/
def Style.zeroFraction (style : Style) : List Char := if style.point then ['.', '0'] else []

def Scientific.positional (style : Style) (d : Scientific) : List Char :=
  if d.exponent < 0 then
    '0' :: '.' :: (List.replicate ((-d.exponent).toNat - 1) '0' ++ d.digits)
  else
    let whole := d.exponent.toNat + 1
    if d.digits.length ≤ whole then
      d.digits ++ List.replicate (whole - d.digits.length) '0' ++ style.zeroFraction
    else d.digits.take whole ++ '.' :: d.digits.drop whole

/-- Digits with an exponent: a point stands after the first of several digits. -/
def Scientific.exponential (style : Style) (d : Scientific) : List Char :=
  let mantissa := match d.digits with
    | first :: second :: rest => first :: '.' :: second :: rest
    | digits => digits
  let sign := if d.exponent < 0 then ['-'] else if style.plus then ['+'] else []
  mantissa ++ 'e' :: (sign ++ digitsOf d.exponent.natAbs)

def Scientific.layout (style : Style) (d : Scientific) : List Char :=
  match style.positional? with
  | none => d.positional style
  | some (low, high) =>
    if low ≤ d.exponent && d.exponent ≤ high then d.positional style else d.exponential style

/-- The texts for the numbers that are not finite. -/
structure Special where
  nan : List Char
  positive : List Char
  negative : List Char

/-- Names of the special numbers in a log line. -/
def Special.line : Special := ⟨"NaN".toList, "+Inf".toList, "-Inf".toList⟩

/-- Names of the special numbers in running text. -/
def Special.text : Special := ⟨"NaN".toList, "inf".toList, "-inf".toList⟩

/-- Names of the special numbers in a JSON document, which has none of them. -/
def Special.document : Special := ⟨"null".toList, "null".toList, "null".toList⟩

def Binary.layout (style : Style) (special : Special) : Binary → List Char
  | .nan => special.nan
  | .infinite negative => if negative then special.negative else special.positive
  | .finite negative mantissa power narrow =>
    (if negative then ['-'] else []) ++ (shortest style.tie mantissa power narrow).layout style

end Logbook.Decimal
