/-!
# Whole numbers in text

Reading the digits `0` to `9`, with an optional plus sign in front.
-/

namespace Logbook.Text

def digitValue (c : Char) : Nat := c.toNat - '0'.toNat

/-- The number behind a row of digits. -/
def natOfDigits (digits : List Char) : Nat :=
  digits.foldl (fun n c => 10 * n + digitValue c) 0

/-- The number a text stands for: digits only, at least one, and perhaps a plus sign before them;
values above `limit` are refused. -/
def readNat? (limit : Nat) (s : List Char) : Option Nat :=
  let digits := match s with
    | '+' :: rest => rest
    | _ => s
  if digits.isEmpty || !digits.all Char.isDigit then none
  else
    let n := natOfDigits digits
    if n ≤ limit then some n else none

end Logbook.Text
