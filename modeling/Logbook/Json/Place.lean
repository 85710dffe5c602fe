import Logbook.Text.Search
import Logbook.Text.Number
import Logbook.Decimal.Shortest

/-!
# Places in a document

A reason in somebody's own words may end with the place of the error: ` at line 3 column 14`. The
numbers are written anew, without zeros in front, and a place in line zero is none at all.
-/

namespace Logbook.Json

/-- The largest number of a line or a column. -/
def largestPlace : Nat := 18446744073709551615

/-- Line and column of a place, given what follows the words ` at line `. -/
def readPlace? (s : List Char) : Option (Nat × Nat) := do
  let column ← " column ".toList.isPrefixOf? (s.dropWhile Char.isDigit)
  if column.all Char.isDigit then
    return (← Text.readNat? largestPlace (s.takeWhile Char.isDigit),
      ← Text.readNat? largestPlace column)
  else none

/-- A place in words; nothing for line zero. -/
def placeText (line column : Nat) : List Char :=
  if line = 0 then []
  else
    " at line ".toList ++ Decimal.digitsOf line ++ " column ".toList ++ Decimal.digitsOf column

/-- A reason with its place, if it has one, written anew. -/
def placed (reason : List Char) : List Char :=
  match Text.cutLast? " at line ".toList reason with
  | none => reason
  | some (front, rest) =>
    match readPlace? rest with
    | none => reason
    | some (line, column) => front ++ placeText line column

/-- A reason in somebody's own words. -/
def ownWords (reason : String) : String := String.ofList (placed reason.toList)

end Logbook.Json
