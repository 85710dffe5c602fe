import Logbook.Decimal.Binary

/-!
# Shortest decimals

The decimal with the fewest digits that reads back as a given binary number, and of those the
nearest one; of two that are equally near, a tie rule chooses. All reals closer to the number than
to its neighbours read back as it; the two borders do so when the mantissa is even. Grids of one
digit, two digits and so on are tried in turn, and on each grid the two points around the number.
-/

namespace Logbook.Decimal

/-- `digits`, read with a point after the first of them, times `10 ^ exponent`. -/
structure Scientific where
  digits : List Char
  exponent : Int
  deriving DecidableEq, Repr

def digitsOf (n : Nat) : List Char := Nat.toDigits 10 n

/-- The digits of `n` without zeros at the end. -/
def significantDigits (n : Nat) : List Char :=
  ((digitsOf n).reverse.dropWhile (· == '0')).reverse

/-- The reals that read back as one binary number: from `value - below` to `value + above`, as
multiples of `1 / scale`, with or without the ends. -/
structure Interval where
  value : Nat
  below : Nat
  above : Nat
  scale : Nat
  closed : Bool

/-- The interval of `mantissa * 2 ^ power`. -/
def Interval.of (mantissa : Nat) (power : Int) (narrow : Bool) : Interval :=
  -- a quarter of the last place of the mantissa
  let (unit, scale) := scale2 1 4 power
  { value := 4 * mantissa * unit
    below := if narrow then unit else 2 * unit
    above := 2 * unit
    scale := scale
    closed := mantissa % 2 == 0 }

/-- Whether `n` lies within `i`, for `n` on the scale of `i` times `grid`. -/
def Interval.holds (i : Interval) (grid n : Nat) : Bool :=
  let low := (i.value - i.below) * grid
  let high := (i.value + i.above) * grid
  if i.closed then low ≤ n && n ≤ high else low < n && n < high

/-- Which of two neighbouring points is taken for a value half way between them. -/
inductive Tie where
  /-- The upper one. -/
  | up
  /-- The even one. -/
  | even
  deriving DecidableEq, Repr

/-- The nearer of `floor` and `floor + 1`, given the distances to both. -/
def Tie.nearer (tie : Tie) (floor toFloor toNext : Nat) : Nat :=
  if toFloor < toNext then floor
  else if toNext < toFloor then floor + 1
  else
    match tie with
    | .up => floor + 1
    | .even => floor + floor % 2

/-- The exponent of the power of ten at or below `num / den`, which is positive. -/
def floorLog10 (num den : Nat) : Int :=
  if den ≤ num then ((digitsOf (num / den)).length - 1 : Nat)
  else -((digitsOf ((den - 1) / num)).length : Int)

/-- The point of the grid `10 ^ step` that lies in `i` next to its value, the nearer one of two. -/
def Interval.point? (i : Interval) (tie : Tie) (step : Int) : Option Nat :=
  -- everything is multiplied by `grid`, so that the grid consists of the multiples of `unit`
  let (unit, grid) := scale10 i.scale 1 step
  let value := i.value * grid
  let floor := value / unit
  let down := i.holds grid (floor * unit)
  let up := i.holds grid ((floor + 1) * unit)
  if down && up then
    some (tie.nearer floor (value - floor * unit) ((floor + 1) * unit - value))
  else if down then some floor
  else if up then some (floor + 1)
  else none

/-- The first of the grids with `digits`, `digits + 1`, ... digits that has a point in `i`; `tries`
grids are looked at. -/
def Interval.firstPoint (i : Interval) (tie : Tie) (log : Int) : Nat → Nat → Scientific
  | 0, _ => ⟨['0'], 0⟩
  | tries + 1, digits =>
    let step := log - ((digits : Int) - 1)
    match i.point? tie step with
    | some n => ⟨significantDigits n, step + ((digitsOf n).length : Int) - 1⟩
    | none => i.firstPoint tie log tries (digits + 1)

/-- The shortest decimal for `mantissa * 2 ^ power`, zero included. Seventeen digits are enough for
every double. -/
def shortest (tie : Tie) (mantissa : Nat) (power : Int) (narrow : Bool) : Scientific :=
  if mantissa = 0 then ⟨['0'], 0⟩
  else
    let i := Interval.of mantissa power narrow
    i.firstPoint tie (floorLog10 i.value i.scale) 17 1

end Logbook.Decimal
