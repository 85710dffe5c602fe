import Logbook.Time.Moment
import Logbook.Time.Date
import Logbook.Decimal.Shortest

/-!
# Stamps

A stamp is a moment as a clock at some offset from UTC shows it. `Stamp.rfc3339` and
`Stamp.inspect` write stamps in full, with as many groups of three fractional digits as needed.
-/

namespace Logbook.Time

open Decimal (digitsOf)

/-- A moment and the seconds by which the local clock is ahead of UTC. -/
structure Stamp where
  moment : Moment
  offset : Int
  deriving DecidableEq, Repr

/-- `digits` filled up on the left to `width` characters. -/
def fillLeft (c : Char) (width : Nat) (digits : List Char) : List Char :=
  List.replicate (width - digits.length) c ++ digits

/-- A number with at least `width` digits. -/
def zeroPadded (width n : Nat) : List Char := fillLeft '0' width (digitsOf n)

namespace Stamp

def localSeconds (t : Stamp) : Int := t.moment.seconds + t.offset

def localDay (t : Stamp) : Int := t.localSeconds / 86400

def date (t : Stamp) : Date := Date.ofDay t.localDay

def secondOfDay (t : Stamp) : Nat := (t.localSeconds % 86400).toNat

def hour (t : Stamp) : Nat := t.secondOfDay / 3600

def minute (t : Stamp) : Nat := t.secondOfDay / 60 % 60

/-- The local second, which is 60 in a leap second. -/
def second (t : Stamp) : Nat := t.secondOfDay % 60 + t.moment.nanos / nanosPerSecond

/-- Nanoseconds within the second. -/
def fraction (t : Stamp) : Nat := t.moment.nanos % nanosPerSecond

end Stamp

/-- A point and the fewest groups of three digits that show `nanos`; nothing for zero. -/
def fractionText (nanos : Nat) : List Char :=
  if nanos = 0 then []
  else if nanos % 1000000 = 0 then '.' :: zeroPadded 3 (nanos / 1000000)
  else if nanos % 1000 = 0 then '.' :: zeroPadded 6 (nanos / 1000)
  else '.' :: zeroPadded 9 nanos

/-- The sign of an offset. -/
def offsetSign (offset : Int) : Char := if offset < 0 then '-' else '+'

/-- Hours and minutes of an offset, to the nearest minute. -/
def offsetMinutes (colon : Bool) (offset : Int) : List Char :=
  let minutes := (offset.natAbs + 30) / 60
  offsetSign offset :: zeroPadded 2 (minutes / 60) ++ (if colon then [':'] else []) ++
    zeroPadded 2 (minutes % 60)

def offsetSeconds (offset : Int) : List Char :=
  let n := offset.natAbs
  offsetSign offset :: zeroPadded 2 (n / 3600) ++ ':' :: zeroPadded 2 (n / 60 % 60) ++
    ':' :: zeroPadded 2 (n % 60)

def offsetHours (offset : Int) : List Char :=
  offsetSign offset :: zeroPadded 2 (offset.natAbs / 3600)

/-- An offset with its seconds only where there are some. -/
def offsetName (offset : Int) : List Char :=
  let n := offset.natAbs
  offsetSign offset :: zeroPadded 2 (n / 3600) ++ ':' :: zeroPadded 2 (n / 60 % 60) ++
    (if n % 60 = 0 then [] else ':' :: zeroPadded 2 (n % 60))

/-- A number with its sign, filled up with zeros after the sign to `width` characters. -/
def signedPadded (width : Nat) (n : Int) : List Char :=
  (if n < 0 then '-' else '+') :: zeroPadded (width - 1) n.natAbs

/-- A year with four digits; one that needs more has a sign. -/
def yearText (year : Int) : List Char :=
  if 0 ≤ year && year ≤ 9999 then zeroPadded 4 year.toNat else signedPadded 5 year

namespace Stamp

/-- Local date and time with `T` between them. -/
def dateTime (t : Stamp) : List Char :=
  yearText t.date.year ++ '-' :: zeroPadded 2 t.date.month ++ '-' :: zeroPadded 2 t.date.day ++
    'T' :: zeroPadded 2 t.hour ++ ':' :: zeroPadded 2 t.minute ++ ':' :: zeroPadded 2 t.second ++
    fractionText t.fraction

/-- The form of RFC 3339, with the offset to the nearest minute. -/
def rfc3339 (t : Stamp) : List Char := t.dateTime ++ offsetMinutes true t.offset

/-- The form for inspection, with the exact offset. -/
def inspect (t : Stamp) : List Char := t.dateTime ++ offsetName t.offset

end Stamp

end Logbook.Time
