import Logbook.Time.Stamp
import Logbook.Text.Search

/-!
# Time patterns

A pattern is text with specifiers, each a percent sign and what follows it. `Pattern.read` splits a
pattern into items, `Pattern.render?` writes a stamp by them. A pattern with a malformed specifier
renders nothing; `Pattern.write` shows how far it gets.

Between the percent sign and a numeric specifier, `-` leaves out the padding, `_` pads with spaces
and `0` with zeros. Other specifiers, and those that stand for several items, admit none of the
three.
-/

namespace Logbook.Time

open Decimal (digitsOf)

namespace Pattern

/-- What a number narrower than its field is filled up with. -/
inductive Pad where
  | none | zero | space
  deriving DecidableEq, Repr

/-- A number that a stamp has. -/
inductive Field where
  | year | century | yearOfCentury | isoYear | isoYearOfCentury | quarter | month | day
  | weekFromSunday | weekFromMonday | isoWeek | daysFromSunday | dayFromMonday | dayOfYear
  | hour | hour12 | minute | second | nanosecond | timestamp
  deriving DecidableEq, Repr

/-- How an offset is written. -/
inductive OffsetForm where
  | minutes | minutesColon | seconds | hours | name
  deriving DecidableEq, Repr

/-- A part of a pattern. -/
inductive Item where
  /-- A character that stands for itself. -/
  | text (c : Char)
  | number (field : Field) (pad : Pad)
  | weekday (short : Bool)
  | month (short : Bool)
  /-- The half of the day. -/
  | half (upper : Bool)
  /-- The fraction of the second with as many digits as needed. -/
  | fraction
  /-- The first `digits` digits of the fraction. -/
  | fractionDigits (point : Bool) (digits : Nat)
  | offset (form : OffsetForm)
  | rfc3339
  /-- An offset that can only be read. -/
  | unwritable
  /-- Something that is no specifier. -/
  | malformed
  deriving DecidableEq, Repr

def zeroed (field : Field) : Item := .number field .zero

def spaced (field : Field) : Item := .number field .space

def clock : List Item :=
  [zeroed .hour, .text ':', zeroed .minute, .text ':', zeroed .second]

/-- The items of a specifier of one letter. -/
def letter : Char → List Item
  | 'A' => [.weekday false]
  | 'B' => [.month false]
  | 'C' => [zeroed .century]
  | 'D' => [zeroed .month, .text '/', zeroed .day, .text '/', zeroed .yearOfCentury]
  | 'F' => [zeroed .year, .text '-', zeroed .month, .text '-', zeroed .day]
  | 'G' => [zeroed .isoYear]
  | 'H' => [zeroed .hour]
  | 'I' => [zeroed .hour12]
  | 'M' => [zeroed .minute]
  | 'P' => [.half false]
  | 'R' => [zeroed .hour, .text ':', zeroed .minute]
  | 'S' => [zeroed .second]
  | 'T' => clock
  | 'U' => [zeroed .weekFromSunday]
  | 'V' => [zeroed .isoWeek]
  | 'W' => [zeroed .weekFromMonday]
  | 'X' => clock
  | 'Y' => [zeroed .year]
  | 'Z' => [.offset .name]
  | 'a' => [.weekday true]
  | 'b' => [.month true]
  | 'c' => [.weekday true, .text ' ', .month true, .text ' ', spaced .day, .text ' '] ++ clock ++
      [.text ' ', zeroed .year]
  | 'd' => [zeroed .day]
  | 'e' => [spaced .day]
  | 'f' => [zeroed .nanosecond]
  | 'g' => [zeroed .isoYearOfCentury]
  | 'h' => [.month true]
  | 'j' => [zeroed .dayOfYear]
  | 'k' => [spaced .hour]
  | 'l' => [spaced .hour12]
  | 'm' => [zeroed .month]
  | 'n' => [.text '\n']
  | 'p' => [.half true]
  | 'q' => [.number .quarter .none]
  | 'r' => [zeroed .hour12, .text ':', zeroed .minute, .text ':', zeroed .second, .text ' ',
      .half true]
  | 's' => [.number .timestamp .none]
  | 't' => [.text '\t']
  | 'u' => [.number .dayFromMonday .none]
  | 'v' => [spaced .day, .text '-', .month true, .text '-', zeroed .year]
  | 'w' => [.number .daysFromSunday .none]
  | 'x' => [zeroed .month, .text '/', zeroed .day, .text '/', zeroed .yearOfCentury]
  | 'y' => [zeroed .yearOfCentury]
  | 'z' => [.offset .minutes]
  | '+' => [.rfc3339]
  | '%' => [.text '%']
  | _ => [.malformed]

/-- A specifier without a padding mark: its items and how many characters it takes. -/
def unmarked : List Char → List Item × Nat
  | ':' :: 'z' :: _ => ([.offset .minutesColon], 2)
  | ':' :: ':' :: 'z' :: _ => ([.offset .seconds], 3)
  | ':' :: ':' :: ':' :: 'z' :: _ => ([.offset .hours], 4)
  | '.' :: 'f' :: _ => ([.fraction], 2)
  | '.' :: '3' :: 'f' :: _ => ([.fractionDigits true 3], 3)
  | '.' :: '6' :: 'f' :: _ => ([.fractionDigits true 6], 3)
  | '.' :: '9' :: 'f' :: _ => ([.fractionDigits true 9], 3)
  | '3' :: 'f' :: _ => ([.fractionDigits false 3], 2)
  | '6' :: 'f' :: _ => ([.fractionDigits false 6], 2)
  | '9' :: 'f' :: _ => ([.fractionDigits false 9], 2)
  | c :: _ => (letter c, 1)
  | [] => ([.malformed], 0)

/-- A specifier with a padding mark in front of `s`; the mark counts as one character. -/
def marked (pad : Pad) (s : List Char) : List Item × Nat :=
  match unmarked s with
  | ([.number field _], n) => ([.number field pad], n + 1)
  | (_, n) => ([.malformed], n + 1)

/-- What follows a percent sign: its items and how many characters they take. -/
def specifier : List Char → List Item × Nat
  | '-' :: s => marked .none s
  | '_' :: s => marked .space s
  | '0' :: s => marked .zero s
  | '#' :: 'z' :: _ => ([.unwritable], 2)
  | s => unmarked s

/-- Reads items; `skip` characters at the front were part of the last one. -/
def readFrom : Nat → List Char → List Item
  | _, [] => []
  | n + 1, _ :: s => readFrom n s
  | 0, c :: s =>
    if c = '%' then
      let (items, n) := specifier s
      items ++ readFrom n s
    else .text c :: readFrom 0 s

def read (pattern : List Char) : List Item := readFrom 0 pattern

/-- Whether every specifier of a pattern is one. -/
def isValid (pattern : List Char) : Bool := !(read pattern).contains .malformed

/-- A number of up to two digits. Only the low eight bits of it are kept, and their tens are counted
on past the digit nine. -/
def twoDigits (pad : Pad) (n : Int) : List Char :=
  let n := (n % 256).toNat
  let tens := match n / 10, pad with
    | 0, .none => []
    | 0, .space => [' ']
    | t, _ => [Char.ofNat ('0'.toNat + t)]
  tens ++ [Char.ofNat ('0'.toNat + n % 10)]

/-- The sign of a number: a plus only where it is asked for. -/
def signOf (plus : Bool) (n : Int) : List Char :=
  if n < 0 then ['-'] else if plus then ['+'] else []

/-- A number in a field of `width` characters, which count the sign. -/
def inField (width : Nat) (pad : Pad) (plus : Bool) (n : Int) : List Char :=
  let sign := signOf plus n
  let digits := digitsOf n.natAbs
  match pad with
  | .none => sign ++ digits
  | .zero => sign ++ fillLeft '0' (width - sign.length) digits
  | .space => fillLeft ' ' width (sign ++ digits)

/-- A year: four characters, or five with a sign beyond the years from 0 to 9999. -/
def yearField (pad : Pad) (year : Int) : List Char :=
  if 0 ≤ year && year ≤ 9999 then inField 4 pad false year else inField 5 pad true year

/-- The hour on a clock face. -/
def clockFace (hour : Nat) : Nat := if hour % 12 = 0 then 12 else hour % 12

def Field.render (t : Stamp) (pad : Pad) : Field → List Char
  | .year => yearField pad t.date.year
  | .century => twoDigits pad (t.date.year / 100)
  | .yearOfCentury => twoDigits pad (t.date.year % 100)
  | .isoYear => yearField pad (Time.isoWeek t.localDay).1
  | .isoYearOfCentury => twoDigits pad ((Time.isoWeek t.localDay).1 % 100)
  | .quarter => digitsOf ((t.date.month - 1) / 3 + 1)
  | .month => twoDigits pad t.date.month
  | .day => twoDigits pad t.date.day
  | .weekFromSunday => twoDigits pad (weekFrom 6 t.localDay)
  | .weekFromMonday => twoDigits pad (weekFrom 0 t.localDay)
  | .isoWeek => twoDigits pad (Time.isoWeek t.localDay).2
  | .daysFromSunday => digitsOf ((Time.weekday t.localDay + 1) % 7)
  | .dayFromMonday => digitsOf (Time.weekday t.localDay + 1)
  | .dayOfYear => inField 3 pad false (Time.dayOfYear t.localDay)
  | .hour => twoDigits pad t.hour
  | .hour12 => twoDigits pad (clockFace t.hour)
  | .minute => twoDigits pad t.minute
  | .second => twoDigits pad t.second
  | .nanosecond => inField 9 pad false t.fraction
  | .timestamp => inField 9 pad false t.moment.seconds

/-- A name or its first three letters. -/
def nameText (short : Bool) (names : List String) (i : Nat) : List Char :=
  let name := (names.getD i "").toList
  if short then name.take 3 else name

def halfText (upper : Bool) (hour : Nat) : List Char :=
  if hour < 12 then (if upper then ['A', 'M'] else ['a', 'm'])
  else if upper then ['P', 'M'] else ['p', 'm']

def OffsetForm.render (offset : Int) : OffsetForm → List Char
  | .minutes => offsetMinutes false offset
  | .minutesColon => offsetMinutes true offset
  | .seconds => offsetSeconds offset
  | .hours => offsetHours offset
  | .name => offsetName offset

/-- An item of a stamp; nothing for an item that cannot be written. -/
def Item.render? (t : Stamp) : Item → Option (List Char)
  | .text c => some [c]
  | .number field pad => some (field.render t pad)
  | .weekday short => some (nameText short weekdayNames (Time.weekday t.localDay))
  | .month short => some (nameText short monthNames (t.date.month - 1))
  | .half upper => some (halfText upper t.hour)
  | .fraction => some (fractionText t.fraction)
  | .fractionDigits point digits =>
    some ((if point then ['.'] else []) ++ (zeroPadded 9 t.fraction).take digits)
  | .offset form => some (form.render t.offset)
  | .rfc3339 => some t.rfc3339
  | .unwritable => none
  | .malformed => none

def renderItems? (t : Stamp) : List Item → Option (List Char)
  | [] => some []
  | item :: items => do
    let head ← item.render? t
    let rest ← renderItems? t items
    return head ++ rest

def render? (pattern : List Char) (t : Stamp) : Option (List Char) := renderItems? t (read pattern)

/-- Writes a stamp item by item, until one of them cannot be written: what is written by then, and
whether that is all. -/
def writeItems (t : Stamp) : List Item → List Char × Bool
  | [] => ([], true)
  | item :: items =>
    match item.render? t with
    | none => ([], false)
    | some head =>
      let (rest, complete) := writeItems t items
      (head ++ rest, complete)

def write (pattern : List Char) (t : Stamp) : List Char × Bool := writeItems t (read pattern)

end Pattern

end Logbook.Time
