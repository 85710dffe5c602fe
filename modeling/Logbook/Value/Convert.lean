import Logbook.Value.Encode
import Logbook.TimeFormat

/-!
# Making values

Values from data of other kinds: numbers of other widths, lengths of time, sorted tables,
documents, failures, and anything with a text of its own.
-/

namespace Logbook

/-- A length of time: seconds, and nanoseconds below one second. -/
structure Duration where
  seconds : Nat
  nanos : Nat
  deriving DecidableEq, Repr

namespace Duration

/-- The most seconds of a length of time. -/
def mostSeconds : Nat := 18446744073709551615

/-- A length of time, where full seconds among the nanoseconds are counted as such; nothing if it is
too long. -/
def of? (seconds nanos : Nat) : Option Duration :=
  let full := seconds + nanos / Time.nanosPerSecond
  if full ≤ mostSeconds then some ⟨full, nanos % Time.nanosPerSecond⟩ else none

/-- A number of units with a fraction of `width` digits, whose last zeros are left out. -/
def inUnit (whole fraction width : Nat) (unit : String) : List Char :=
  let digits := ((Time.zeroPadded width fraction).reverse.dropWhile (· == '0')).reverse
  Decimal.digitsOf whole ++ (if digits.isEmpty then [] else '.' :: digits) ++ unit.toList

/-- A length of time in the largest unit of which it has at least one. -/
def text (d : Duration) : List Char :=
  if 0 < d.seconds then inUnit d.seconds d.nanos 9 "s"
  else if 1000000 ≤ d.nanos then inUnit (d.nanos / 1000000) (d.nanos % 1000000) 6 "ms"
  else if 1000 ≤ d.nanos then inUnit (d.nanos / 1000) (d.nanos % 1000) 3 "µs"
  else inUnit d.nanos 0 0 "ns"

end Duration

namespace Value

def ofDuration (d : Duration) : Value := .text (String.ofList d.text)

def ofSingle (bits : UInt32) : Value :=
  .float (UInt64.ofNat (Decimal.Binary.ofSingle bits).toDouble)

/-- A value that describes itself by a text. -/
def described (s : String) : Value := .custom (.mk none none (some s) none .null)

def ofLevel (level : Level) : Value := described level.name

/-- A time format shown by its name or pattern. -/
def ofTimeFormat (format : TimeFormat) : Value := described format.name

def ofError (e : LogError) : Value := .custom (.mk none none none (some e.message) .null)

def ofDocument (d : Json.Document) : Value :=
  let body := match d.write with
    | .ok s => .ok (Utf8.encode s)
    | .error e => .error e.message
  .custom (.mk (some body) none none none .null)

/-- A value, or null where there is none. -/
def ofOption : Option Value → Value
  | some v => v
  | none => .null

/-- Puts an entry into a table sorted by `before`. An entry with the same key is replaced. -/
def insertSorted {α : Type} (before : α → α → Bool) (key : α) (value : Value) :
    List (α × Value) → List (α × Value)
  | [] => [(key, value)]
  | (k, v) :: rest =>
    if before key k then (key, value) :: (k, v) :: rest
    else if before k key then (k, v) :: insertSorted before key value rest
    else (key, value) :: rest

/-- A map of the given entries in the order of their keys. -/
def ofTable {α : Type} (before : α → α → Bool) (ofKey : α → Value) (entries : List (α × Value)) :
    Value :=
  let sorted := entries.foldl (fun table (k, v) => insertSorted before k v table) []
  .map (sorted.map fun (k, v) => (ofKey k, v))

end Value

/-- A part of a message that is put together from values. -/
inductive MessagePart where
  | text (s : String)
  | int (n : Int)
  | bool (b : Bool)
  | float (bits : UInt64)

def MessagePart.render : MessagePart → List Char
  | text s => s.toList
  | int n => Json.intText n
  | bool b => Json.boolText b
  | float bits => (Decimal.Binary.ofDouble bits).layout .plain .text

/-- Message parts with a space between each two of them. -/
def joinParts (parts : List MessagePart) : List Char := Text.join [' '] (parts.map (·.render))

end Logbook
