import Logbook.Value.Basic
import Logbook.Json.Document

/-!
# Encoding values

The bytes of a value inside a line. Numbers have the fewest digits that read back and no exponent.
A value that describes itself as JSON is taken as it is, byte by byte; every other description
becomes a string, and so does the reason of one that fails.
-/

namespace Logbook

open Decimal (Binary)

/-- The text of a floating-point number in a line. -/
def floatText (bits : UInt64) : List Char :=
  (Binary.ofDouble bits).layout .plain .line

def quoteLine (s : String) : List Char := Json.quote .line s.toList

def hexText (n : Nat) : List Char := '0' :: 'x' :: Nat.toDigits 16 n

/-- The comma before every part but the first. -/
def comma (first : Bool) : Bytes := if first then [] else Utf8.encode [',']

mutual

def Value.encode : Value → Bytes
  | .null => Utf8.encode ['n', 'u', 'l', 'l']
  | .bool b => Utf8.encode (Json.boolText b)
  | .int n => Utf8.encode (Json.intText n)
  | .uint n => Utf8.encode (Decimal.digitsOf n)
  | .float bits => Utf8.encode (floatText bits)
  | .complex re im => Utf8.encode ('"' :: floatText re ++ '+' :: floatText im ++ ['i', '"'])
  | .text s => Utf8.encode (quoteLine s)
  | .time t => Utf8.encode (Json.quote .line t.rfc3339)
  | .address n => Utf8.encode (if n = 0 then ['n', 'u', 'l', 'l'] else hexText n)
  | .list items => Utf8.encode ['['] ++ Value.encodeItems true items ++ Utf8.encode [']']
  | .map pairs => Utf8.encode ['\x7b'] ++ Value.encodePairs true pairs ++ Utf8.encode ['\x7d']
  | .record fields =>
    Utf8.encode ['\x7b'] ++ Value.encodeFields true fields ++ Utf8.encode ['\x7d']
  | .custom c => c.encode

/-- The items of a list, each but the first with a comma before it. -/
def Value.encodeItems (first : Bool) : List Value → Bytes
  | [] => []
  | item :: rest => comma first ++ item.encode ++ Value.encodeItems false rest

/-- The pairs of a map. Keys are written like any other value. -/
def Value.encodePairs (first : Bool) : List (Value × Value) → Bytes
  | [] => []
  | (key, value) :: rest =>
    comma first ++ key.encode ++ Utf8.encode [':'] ++ value.encode ++ Value.encodePairs false rest

/-- The fields of a record that are not hidden. -/
def Value.encodeFields (first : Bool) : List Field → Bytes
  | [] => []
  | .mk declared tag? exported value :: rest =>
    match (Field.mk declared tag? exported value).name? with
    | some name =>
      comma first ++ Utf8.encode (quoteLine name) ++ Utf8.encode [':'] ++ value.encode ++
        Value.encodeFields false rest
    | none => Value.encodeFields first rest

/-- The first description that a value has. -/
def Custom.encode : Custom → Bytes
  | .mk (some (.ok body)) _ _ _ _ => body
  | .mk (some (.error reason)) _ _ _ _ => Utf8.encode (quoteLine reason)
  | .mk none (some (.ok body)) _ _ _ =>
    Utf8.encode ('"' :: Json.escapeBytes .line body ++ ['"'])
  | .mk none (some (.error reason)) _ _ _ => Utf8.encode (quoteLine reason)
  | .mk none none (some text) _ _ => Utf8.encode (quoteLine text)
  | .mk none none none (some text) _ => Utf8.encode (quoteLine text)
  | .mk none none none none inner => inner.encode

end

end Logbook
