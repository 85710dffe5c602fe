import Logbook.Json.Place
import Logbook.Json.Quoted
import Logbook.Decimal.Layout
import Logbook.Level

/-!
# JSON documents

Data on its way into a document. Member names are data as well: numbers and truth values become
strings, anything else that is no string is refused, and the first refusal in writing order is the
one reported.
-/

namespace Logbook.Json

open Decimal (Binary)

/-- Data to be written. Floating-point numbers are given by their bits. -/
inductive Document where
  | null
  | bool (b : Bool)
  | int (n : Int)
  | double (bits : UInt64)
  | single (bits : UInt32)
  | text (s : String)
  | level (level : Level)
  | list (items : List Document)
  | object (members : List (Document × Document))
  /-- Data that cannot be written, for the given reason. -/
  | failing (reason : String)

/-- Why a document could not be written. -/
inductive WriteError where
  | keyNotText
  | keyNotFinite
  | failed (reason : String)
  deriving DecidableEq, Repr

def WriteError.message : WriteError → String
  | keyNotText => "key must be a string"
  | keyNotFinite => "float key must be finite (got NaN or +/-inf)"
  | failed reason => ownWords reason

def boolText (b : Bool) : List Char := (if b then "true" else "false").toList

def intText (n : Int) : List Char :=
  (if n < 0 then ['-'] else []) ++ Decimal.digitsOf n.natAbs

def doubleText (bits : UInt64) : List Char :=
  (Binary.ofDouble bits).layout .document .document

def singleText (bits : UInt32) : List Char :=
  (Binary.ofSingle bits).layout .documentSingle .document

def floatKey (b : Binary) (digits : List Char) : Except WriteError (List Char) :=
  if b.isFinite then .ok ('"' :: digits ++ ['"']) else .error .keyNotFinite

def Document.key : Document → Except WriteError (List Char)
  | .bool b => .ok ('"' :: boolText b ++ ['"'])
  | .int n => .ok ('"' :: intText n ++ ['"'])
  | .double bits => floatKey (Binary.ofDouble bits) (doubleText bits)
  | .single bits => floatKey (Binary.ofSingle bits) (singleText bits)
  | .text s => .ok (quote .document s.toList)
  | .level l => .ok (quote .document l.name.toList)
  | .failing reason => .error (.failed reason)
  | .null | .list _ | .object _ => .error .keyNotText

mutual

def Document.write : Document → Except WriteError (List Char)
  | .null => .ok "null".toList
  | .bool b => .ok (boolText b)
  | .int n => .ok (intText n)
  | .double bits => .ok (doubleText bits)
  | .single bits => .ok (singleText bits)
  | .text s => .ok (quote .document s.toList)
  | .level l => .ok (quote .document l.name.toList)
  | .list items => do
    let body ← Document.writeItems true items
    return '[' :: body ++ [']']
  | .object members => do
    let body ← Document.writeMembers true members
    return '\x7b' :: body ++ ['\x7d']
  | .failing reason => .error (.failed reason)

/-- The items of a list, each but the first with a comma before it. -/
def Document.writeItems (first : Bool) : List Document → Except WriteError (List Char)
  | [] => .ok []
  | item :: rest => do
    let head ← item.write
    let tail ← Document.writeItems false rest
    return (if first then [] else [',']) ++ head ++ tail

/-- The members of an object, each but the first with a comma before it. -/
def Document.writeMembers (first : Bool) :
    List (Document × Document) → Except WriteError (List Char)
  | [] => .ok []
  | (name, value) :: rest => do
    let key ← name.key
    let body ← value.write
    let tail ← Document.writeMembers false rest
    return (if first then [] else [',']) ++ key ++ ':' :: body ++ tail

end

end Logbook.Json
