import Logbook.Value.Encode
import Logbook.Text.Literal

/-!
# Inspecting values

The form of a value for people who look into a program: the kind of a value and its parts. Of a
value that describes itself only the kind is shown.
-/

namespace Logbook

open Decimal (Binary)

def inspectFloat (bits : UInt64) : List Char :=
  (Binary.ofDouble bits).layout .inspected .text

def inspectCall (kind : String) (parts : List Char) : List Char :=
  kind.toList ++ '(' :: parts ++ [')']

def inspectOption : Option String → List Char
  | some s => inspectCall "Some" (Text.literal s.toList)
  | none => "None".toList

/-- The separator before every part but the first. -/
def separator (first : Bool) : List Char := if first then [] else [',', ' ']

mutual

def Value.inspect : Value → List Char
  | .null => "Null".toList
  | .bool b => inspectCall "Bool" (Json.boolText b)
  | .int n => inspectCall "Int" (Json.intText n)
  | .uint n => inspectCall "Uint" (Decimal.digitsOf n)
  | .float bits => inspectCall "Float" (inspectFloat bits)
  | .complex re im =>
    inspectCall "Complex" (inspectFloat re ++ separator false ++ inspectFloat im)
  | .text s => inspectCall "String" (Text.literal s.toList)
  | .time t => inspectCall "Time" t.inspect
  | .address n => inspectCall "Address" (hexText n)
  | .list items => inspectCall "Seq" ('[' :: Value.inspectItems true items ++ [']'])
  | .map pairs => inspectCall "Map" ('[' :: Value.inspectPairs true pairs ++ [']'])
  | .record fields =>
    inspectCall "Struct" ("StructValue \x7b fields: [".toList ++ Value.inspectFields true fields ++
      "] \x7d".toList)
  | .custom _ => "Custom(..)".toList

def Value.inspectItems (first : Bool) : List Value → List Char
  | [] => []
  | item :: rest => separator first ++ item.inspect ++ Value.inspectItems false rest

def Value.inspectPairs (first : Bool) : List (Value × Value) → List Char
  | [] => []
  | (key, value) :: rest =>
    separator first ++ '(' :: key.inspect ++ separator false ++ value.inspect ++ ')' ::
      Value.inspectPairs false rest

/-- The fields of a record for inspection, hidden ones included. -/
def Value.inspectFields (first : Bool) : List Field → List Char
  | [] => []
  | .mk declared tag? exported value :: rest =>
    separator first ++ "StructField \x7b name: ".toList ++ Text.literal declared.toList ++
      ", tag: ".toList ++ inspectOption tag? ++ ", exported: ".toList ++ Json.boolText exported ++
      ", value: ".toList ++ value.inspect ++ " \x7d".toList ++ Value.inspectFields false rest

end

end Logbook
