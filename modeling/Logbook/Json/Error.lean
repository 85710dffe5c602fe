import Logbook.Json.Document
import Logbook.Text.Literal

/-!
# Errors in JSON documents

What can be wrong with a document that is read as data of a known shape: its syntax, the kind or
the range of a value, a member given twice, a name of no level.
-/

namespace Logbook.Json

/-- What stands where something else was expected. -/
inductive Found where
  | null
  | bool (b : Bool)
  | int (n : Int)
  | float (bits : Nat)
  | text (s : String)
  | list
  | object
  deriving DecidableEq, Repr

/-- Why a document was refused. -/
inductive Error where
  | endInList
  | endInObject
  | endInString
  | endInValue
  | expectedColon
  | expectedListEnd
  | expectedObjectEnd
  | expectedWord
  | expectedValue
  | invalidEscape
  | invalidNumber
  | numberOutOfRange
  | controlCharacter
  | keyNotText
  | loneSurrogate
  | brokenSurrogatePair
  | trailingComma
  | trailingCharacters
  | wrongType (found : Found) (expected : String)
  | wrongValue (found : Found) (expected : String)
  | duplicate (name : String)
  | described (reason : String)
  deriving DecidableEq, Repr

def Found.message : Found → String
  | null => "null"
  | bool b => "boolean `" ++ String.ofList (boolText b) ++ "`"
  | int n => "integer `" ++ String.ofList (intText n) ++ "`"
  | float bits =>
    "floating point `" ++
      String.ofList ((Decimal.Binary.ofBits Decimal.double bits).layout .document .text) ++ "`"
  | text s => "string " ++ Text.literalString s
  | list => "sequence"
  | object => "map"

def Error.message : Error → String
  | endInList => "EOF while parsing a list"
  | endInObject => "EOF while parsing an object"
  | endInString => "EOF while parsing a string"
  | endInValue => "EOF while parsing a value"
  | expectedColon => "expected `:`"
  | expectedListEnd => "expected `,` or `]`"
  | expectedObjectEnd => "expected `,` or `\x7d`"
  | expectedWord => "expected ident"
  | expectedValue => "expected value"
  | invalidEscape => "invalid escape"
  | invalidNumber => "invalid number"
  | numberOutOfRange => "number out of range"
  | controlCharacter => "control character (\\u0000-\\u001F) found while parsing a string"
  | keyNotText => "key must be a string"
  | loneSurrogate => "lone leading surrogate in hex escape"
  | brokenSurrogatePair => "unexpected end of hex escape"
  | trailingComma => "trailing comma"
  | trailingCharacters => "trailing characters"
  | wrongType found expected => "invalid type: " ++ found.message ++ ", expected " ++ expected
  | wrongValue found expected => "invalid value: " ++ found.message ++ ", expected " ++ expected
  | duplicate name => "duplicate field `" ++ name ++ "`"
  | described reason => ownWords reason

end Logbook.Json
