import Logbook.Record
import Logbook.Value.Inspect

/-!
# Entries

A call that is being put together. Fields are added one by one or in bulk. Added one by one, a few
keys do not become fields when their value is of the right kind, but direct the entry:

| key      | value      | effect                                         |
|----------|------------|------------------------------------------------|
| `time`   | a time     | becomes the time of the call                   |
| `depth`  | an integer | moves the number of frames that are passed over |
| `depth`  | a text     | chooses what is recorded of the caller         |
| `logger` | `true`     | marks the entry as one meant for a handle      |
-/

namespace Logbook

/-- A call that is being put together, for the backend with a number. -/
structure Entry where
  backend : Nat
  record : Record
  /-- Whether the entry is meant to become a handle. -/
  marked : Bool

/-- What adding a field amounts to. -/
inductive Attachment where
  | time (t : Time.Stamp)
  | adjust (delta : Int)
  | token (s : String)
  | mark
  | field (key : String) (value : Value)

/-- The largest step by which frames are passed over at once. -/
def largestStep : Int := 9223372036854775807

/-- What adding a field of this key and value amounts to. -/
def Attachment.of (key : String) (value : Value) : Attachment :=
  match value with
  | .time t => if key = "time" then .time t else .field key value
  | .int n => if key = "depth" then .adjust n else .field key value
  | .uint n => if key = "depth" then .adjust (min n largestStep) else .field key value
  | .text s => if key = "depth" then .token s else .field key value
  | .bool true => if key = "logger" then .mark else .field key value
  | value => .field key value

namespace Entry

def attach (e : Entry) : Attachment → Entry
  | .time t => { e with record.time? := some t }
  | .adjust delta => { e with record.caller := e.record.caller.adjust delta }
  | .token s => { e with record.caller := e.record.caller.apply s }
  | .mark => { e with marked := true }
  | .field key value =>
    { e with record.keys := e.record.keys ++ [key], record.vals := e.record.vals ++ [value] }

/-- Adds one field, or does what its key asks for. -/
def withField (e : Entry) (key : String) (value : Value) : Entry := e.attach (.of key value)

/-- Adds keys and values as they are. The two lists need not match. -/
def withFields (e : Entry) (keys : List String) (vals : List Value) : Entry :=
  { e with record.keys := e.record.keys ++ keys, record.vals := e.record.vals ++ vals }

end Entry

def inspectTexts (items : List String) : List Char :=
  '[' :: Text.join [',', ' '] (items.map fun s => Text.literal s.toList) ++ [']']

def inspectBytes (bytes : Bytes) : List Char :=
  '[' :: Text.join [',', ' '] (bytes.map fun b => Decimal.digitsOf b.toNat) ++ [']']

def inspectLocation : Option SourceLine → List Char
  | none => "None".toList
  | some location => inspectCall "Some" (location.file.toList ++ ':' :: Decimal.digitsOf location.line)

def Record.inspect (r : Record) : List Char :=
  let time := match r.time? with
    | none => "None".toList
    | some t => inspectCall "Some" t.inspect
  "Record \x7b threshold: ".toList ++ r.threshold.inspect.toList ++ ", level: ".toList ++
    r.level.inspect.toList ++ ", message: ".toList ++ Text.literal r.message.toList ++
    ", keys: ".toList ++ inspectTexts r.keys ++ ", vals: [".toList ++
    Value.inspectItems true r.vals ++ "], buffer: ".toList ++ inspectBytes r.buffer ++
    ", time: ".toList ++ time ++ ", caller: ".toList ++ r.caller.inspect ++
    ", location: ".toList ++ inspectLocation r.location? ++ ", module: ".toList ++
    inspectOption r.module? ++ " \x7d".toList

end Logbook
