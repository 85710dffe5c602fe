import Logbook.Record
import Logbook.TimeFormat

/-!
# Lines

A record as one line: a JSON object with the time, the level, the fields in their order and the
message, if there is one, followed by a line feed.

```text
{"time":"2024-05-01 12:00:00","level":"INFO","user":"ana","message":"signed in"}
```
-/

namespace Logbook

namespace Line

def field (key : String) (value : Value) : Bytes :=
  Utf8.encode (',' :: quoteLine key ++ [':']) ++ value.encode

/-- The fields of a line: keys and values in pairs, as far as both go. -/
def fields (keys : List String) (vals : List Value) : Bytes :=
  (keys.zip vals).flatMap fun (key, value) => field key value

/-- The message of a line, unless it is empty. -/
def message (s : String) : Bytes :=
  if s.isEmpty then [] else Utf8.encode (",\"message\":".toList ++ quoteLine s)

/-- A line with its parts in place; the text of the time is taken as it is. -/
def ofParts (time : List Char) (level : Level) (keys : List String) (vals : List Value)
    (text : String) : Bytes :=
  Utf8.encode ("\x7b\"time\":\"".toList ++ time ++ "\",\"level\":\"".toList ++ level.name.toList ++
    ['"']) ++ fields keys vals ++ message text ++ Utf8.encode ['\x7d', '\n']

end Line

namespace Record

/-- The line of a record at a time. -/
def line (format : TimeFormat) (time : Time.Stamp) (r : Record) : Bytes :=
  Line.ofParts (format.render time) r.level r.keys r.vals r.message

/-- A record with its line in its buffer. -/
def withLine (format : TimeFormat) (time : Time.Stamp) (r : Record) : Record :=
  { r with buffer := r.line format time }

end Record

end Logbook
