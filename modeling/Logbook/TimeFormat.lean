import Logbook.Time.Pattern
import Logbook.Text.Blank
import Logbook.Text.Literal
import Logbook.Failure

/-!
# Time formats

How the time of a line is written. A format is chosen by its name or given as a pattern; blanks
around it do not count, and nothing but blanks means the default. A pattern with a malformed
specifier is replaced by the default, with a report. One that cannot be written to its end is
replaced whenever a stamp is written, without a report.
-/

namespace Logbook

open Time (Stamp Pattern.render? Pattern.write)

/-- The pattern used when none is given. -/
def defaultPattern : String := "%Y-%m-%d %H:%M:%S"

/-- A way to write the time of a line. -/
inductive TimeFormat where
  | custom (pattern : String)
  | iso8601
  | rfc3339
  | unix
  | unixMillis
  | none
  deriving DecidableEq, Repr

namespace TimeFormat

/-- The format used when none is given. -/
def default : TimeFormat := .custom defaultPattern

instance : Inhabited TimeFormat := ⟨default⟩

/-- The name of a format, or its pattern. -/
def name : TimeFormat → String
  | custom pattern => pattern
  | iso8601 => "iso8601"
  | rfc3339 => "rfc3339"
  | unix => "unix"
  | unixMillis => "unix_millis"
  | none => "none"

def inspect : TimeFormat → String
  | custom pattern => "Custom(" ++ Text.literalString pattern ++ ")"
  | iso8601 => "Iso8601"
  | rfc3339 => "Rfc3339"
  | unix => "Unix"
  | unixMillis => "UnixMillis"
  | none => "None"

/-- The format that a trimmed text means, unless it is a pattern with a malformed specifier. -/
def ofTrimmed? (s : String) : Option TimeFormat :=
  if s = "" then some default
  else if s = "none" then some none
  else if s = "iso8601" then some iso8601
  else if s = "rfc3339" then some rfc3339
  else if s = "unix" then some unix
  else if s = "unix_millis" then some unixMillis
  else if Time.Pattern.isValid s.toList then some (custom s)
  else Option.none

def ofText (s : String) : TimeFormat := (ofTrimmed? (Text.trimString s)).getD default

/-- The reports made while a text is taken as a format. -/
def reports (s : String) : List Report :=
  let trimmed := Text.trimString s
  if (ofTrimmed? trimmed).isSome then [] else [.invalidTimeFormat trimmed defaultPattern]

/-- The pattern behind `iso8601`: milliseconds and an offset. -/
def isoPattern : String := "%Y-%m-%dT%H:%M:%S%.3f%:z"

/-- A stamp in a format; nothing if the pattern cannot be rendered. -/
def render? (t : Stamp) : TimeFormat → Option (List Char)
  | custom pattern => Pattern.render? pattern.toList t
  | iso8601 => Pattern.render? isoPattern.toList t
  | rfc3339 => some t.rfc3339
  | unix => some (Json.intText t.moment.seconds)
  | unixMillis => some (Json.intText t.moment.millis)
  | none => some []

/-- A stamp in a format. A pattern that cannot be rendered as a whole is replaced by the default. -/
def render (format : TimeFormat) (t : Stamp) : List Char :=
  (format.render? t).getD ((Pattern.render? defaultPattern.toList t).getD [])

/-- What is written of a stamp in a format, and whether that is all of it. -/
def write (t : Stamp) : TimeFormat → List Char × Bool
  | custom pattern => Pattern.write pattern.toList t
  | iso8601 => Pattern.write isoPattern.toList t
  | rfc3339 => (t.rfc3339, true)
  | unix => (Json.intText t.moment.seconds, true)
  | unixMillis => (Json.intText t.moment.millis, true)
  | none => ([], true)

/-- Puts a stamp behind the bytes of a buffer. It is written elsewhere first: what there is of a
pattern that cannot be written to its end is thrown away, and the default is written. -/
def append (format : TimeFormat) (t : Stamp) (buffer : Bytes) : Bytes :=
  let (text, complete) := format.write t
  buffer ++ Utf8.encode (if complete then text else (Pattern.write defaultPattern.toList t).1)

end TimeFormat

end Logbook
