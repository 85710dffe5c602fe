import Logbook.Json.Reader
import Logbook.TimeFormat

/-!
# Settings

The settings of a logger and their JSON form. A document is an object whose members may be left
out, come in any order and have names that are not known, or a list of the values in their fixed
order, which may stop early. Three names have a second spelling.

| member             | also           | default                |
|--------------------|----------------|------------------------|
| `std`              |                | `false`                |
| `path`             |                | empty                  |
| `max_size`         | `maxsize`      | `0`                    |
| `link`             |                | empty                  |
| `level`            |                | `DEBUG`                |
| `time_format`      | `timeformat`   | `%Y-%m-%d %H:%M:%S`    |
| `file_line`        | `fileline`     | `false`                |
| `sync_interval_ms` | `syncinterval` | `80`                   |
-/

namespace Logbook

open Json (Reader readBool readText readNat)

/-- The settings of a logger. -/
structure Config where
  /-- Whether every line also goes to the console. -/
  std : Bool
  /-- The template of the file names; empty for the console. -/
  path : String
  /-- The size at which a file is full; zero for no limit. -/
  maxSize : Nat
  /-- A link that is kept on the file being written; empty for none. -/
  link : String
  level : Level
  timeFormat : TimeFormat
  /-- Whether lines tell where they were emitted. -/
  fileLine : Bool
  /-- Milliseconds between periodic syncs; zero for none. -/
  syncInterval : Nat
  deriving DecidableEq, Repr

namespace Config

/-- The settings of an empty document. -/
def default : Config := ⟨false, "", 0, "", .debug, .default, false, 80⟩

instance : Inhabited Config := ⟨default⟩

/-- A member of the settings. -/
inductive Member where
  | std | path | maxSize | link | level | timeFormat | fileLine | syncInterval
  deriving DecidableEq, Repr

/-- All members, in the order of a list. -/
def Member.all : List Member :=
  [std, path, maxSize, link, level, timeFormat, fileLine, syncInterval]

/-- The name of a member in a document. -/
def Member.name : Member → String
  | std => "std"
  | path => "path"
  | maxSize => "max_size"
  | link => "link"
  | level => "level"
  | timeFormat => "time_format"
  | fileLine => "file_line"
  | syncInterval => "sync_interval_ms"

/-- The second spelling of a name, which is the name itself where there is no other. -/
def Member.alias : Member → String
  | maxSize => "maxsize"
  | timeFormat => "timeformat"
  | fileLine => "fileline"
  | syncInterval => "syncinterval"
  | m => m.name

def Member.ofName? (name : String) : Option Member :=
  Member.all.find? fun m => m.name == name || m.alias == name

/-- The level of a number that is read as one. -/
def levelOfNumber : Json.Number → Except Json.Error Level
  | .natural n =>
    match Level.ofRank? n with
    | some level => .ok level
    | none => .error (.described (unrecognized (Json.intText n)))
  | .negative n => .error (.described (unrecognized (Json.intText (-n))))
  | .float bits => .error (.wrongType (.float bits) levelKind)
where
  /-- The wording for a number of no level. -/
  unrecognized (digits : List Char) : String :=
    (LogError.unrecognizedLevel (String.ofList digits)).message
  /-- What is expected of a level. -/
  levelKind : String := "a level name or a number between 0 and 4"

def levelOfText (s : String) : Except Json.Error Level :=
  match Level.ofText s with
  | .ok level => .ok level
  | .error e => .error (.described e.message)

/-- Takes a level: a name or a rank, also as a string. -/
def readLevel : Reader Level := fun s =>
  match Json.skipGap s with
  | [] => .error .endInValue
  | '"' :: rest => do
    let (name, rest) ← Json.readStringRest rest
    return (← levelOfText (String.ofList name), rest)
  | '-' :: rest => do
    let (number, rest) ← Json.readNumber true rest
    return (← levelOfNumber number, rest)
  | c :: rest => do
    if !c.isDigit then throw (Json.mismatch levelOfNumber.levelKind (c :: rest))
    let (number, rest) ← Json.readNumber false (c :: rest)
    return (← levelOfNumber number, rest)

/-- Settings while they are read: what has been read so far and what was reported. -/
structure Draft where
  config : Config
  reports : List Report

/-- What a step of reading leaves: the draft, whatever happened, and the rest of the text or what is
wrong with it. -/
abbrev Outcome := Draft × Except Json.Error (List Char)

/-- Continues with the rest of the text, if nothing is wrong so far. -/
def Outcome.andThen (outcome : Outcome) (next : Draft → List Char → Outcome) : Outcome :=
  match outcome with
  | (draft, .ok rest) => next draft rest
  | (draft, .error e) => (draft, .error e)

/-- Puts a value that was read into the draft. -/
def Draft.put {α : Type} (draft : Draft) (result : Except Json.Error (α × List Char))
    (store : Draft → α → Draft) : Outcome :=
  match result with
  | .ok (a, rest) => (store draft a, .ok rest)
  | .error e => (draft, .error e)

def Draft.readMember (draft : Draft) (s : List Char) : Member → Outcome
  | .std => draft.put (readBool s) fun d v => { d with config.std := v }
  | .path => draft.put (readText s) fun d v => { d with config.path := v }
  | .maxSize => draft.put (readNat s) fun d v => { d with config.maxSize := v }
  | .link => draft.put (readText s) fun d v => { d with config.link := v }
  | .level => draft.put (readLevel s) fun d v => { d with config.level := v }
  | .timeFormat => draft.put (readText s) fun d v =>
      { config := { d.config with timeFormat := .ofText v }
        reports := d.reports ++ TimeFormat.reports v }
  | .fileLine => draft.put (readBool s) fun d v => { d with config.fileLine := v }
  | .syncInterval => draft.put (readNat s) fun d v => { d with config.syncInterval := v }

/-- Takes the members of an object up to its closing bracket. `seen` are the members that it has
had. Every turn takes at least one character, so `turns` never runs out when it starts above the
length of the text. -/
def readMembers : Nat → Draft → List Member → Bool → List Char → Outcome
  | 0, draft, _, _, _ => (draft, .error .endInObject)
  | turns + 1, draft, seen, first, s =>
    match Json.nextName first s with
    | .error e => (draft, .error e)
    | .ok (none, rest) => (draft, .ok rest)
    | .ok (some name, rest) =>
      match Member.ofName? name with
      | some m =>
        if seen.contains m then (draft, .error (.duplicate m.name))
        else
          match Json.readColon rest with
          | .error e => (draft, .error e)
          | .ok rest =>
            (draft.readMember rest m).andThen fun draft rest =>
              readMembers turns draft (m :: seen) false rest
      | none =>
        match Json.readColon rest >>= Json.skipValue with
        | .error e => (draft, .error e)
        | .ok rest => readMembers turns draft seen false rest

/-- Takes the items of a list for the given members, and the closing bracket. -/
def readItems : Draft → Bool → List Char → List Member → Outcome
  | draft, _, s, [] => (draft, Json.endList s)
  | draft, first, s, m :: rest =>
    match Json.nextItem first s with
    | .error e => (draft, .error e)
    | .ok (false, s) => (draft, Json.endList s)
    | .ok (true, s) => (draft.readMember s m).andThen fun draft s => readItems draft false s rest

/-- Takes the settings at the front of a text. -/
def readFront (s : List Char) : Outcome :=
  let draft : Draft := ⟨default, []⟩
  match Json.skipGap s with
  | [] => (draft, .error .endInValue)
  | '\x7b' :: rest => readMembers (rest.length + 1) draft [] true rest
  | '[' :: rest => readItems draft true rest Member.all
  | s => (draft, .error (Json.mismatch "struct LoggerConfig" s))

/-- Settings from a JSON document, and what is reported while it is read. -/
def ofJson (text : String) : Except Json.Error Config × List Report :=
  match readFront text.toList with
  | (draft, .error e) => (.error e, draft.reports)
  | (draft, .ok rest) => ((Json.endDocument rest).map fun _ => draft.config, draft.reports)

/-- The value of a member as it stands in a document. -/
def Member.text (config : Config) : Member → List Char
  | std => Json.boolText config.std
  | path => Json.quote .document config.path.toList
  | maxSize => Decimal.digitsOf config.maxSize
  | link => Json.quote .document config.link.toList
  | level => Json.quote .document config.level.name.toList
  | timeFormat => Json.quote .document config.timeFormat.name.toList
  | fileLine => Json.boolText config.fileLine
  | syncInterval => Decimal.digitsOf config.syncInterval

/-- Settings as a JSON document. -/
def toJson (config : Config) : String :=
  let members := Member.all.map fun m =>
    Json.quote .document m.name.toList ++ ':' :: m.text config
  String.ofList ('\x7b' :: Text.join [','] members ++ ['\x7d'])

end Config

def Level.ofJson (text : String) : Except Json.Error Level := do
  let (level, rest) ← Config.readLevel text.toList
  Json.endDocument rest
  return level

/-- A time format from a JSON document, and what is reported while it is read. -/
def TimeFormat.ofJson (text : String) : Except Json.Error TimeFormat × List Report :=
  match readText text.toList with
  | .error e => (.error e, [])
  | .ok (s, rest) => ((Json.endDocument rest).map fun _ => .ofText s, TimeFormat.reports s)

end Logbook
