import Logbook.Logger.Basic

/-!
# Describing loggers

A handle and an entry for inspection, and a handle as a JSON document: the kind of its backend, its
threshold, the keys of its base fields, and the counters of a backend that has some.
-/

namespace Logbook

/-- The counters by their names, in the order of a document. -/
def Metrics.named (m : Metrics) : List (String × UInt64) :=
  [("lines_written", m.lines), ("bytes_written", m.bytes), ("suppressed_count", m.suppressed),
    ("write_errors", m.writeErrors), ("sync_count", m.syncs)]

namespace System

def inspectLogger (s : System) (l : Logger) : List Char :=
  "Logger \x7b backend: ".toList ++ Text.literal (s.backend l.backend).name.toList ++
    ", level: ".toList ++ (s.threshold l).inspect.toList ++ ", caller: ".toList ++
    l.caller.inspect ++ ", fields: ".toList ++ inspectTexts l.keys ++ " \x7d".toList

def inspectEntry (s : System) (e : Entry) : List Char :=
  "Entry \x7b backend: ".toList ++ Text.literal (s.backend e.backend).name.toList ++
    ", logger: ".toList ++ Json.boolText e.marked ++ ", record: ".toList ++ e.record.inspect ++
    " \x7d".toList

def member (name : String) (value : List Char) : List Char :=
  Json.quote .document name.toList ++ ':' :: value

def object (members : List (List Char)) : List Char :=
  '\x7b' :: Text.join [','] members ++ ['\x7d']

def metadata (s : System) (l : Logger) : List Char :=
  let b := s.backend l.backend
  let quote (text : String) := Json.quote .document text.toList
  let metrics := match b.metrics? with
    | some m =>
      [member "metrics" (object (m.named.map fun (name, n) =>
        member name (Decimal.digitsOf n.toNat)))]
    | none => []
  object ([member "name" (quote b.name), member "level" (quote (s.threshold l).name),
    member "fields" ('[' :: Text.join [','] (l.keys.map quote) ++ [']'])] ++ metrics)

end System

end Logbook
