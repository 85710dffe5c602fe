import Logbook.Backend.Basic
import Logbook.Logger.Entry
import Logbook.Config

/-!
# Loggers

A logger is a handle on a backend with a threshold, a caller depth and base fields. Every call
starts as an entry that takes these over. Handles that were copied from one another share their
threshold, so setting it on one is seen by all of the family, but not by entries that have been
started before.

The system keeps what handles and entries refer to by number: the backends and the thresholds of the
families.
-/

namespace Logbook

/-- Everything that handles refer to. -/
structure System where
  host : Host
  backends : List Backend
  /-- The threshold of each family of handles. -/
  thresholds : List Level

/-- A handle. -/
structure Logger where
  /-- The number of the backend. -/
  backend : Nat
  /-- The number of the threshold. -/
  family : Nat
  caller : CallerDepth
  keys : List String
  vals : List Value

/-- Where a call is emitted: its line, its module if it is told, and the stack around it. -/
structure CallSite where
  location? : Option SourceLine
  module? : Option String
  stack : List Frame

/-- A call from within the library, whose place does not matter. -/
def CallSite.nowhere : CallSite := ⟨none, none, []⟩

namespace System

def start (host : Host) : System := ⟨host, [], []⟩

/-- A backend by its number. -/
def backend (s : System) (id : Nat) : Backend := s.backends.getD id .null

def setBackend (s : System) (id : Nat) (b : Backend) : System :=
  { s with backends := s.backends.set id b }

def addBackend (s : System) (b : Backend) : Nat × System :=
  (s.backends.length, { s with backends := s.backends ++ [b] })

/-- A record from a backend. -/
def acquire (s : System) (id : Nat) : Record × System :=
  let (r, b) := (s.backend id).acquire
  (r, s.setBackend id b)

/-- Returns a record to a backend without making a line of it. -/
def release (s : System) (id : Nat) (r : Record) : System :=
  s.setBackend id ((s.backend id).release r)

/-- Returns a finished record to a backend. -/
def finalize (s : System) (id : Nat) (stack : List Frame) (r : Record) : System :=
  let (b, host) := (s.backend id).finalize stack r s.host
  { s with host := host }.setBackend id b

/-- A handle with a family of its own. -/
def derive (s : System) (backend : Nat) (threshold : Level) (caller : CallerDepth)
    (keys : List String) (vals : List Value) : Logger × System :=
  (⟨backend, s.thresholds.length, caller, keys, vals⟩,
    { s with thresholds := s.thresholds ++ [threshold] })

/-- A handle with the defaults of its backend. -/
def newLogger (s : System) (backend : Nat) : Logger × System :=
  let (r, s) := s.acquire backend
  (s.release backend r).derive backend r.threshold r.caller [] []

def threshold (s : System) (l : Logger) : Level := s.thresholds.getD l.family .debug

/-- Sets the threshold of a handle and of its family. -/
def setThreshold (s : System) (l : Logger) (level : Level) : System :=
  { s with thresholds := s.thresholds.set l.family level }

def entry (s : System) (l : Logger) : Entry × System :=
  let (r, s) := s.acquire l.backend
  let r := { r with
    threshold := s.threshold l
    caller := l.caller
    keys := r.keys ++ l.keys
    vals := r.vals ++ l.vals }
  (⟨l.backend, r, false⟩, s)

/-- Makes a handle of an entry. It takes over the threshold, the caller depth and the fields, but
not a time. -/
def intoLogger (s : System) (e : Entry) : Logger × System :=
  let (l, s) := s.derive e.backend e.record.threshold e.record.caller e.record.keys e.record.vals
  (l, s.release e.backend { e.record with keys := [], vals := [] })

/-- The record of an emitted call: complete if the level reaches the threshold, and emptied
otherwise. -/
def committed (r : Record) (level : Level) (message : String) (site : CallSite) : Record :=
  if level.passes r.threshold then
    { r with
      level := level
      message := message
      location? := site.location?
      module? := site.module? }
  else { r with message := "", keys := [], vals := [] }

/-- Emits an entry. -/
def commit (s : System) (e : Entry) (level : Level) (message : String) (site : CallSite) : System :=
  s.finalize e.backend site.stack (committed e.record level message site)

def sync (s : System) (l : Logger) : Except LogError Unit × System :=
  let (result, b, host) := (s.backend l.backend).sync s.host
  (result, { s with host := host }.setBackend l.backend b)

/-- Starts the periodic syncs of the backend of a handle. -/
def mount (s : System) (l : Logger) : System :=
  s.setBackend l.backend (s.backend l.backend).mount

/-- Stops the periodic syncs of the backend of a handle. -/
def unmount (s : System) (l : Logger) : System :=
  let (b, host) := (s.backend l.backend).unmount s.host
  { s with host := host }.setBackend l.backend b

def closeBackend (s : System) (id : Nat) : System :=
  { s with host := (s.backend id).close s.host }.setBackend id .null

def resetMetrics (s : System) (l : Logger) : System :=
  match s.backend l.backend with
  | .json b => s.setBackend l.backend (.json { b with metrics := .zero })
  | _ => s

/-- A handle on a new backend that writes. -/
def build (s : System) (config : Config) (sink? : Option Sink) :
    Except LogError Logger × System :=
  let (sink, host) : Except LogError Sink × Host := match sink? with
    | some sink => (.ok sink, s.host)
    | none => Sink.open config.path config.std config.maxSize config.link s.host
  let s := { s with host := host }
  match sink with
  | .error e => (.error e, s)
  | .ok sink =>
    let capture : Capture := if config.fileLine then .location else .none
    let (id, s) := s.addBackend
      (.json (.new sink config.level capture config.timeFormat config.syncInterval))
    let (l, s) := s.newLogger id
    (.ok l, s.mount l)

def replay (s : System) (l : Logger) (r : Record) : System :=
  let (e, s) := s.entry l
  let e := match r.time? with
    | some t => e.withField "time" (.time t)
    | none => e
  s.commit (e.withFields r.keys r.vals) r.level r.message .nowhere

/-- Replays records through a handle one after the other. -/
def replayAll (s : System) (l : Logger) (records : List Record) : System :=
  records.foldl (fun s r => s.replay l r) s

/-- Passes what a backend holds back to a handle, the oldest record first. The caller is not
recorded for these calls, since they were not emitted here. -/
def handoff (s : System) (source : Nat) (next : Logger) : System :=
  let (records, b) := (s.backend source).takePending
  let s := s.setBackend source b
  if records.isEmpty then s
  else
    let (e, s) := s.entry next
    let (l, s) := s.intoLogger ((e.withField "depth" (.text "disable")).withField "logger" (.bool true))
    match (s.replayAll l records).sync next with
    | (.ok (), s) => s
    | (.error e, s) => { s with host := s.host.report (.syncAfterHandoff e) }

end System

end Logbook
