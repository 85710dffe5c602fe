import Logbook.Backend.Json

/-!
# Backends

What becomes of finished records. Besides the backend that writes lines there is one that holds
records back until there is somewhere to write them, and one that drops them.
-/

namespace Logbook

/-- The fate of finished records. -/
inductive Backend where
  | json (b : JsonBackend)
  /-- Holds records back, the oldest first, each with the time of its call. -/
  | init (pending : List Record)
  | null

namespace Backend

def name : Backend → String
  | json _ => "json"
  | init _ => "init"
  | null => "null"

/-- The counters of a backend that has some. -/
def metrics? : Backend → Option Metrics
  | json b => some b.metrics
  | init _ => none
  | null => none

/-- A record to fill in. -/
def acquire : Backend → Record × Backend
  | json b => (b.acquire.1, json b.acquire.2)
  | init pending => (.blank, init pending)
  | null => (.blank, null)

/-- Takes back a record that must not become a line. -/
def release (r : Record) : Backend → Backend
  | json b => json (b.release r)
  | init pending => init pending
  | null => null

/-- Takes a finished record. -/
def finalize (stack : List Frame) (r : Record) (host : Host) : Backend → Backend × Host
  | json b =>
    let (b, host) := b.finalize stack r host
    (json b, host)
  | init pending =>
    if r.isEmpty then (init pending, host)
    else
      let (time, host) := host.timeOr r.time?
      (init (pending ++ [{ r with time? := some time }]), host)
  | null => (null, host)

def sync (host : Host) : Backend → Except LogError Unit × Backend × Host
  | json b =>
    let (result, b, host) := b.sync host
    (result, json b, host)
  | init pending => (.ok (), init pending, host)
  | null => (.ok (), null, host)

def mount : Backend → Backend
  | json b => json b.mount
  | init pending => init pending
  | null => null

/-- Stops periodic syncs and syncs one last time. -/
def unmount (host : Host) : Backend → Backend × Host
  | json b =>
    let (b, host) := b.unmount host
    (json b, host)
  | init pending => (init pending, host)
  | null => (null, host)

def close (host : Host) : Backend → Host
  | json b => b.close host
  | init _ => host
  | null => host

/-- The records that a backend holds back, and the backend without them. -/
def takePending : Backend → List Record × Backend
  | init pending => (pending, init [])
  | json b => ([], json b)
  | null => ([], null)

end Backend

end Logbook
