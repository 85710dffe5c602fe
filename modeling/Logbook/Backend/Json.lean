import Logbook.Sink.Basic
import Logbook.Line
import Logbook.Metrics
import Logbook.Pool

/-!
# Backends that write

A backend of this kind makes a line of every finished record and writes it at once. What fails is
counted and reported, since no caller waits for it. While it is mounted, the sink is also synced
from time to time.
-/

namespace Logbook

/-- A backend that writes lines to a sink. -/
structure JsonBackend where
  sink : Sink
  pool : Pool
  format : TimeFormat
  /-- Milliseconds between periodic syncs; zero for none. -/
  interval : Nat
  /-- Whether periodic syncs are under way. -/
  mounted : Bool
  metrics : Metrics

namespace JsonBackend

def new (sink : Sink) (threshold : Level) (capture : Capture) (format : TimeFormat)
    (interval : Nat) : JsonBackend where
  sink := sink
  pool := .empty Pool.defaultCapacity threshold (.ofMode capture)
  format := format
  interval := interval
  mounted := false
  metrics := .zero

/-- Takes a record from the pool. -/
def acquire (b : JsonBackend) : Record × JsonBackend :=
  let (r, pool) := b.pool.acquire
  (r, { b with pool := pool })

/-- Puts a record back into the pool. -/
def release (b : JsonBackend) (r : Record) : JsonBackend := { b with pool := b.pool.release r }

/-- The record with everything that its line shows. -/
def complete (b : JsonBackend) (stack : List Frame) (time : Time.Stamp) (r : Record) : Record :=
  (r.balance.capture stack).withLine b.format time

def writeLine (b : JsonBackend) (line : Bytes) (host : Host) : JsonBackend × Host :=
  match b.sink.write line host with
  | (.ok (), sink, host) =>
    ({ b with sink := sink, metrics := b.metrics.countLine line.length }, host)
  | (.error e, sink, host) =>
    ({ b with sink := sink, metrics := b.metrics.countError }, host.report (.lineNotWritten e))

/-- Takes a finished record: an empty one is counted as suppressed, every other becomes a line. -/
def finalize (b : JsonBackend) (stack : List Frame) (r : Record) (host : Host) :
    JsonBackend × Host :=
  if r.isEmpty then ({ b with metrics := b.metrics.countSuppressed }.release r, host)
  else
    let (time, host) := host.timeOr r.time?
    let r := b.complete stack time r
    let (b, host) := b.writeLine r.buffer host
    (b.release r, host)

def sync (b : JsonBackend) (host : Host) : Except LogError Unit × JsonBackend × Host :=
  match b.sink.sync host with
  | (.ok (), sink, host) => (.ok (), { b with sink := sink, metrics := b.metrics.countSync }, host)
  | (.error e, sink, host) => (.error e, { b with sink := sink }, host)

/-- Syncs the sink where nobody can be told of a failure: it is counted and reported. -/
def syncReporting (b : JsonBackend) (report : LogError → Report) (host : Host) :
    JsonBackend × Host :=
  match b.sync host with
  | (.ok (), b, host) => (b, host)
  | (.error e, b, host) => ({ b with metrics := b.metrics.countError }, host.report (report e))

/-- Starts the periodic syncs, unless there is no interval. -/
def mount (b : JsonBackend) : JsonBackend := { b with mounted := b.mounted || b.interval != 0 }

/-- One periodic sync. -/
def tick (b : JsonBackend) (host : Host) : JsonBackend × Host :=
  b.syncReporting .periodicSync host

/-- Lets periodic syncs happen until `reached` holds of the counters, at most `ticks` of them. -/
def await (reached : Metrics → Bool) : Nat → JsonBackend → Host → JsonBackend × Host
  | 0, b, host => (b, host)
  | ticks + 1, b, host =>
    if reached b.metrics || !b.mounted then (b, host)
    else
      let (b, host) := b.tick host
      await reached ticks b host

/-- Stops the periodic syncs and syncs one last time. -/
def unmount (b : JsonBackend) (host : Host) : JsonBackend × Host :=
  { b with mounted := false }.syncReporting .finalSync host

/-- Gives the backend up, and its sink with it. -/
def close (b : JsonBackend) (host : Host) : Host :=
  let (b, host) := b.unmount host
  b.sink.close host

end JsonBackend

end Logbook
