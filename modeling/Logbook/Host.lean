import Logbook.Disk.Buffered
import Logbook.Time.Zone

/-!
# Hosts

What sinks reach outside of themselves: the clock and its zone, the disk, the console, the error
console, named buffers in memory, and a watcher that is told the paths of newly adopted files.
-/

namespace Logbook

/-- The surroundings of the sinks. -/
structure Host where
  /-- The text of the path of the working folder. -/
  home : String
  zone : Time.Zone
  now : Time.Moment
  disk : Disk
  /-- What has been printed on the console. -/
  console : Bytes
  /-- What has been reported on the error console, the latest last. -/
  reports : List Report
  /-- The buffers in memory by name. -/
  memory : List (String × Bytes)
  /-- The paths that the watcher has been told. -/
  adopted : List String
  /-- Whether the clock was read when it showed no moment of the calendar, or an hour was looked for
  beyond the end of it. Nothing that happens after that counts. -/
  clockFailed : Bool

namespace Host

/-- A host with nothing on its disk and nothing printed yet. -/
def start (home : String) (zone : Time.Zone) (now : Time.Moment) : Host :=
  ⟨home, zone, now, .empty, [], [], [], [], false⟩

/-- The time on the local clock. -/
def localNow (host : Host) : Time.Stamp := host.zone.stamp host.now

/-- Takes note of something the clock is needed for, and whether it can serve. -/
def relyOnClock (host : Host) (works : Bool) : Host :=
  { host with clockFailed := host.clockFailed || !works }

/-- Reads the local clock. -/
def readClock (host : Host) : Time.Stamp × Host :=
  (host.localNow, host.relyOnClock host.now.onClock)

/-- The time of something: its own, or else that of the local clock. -/
def timeOr (host : Host) (own? : Option Time.Stamp) : Time.Stamp × Host :=
  match own? with
  | some t => (t, host)
  | none => host.readClock

/-- Looks for the start of the next local hour. -/
def nextHour (host : Host) : Time.Moment × Host :=
  (host.zone.nextHour host.now, host.relyOnClock (host.zone.hasNextHour host.now))

def print (host : Host) (bytes : Bytes) : Host := { host with console := host.console ++ bytes }

/-- Prints on the console if a copy of what is written is wanted there. -/
def tee (host : Host) (wanted : Bool) (bytes : Bytes) : Host :=
  if wanted then host.print bytes else host

def report (host : Host) (r : Report) : Host := { host with reports := host.reports ++ [r] }

/-- The bytes in a buffer; a buffer not yet used is empty. -/
def buffer (host : Host) (name : String) : Bytes := (host.memory.lookup name).getD []

def setBuffer (host : Host) (name : String) (bytes : Bytes) : Host :=
  { host with memory := (name, bytes) :: host.memory.filter fun entry => entry.1 != name }

def remember (host : Host) (name : String) (bytes : Bytes) : Host :=
  host.setBuffer name (host.buffer name ++ bytes)

end Host

end Logbook
