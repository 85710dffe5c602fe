import Logbook.Sink.Link
import Logbook.Template

/-!
# Rotating files

A sink that spreads its bytes over files named by a template. It moves on to the next file before a
write with which the current one would reach its limit, and when an hour begins in which the
template gives another name. Every write goes to one file as a whole.

Candidates for the next file are tried by their counter, from where the last search stopped: the
first one below the limit is adopted, whether it existed or not. So a run that starts anew continues
in the first file below the limit that the last one left behind. When the name changes with the
hour, the counter starts from zero.
-/

namespace Logbook

/-- The limit of files that only move on by the clock. -/
def unboundedSize : Nat := 0xffffffffff

/-- Why and where the folder of a log file could not be made. -/
def makeParent (path : String) (disk : Disk) : Except LogError Unit × Disk :=
  match parentText? path.toList with
  | none => (.ok (), disk)
  | some [] => (.ok (), disk)
  | some parent =>
    let folder := String.ofList parent
    match disk.makeFolders folder with
    | (.ok (), disk) => (.ok (), disk)
    | (.error e, disk) =>
      (.error (.operation "create log directory" ("cannot create " ++ folder) e), disk)

/-- A file that has been opened for rotation, and how many bytes it held. -/
structure Candidate where
  device : Device
  path : String
  size : Nat
  deriving DecidableEq, Repr

/-- Opens the candidate at a path. -/
def openCandidate (path : String) (disk : Disk) : Except LogError Candidate × Disk :=
  match makeParent path disk with
  | (.error e, disk) => (.error e, disk)
  | (.ok (), disk) =>
    match disk.openAppend path with
    | .ok (d, disk) => (.ok ⟨d, path, (disk.contents d).length⟩, disk)
    | .error e => (.error (.rotation path e.message), disk)

/-- What a search for the next file comes to: the file or the failure, the counter to go on from,
and the disk as it is then. -/
structure Search where
  outcome : Except LogError Candidate
  nextIndex : Nat
  disk : Disk

/-- Tries `tries` candidates from the counter `index` on. Without a counter in the template the
first one is taken whatever its size. -/
def searchFrom (resolved : List Char) (indexed : Bool) (limit : Nat) :
    Nat → Nat → Disk → Search
  | 0, index, disk =>
    ⟨.error (.rotation (String.ofList resolved) "no candidate is below the limit"), index, disk⟩
  | tries + 1, index, disk =>
    match openCandidate (String.ofList (Template.candidate resolved index)) disk with
    | (.error e, disk) => ⟨.error e, index, disk⟩
    | (.ok found, disk) =>
      if found.size < limit || !indexed then ⟨.ok found, index + 1, disk⟩
      else searchFrom resolved indexed limit tries (index + 1) disk

/-- Searches for the next file. Every candidate that is passed over exists, so one more than there
are names on the disk are enough. -/
def search (resolved : List Char) (indexed : Bool) (limit index : Nat) (disk : Disk) : Search :=
  searchFrom resolved indexed limit (disk.nodes.length + 1) index disk

/-- A sink that rotates its files. -/
structure Rotating where
  template : String
  /-- Whether everything written is copied to the console. -/
  tee : Bool
  limit : Nat
  indexed : Bool
  /-- The counter from which the next search starts. -/
  nextIndex : Nat
  /-- The moment from which the name is looked at again. -/
  nextHour : Time.Moment
  /-- How many bytes the current file holds, those that wait included. -/
  size : Nat
  file : Buffered
  /-- The path of the current file. -/
  current : String
  hooks : List Hook

namespace Rotating

/-- The limit in force: none without a counter in the template, or when none is asked for. -/
def limitFor (template : String) (maxSize : Nat) : Nat :=
  if Template.hasIndex template.toList && 0 < maxSize then maxSize else unboundedSize

/-- The template at the present time. -/
def resolved (template : String) (host : Host) : List Char :=
  Template.resolve template.toList host.localNow

/-- Opens a sink on the first candidate for the present time. -/
def «open» (template : String) (tee : Bool) (maxSize : Nat) (hooks : List Hook) (host : Host) :
    Except LogError Rotating × Host :=
  let indexed := Template.hasIndex template.toList
  let limit := limitFor template maxSize
  let (_, host) := host.readClock
  let (nextHour, host) := host.nextHour
  let found := search (resolved template host) indexed limit 0 host.disk
  let host := { host with disk := found.disk }
  match found.outcome with
  | .error e => (.error e, host)
  | .ok file =>
    (.ok {
      template, tee, limit, indexed, hooks, nextHour
      nextIndex := found.nextIndex
      size := file.size
      file := .ofDevice file.device
      current := file.path }, runHooks hooks file.path host)

/-- Gives up the current file: what waits for it is handed over, or reported if it cannot be. -/
def retire (w : Rotating) (host : Host) : Host :=
  let (result, file, disk) := w.file.sync host.disk
  let host := match result with
    | .ok () => { host with disk := disk }
    | .error e => { host with disk := disk }.report (.flushBeforeRotation w.current e)
  { host with disk := file.close host.disk }

/-- Goes over to another file. -/
def adopt (w : Rotating) (next : Candidate) (host : Host) : Rotating × Host :=
  ({ w with file := .ofDevice next.device, size := next.size, current := next.path },
    runHooks w.hooks next.path (w.retire host))

/-- Moves on to the next file for the present time. -/
def rotate (w : Rotating) (host : Host) : Except LogError Unit × Rotating × Host :=
  let found := search (resolved w.template host) w.indexed w.limit w.nextIndex host.disk
  let w := { w with nextIndex := found.nextIndex }
  let host := { host with disk := found.disk }
  match found.outcome with
  | .error e => (.error e, w, host)
  | .ok next =>
    let (w, host) := w.adopt next host
    (.ok (), w, host)

/-- Whether the current file would reach its limit with `bytes` more bytes. An empty file takes
anything. -/
def isFull (w : Rotating) (bytes : Nat) : Bool := 0 < w.size && w.limit ≤ w.size + bytes

/-- Moves on if the current file is too full for `bytes` more bytes. -/
def rotateBySize (w : Rotating) (bytes : Nat) (host : Host) :
    Except LogError Unit × Rotating × Host :=
  if w.isFull bytes then w.rotate host else (.ok (), w, host)

/-- The path of the current file, had it been named at the present time. -/
def expected (w : Rotating) (host : Host) : String :=
  String.ofList (Template.candidate (resolved w.template host) (w.nextIndex - 1))

/-- Moves on if an hour has begun in which the file has another name. -/
def rotateByHour (w : Rotating) (host : Host) : Except LogError Unit × Rotating × Host :=
  if w.nextHour.atOrBefore host.now then
    let (nextHour, host) := host.nextHour
    let w := { w with nextHour := nextHour }
    if w.expected host = w.current then (.ok (), w, host)
    else { w with nextIndex := 0 }.rotate host
  else (.ok (), w, host)

def append (w : Rotating) (bytes : Bytes) (host : Host) : Except IoError Unit × Rotating × Host :=
  match w.file.write bytes host.disk with
  | (.error e, file, disk) => (.error e, { w with file := file }, { host with disk := disk })
  | (.ok (), file, disk) =>
    (.ok (), { w with file := file, size := w.size + bytes.length },
      { host with disk := disk }.tee w.tee bytes)

/-- Writes to the file that is due. -/
def write (w : Rotating) (bytes : Bytes) (host : Host) : Except IoError Unit × Rotating × Host :=
  let (_, host) := host.readClock
  match w.rotateBySize bytes.length host with
  | (.error e, w, host) => (.error (.wrapped e), w, host)
  | (.ok (), w, host) =>
    match w.rotateByHour host with
    | (.error e, w, host) => (.error (.wrapped e), w, host)
    | (.ok (), w, host) => w.append bytes host

end Rotating

end Logbook
