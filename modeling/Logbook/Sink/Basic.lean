import Logbook.Sink.Rotating
import Logbook.Sink.Scripted

/-!
# Sinks

Where lines go. A sink takes runs of bytes, can be flushed, can be told to keep what it has, and
hands over what still waits when it is given up.
-/

namespace Logbook

/-- A single file. -/
structure FileSink where
  file : Buffered
  /-- The path of the file. -/
  path : String
  /-- Whether everything written is copied to the console. -/
  tee : Bool

/-- Where lines go. -/
inductive Sink where
  /-- Nowhere. -/
  | discard
  | console
  /-- To a buffer in memory. -/
  | memory (name : String)
  | scripted (s : Scripted)
  | file (f : FileSink)
  | rotating (w : Rotating)

/-- Opens the file named by a template at the present time. -/
def FileSink.open (template : String) (tee : Bool) (host : Host) :
    Except LogError FileSink × Host :=
  let (now, host) := host.readClock
  let path := String.ofList (Template.resolve template.toList now)
  match makeParent path host.disk with
  | (.error e, disk) => (.error e, { host with disk := disk })
  | (.ok (), disk) =>
    match disk.openAppend path with
    | .ok (d, disk) => (.ok ⟨.ofDevice d, path, tee⟩, { host with disk := disk })
    | .error e =>
      (.error (.operation "open log file" ("cannot open " ++ path) e), { host with disk := disk })

def FileSink.write (f : FileSink) (bytes : Bytes) (host : Host) :
    Except IoError Unit × FileSink × Host :=
  match f.file.write bytes host.disk with
  | (.error e, file, disk) => (.error e, { f with file := file }, { host with disk := disk })
  | (.ok (), file, disk) =>
    (.ok (), { f with file := file }, { host with disk := disk }.tee f.tee bytes)

namespace Sink

/-- Writes a run of bytes. Nothing is asked of a sink for an empty run. -/
def write (sink : Sink) (bytes : Bytes) (host : Host) : Except IoError Unit × Sink × Host :=
  if bytes.isEmpty then (.ok (), sink, host)
  else
    match sink with
    | discard => (.ok (), discard, host)
    | console => (.ok (), console, host.print bytes)
    | memory name => (.ok (), memory name, host.remember name bytes)
    | scripted s =>
      let (result, s, host) := s.write bytes host
      (result, scripted s, host)
    | file f =>
      let (result, f, host) := f.write bytes host
      (result, file f, host)
    | rotating w =>
      let (result, w, host) := w.write bytes host
      (result, rotating w, host)

/-- The result of an operation on a buffered file. -/
def withFile (rebuild : Buffered → Sink) (host : Host)
    (result : Except IoError Unit × Buffered × Disk) : Except IoError Unit × Sink × Host :=
  (result.1, rebuild result.2.1, { host with disk := result.2.2 })

/-- Hands over what waits. -/
def flush (sink : Sink) (host : Host) : Except IoError Unit × Sink × Host :=
  match sink with
  | file f => withFile (fun b => file { f with file := b }) host (f.file.flush host.disk)
  | rotating w => withFile (fun b => rotating { w with file := b }) host (w.file.flush host.disk)
  | sink => (.ok (), sink, host)

/-- A failure of input or output as a failure of the library. -/
def lift (result : Except IoError Unit) : Except LogError Unit :=
  match result with
  | .ok () => .ok ()
  | .error e => .error (.io e)

/-- Hands over what waits and has it kept. -/
def sync (sink : Sink) (host : Host) : Except LogError Unit × Sink × Host :=
  match sink with
  | scripted s =>
    let (result, s) := s.sync
    (result, scripted s, host)
  | file f =>
    let (result, sink, host) :=
      withFile (fun b => file { f with file := b }) host (f.file.sync host.disk)
    (lift result, sink, host)
  | rotating w =>
    let (result, sink, host) :=
      withFile (fun b => rotating { w with file := b }) host (w.file.sync host.disk)
    (lift result, sink, host)
  | sink => (.ok (), sink, host)

/-- Gives a sink up. What still waits is handed over if that is possible. -/
def close (sink : Sink) (host : Host) : Host :=
  match sink with
  | file f => { host with disk := f.file.close host.disk }
  | rotating w => { host with disk := w.file.close host.disk }
  | _ => host

/-- Opens the sink for a path: the console for an empty one, a single file where neither a limit nor
a date makes it move on, and rotating files otherwise. A link is kept on the current file. -/
def «open» (path : String) (tee : Bool) (maxSize : Nat) (link : String) (host : Host) :
    Except LogError Sink × Host :=
  let path := Text.trimString path
  if path.isEmpty then (.ok console, host)
  else
    let maxSize := if Template.hasIndex path.toList then maxSize else 0
    let (hooks, host) := linkHooks link host
    if maxSize = 0 && !Template.hasDateTokens path.toList then
      match FileSink.open path tee host with
      | (.error e, host) => (.error e, host)
      | (.ok f, host) => (.ok (file f), runHooks hooks f.path host)
    else
      match Rotating.open path tee maxSize hooks host with
      | (.error e, host) => (.error e, host)
      | (.ok w, host) => (.ok (rotating w), host)

end Sink

end Logbook
