import Logbook.Disk.Files

/-!
# Buffered files

Bytes for a device are gathered up to a fixed number before they are handed over. Bytes that fit
wait; bytes that do not fit are preceded by what waits, and are handed over themselves if they are
as many as the buffer holds. When the device refuses, what waits goes on waiting.
-/

namespace Logbook

/-- A device opened for appending, and the bytes that wait for it. -/
structure Buffered where
  device : Device
  pending : Bytes
  deriving Repr

namespace Buffered

/-- How many bytes wait at most. -/
def capacity : Nat := 8192

/-- A device with nothing waiting. -/
def ofDevice (d : Device) : Buffered := ⟨d, []⟩

/-- Hands over what waits. -/
def flush (b : Buffered) (disk : Disk) : Except IoError Unit × Buffered × Disk :=
  match disk.append b.device b.pending with
  | .ok disk => (.ok (), { b with pending := [] }, disk)
  | .error e => (.error e, b, disk)

/-- Takes bytes when they fit or when there is nothing before them. -/
def accept (b : Buffered) (bytes : Bytes) (disk : Disk) : Except IoError Unit × Buffered × Disk :=
  if capacity ≤ bytes.length then
    match disk.append b.device bytes with
    | .ok disk => (.ok (), b, disk)
    | .error e => (.error e, b, disk)
  else (.ok (), { b with pending := b.pending ++ bytes }, disk)

/-- Takes bytes. -/
def write (b : Buffered) (bytes : Bytes) (disk : Disk) : Except IoError Unit × Buffered × Disk :=
  if b.pending.length + bytes.length ≤ capacity then b.accept bytes disk
  else
    match b.flush disk with
    | (.ok (), b, disk) => b.accept bytes disk
    | (.error e, b, disk) => (.error e, b, disk)

/-- Whether a device can be told to keep what it was handed. -/
def persist (d : Device) : Except IoError Unit :=
  match d with
  | .file _ => .ok ()
  | .null | .full => .error (.refused .invalidArgument)

/-- Hands over what waits and has the device keep it. -/
def sync (b : Buffered) (disk : Disk) : Except IoError Unit × Buffered × Disk :=
  match b.flush disk with
  | (.ok (), b, disk) => (persist b.device, b, disk)
  | failed => failed

/-- Hands over what waits, if possible, before the file is given up. -/
def close (b : Buffered) (disk : Disk) : Disk := (b.flush disk).2.2

end Buffered

end Logbook
