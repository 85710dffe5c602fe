import Logbook.Host

/-!
# Scripted sinks

A sink over a buffer in memory that first behaves as planned, one step for each request, and then
takes everything. A request to write a whole run of bytes becomes as many steps as it needs: what is
left after a short one is offered again, and so is everything after an interruption.
-/

namespace Logbook

/-- What a sink does with the bytes offered to it. -/
inductive WriteStep where
  | accept
  /-- Takes at most `n` bytes. -/
  | atMost (n : Nat)
  | interrupted
  | fail (reason : String)
  deriving DecidableEq, Repr

/-- A sink with a plan for its next steps. For syncs, a reason means a failure. -/
structure Scripted where
  name : String
  writes : List WriteStep
  syncs : List (Option String)
  deriving Repr

namespace Scripted

/-- What comes of writing a run of bytes: whether all were taken, the bytes that were, and the steps
left in the plan. -/
def offer : List WriteStep → Bytes → Except IoError Unit × Bytes × List WriteStep
  | plan, [] => (.ok (), [], plan)
  | [], bytes => (.ok (), bytes, [])
  | .accept :: plan, bytes => (.ok (), bytes, plan)
  | .atMost n :: plan, bytes =>
    if n = 0 then (.error .nothingTaken, [], plan)
    else
      let (result, taken, plan) := offer plan (bytes.drop n)
      (result, bytes.take n ++ taken, plan)
  | .interrupted :: plan, bytes => offer plan bytes
  | .fail reason :: plan, _ => (.error (.described reason), [], plan)

/-- Writes a run of bytes. -/
def write (s : Scripted) (bytes : Bytes) (host : Host) : Except IoError Unit × Scripted × Host :=
  let (result, taken, plan) := offer s.writes bytes
  (result, { s with writes := plan }, host.remember s.name taken)

/-- Syncs by the next step of the plan. -/
def sync (s : Scripted) : Except LogError Unit × Scripted :=
  match s.syncs with
  | [] => (.ok (), s)
  | none :: plan => (.ok (), { s with syncs := plan })
  | some reason :: plan => (.error (.writer reason), { s with syncs := plan })

end Scripted

end Logbook
