import Logbook.Time.Stamp

/-!
# Time zones

A zone says how far the local clock is ahead of UTC at a moment, and which moment a reading of the
local clock means. A zone with summer time has one season, from `starts` to `ends`, and stands for
the clock of the year of that season. A reading that the clock skips means nothing, one that it
shows twice is taken as standard time.

`Zone.nextHour` is the first moment of the following local hour. The hour that begins inside a
skipped stretch has none, and an hour from now is taken instead.
-/

namespace Logbook.Time

/-- A stretch of summer time: offsets without and with it, and the moments of the two changes. -/
structure Season where
  standard : Int
  summer : Int
  starts : Int
  ends : Int
  deriving DecidableEq, Repr

/-- A local clock. -/
inductive Zone where
  | fixed (offset : Int)
  | seasonal (season : Season)
  deriving DecidableEq, Repr

namespace Zone

/-- Five hours behind UTC, in 2024; the clock goes from 2:00 to 3:00 and back from 2:00 to 1:00. -/
def eastern2024 : Zone := .seasonal ⟨-18000, -14400, 1710054000, 1730613600⟩

/-- Five hours behind UTC, in 2024; the clock goes from 1:30 to 2:30 and back from 2:30 to 1:30. -/
def halfPast2024 : Zone := .seasonal ⟨-18000, -14400, 1710052200, 1730615400⟩

def offsetAt (zone : Zone) (seconds : Int) : Int :=
  match zone with
  | .fixed offset => offset
  | .seasonal s => if s.starts ≤ seconds && seconds < s.ends then s.summer else s.standard

def stamp (zone : Zone) (m : Moment) : Stamp := ⟨m, zone.offsetAt m.seconds⟩

/-- The first moment, in seconds, at which the local clock is meant by the reading `reading`. -/
def moment? (zone : Zone) (reading : Int) : Option Int :=
  match zone with
  | .fixed offset => some (reading - offset)
  | .seasonal s =>
    if reading ≤ s.starts + s.standard then some (reading - s.standard)
    else if reading < s.starts + s.summer then none
    else if reading < s.ends + s.standard then some (reading - s.summer)
    else some (reading - s.standard)

/-- What the local clock reads at the start of the local hour after `now`. -/
def nextReading (zone : Zone) (now : Moment) : Int :=
  (zone.stamp now).localSeconds / 3600 * 3600 + 3600

/-- The start of the local hour after `now`. -/
def nextHour (zone : Zone) (now : Moment) : Moment :=
  match zone.moment? (zone.nextReading now) with
  | some seconds => ⟨seconds, 0⟩
  | none => now.addHour

/-- Whether the start of the local hour after `now` is within the calendar, as a moment and as a
reading of the local clock. -/
def hasNextHour (zone : Zone) (now : Moment) : Bool :=
  zone.nextReading now ≤ Moment.lastSecond &&
    (zone.nextHour now).seconds ≤ Moment.lastSecond

end Zone

end Logbook.Time
