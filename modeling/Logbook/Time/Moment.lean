/-!
# Moments

A moment is a count of seconds since 1970 with nanoseconds on top. The nanoseconds of a leap second
run from one to two thousand million, so that such a second carries the count of the second before
it.
-/

namespace Logbook.Time

def nanosPerSecond : Nat := 1000000000

/-- A point on the time line. -/
structure Moment where
  seconds : Int
  nanos : Nat
  deriving DecidableEq, Repr

instance : Inhabited Moment := ⟨⟨0, 0⟩⟩

namespace Moment

/-- The last second of the calendar, in the year 262142. -/
def lastSecond : Int := 8210266876799

/-- Whether a clock can tell a moment, which must not be in a leap second. -/
def isTold (m : Moment) : Bool := m.nanos < nanosPerSecond

/-- Whether a clock can be read at a moment: from 1970 to the end of the calendar. -/
def onClock (m : Moment) : Bool := m.isTold && 0 ≤ m.seconds && m.seconds ≤ lastSecond

/-- Whether `a` is `b` or lies before it. -/
def atOrBefore (a b : Moment) : Bool :=
  a.seconds < b.seconds || (a.seconds == b.seconds && a.nanos ≤ b.nanos)

/-- One hour later. A leap second counts as the first second after it. -/
def addHour (m : Moment) : Moment :=
  ⟨m.seconds + 3600, if nanosPerSecond ≤ m.nanos then m.nanos - nanosPerSecond else m.nanos⟩

def millis (m : Moment) : Int := m.seconds * 1000 + (m.nanos / 1000000 : Nat)

end Moment

end Logbook.Time
