/-!
# Metrics

Counters of what a backend did: lines and bytes written, calls suppressed, writes and syncs that
failed, syncs that were done. A counter starts again from zero after 64 bits.
-/

namespace Logbook

/-- The counters of a backend. -/
structure Metrics where
  lines : UInt64
  bytes : UInt64
  suppressed : UInt64
  writeErrors : UInt64
  syncs : UInt64
  deriving DecidableEq, Repr, Inhabited

namespace Metrics

def zero : Metrics := ⟨0, 0, 0, 0, 0⟩

def countLine (m : Metrics) (n : Nat) : Metrics :=
  { m with lines := m.lines + 1, bytes := m.bytes + UInt64.ofNat n }

def countSuppressed (m : Metrics) : Metrics := { m with suppressed := m.suppressed + 1 }

def countError (m : Metrics) : Metrics := { m with writeErrors := m.writeErrors + 1 }

def countSync (m : Metrics) : Metrics := { m with syncs := m.syncs + 1 }

end Metrics

end Logbook
