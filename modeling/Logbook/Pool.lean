import Logbook.Record

/-!
# Pools

Records kept for reuse. A pool hands out its records in the order in which it got them, and fresh
ones when it has none. A record that comes back is set to the pool's defaults; it is dropped when
the pool is full.
-/

namespace Logbook

/-- A store of records for reuse, which holds at least one. -/
structure Pool where
  capacity : Nat
  threshold : Level
  caller : CallerDepth
  idle : List Record

namespace Pool

/-- How many records a backend keeps. -/
def defaultCapacity : Nat := 256

/-- The most records that a pool can have room for: their slots of 152 bytes must have addresses of
63 bits. -/
def largestCapacity : Nat := 60680079189834051

def empty (capacity : Nat) (threshold : Level) (caller : CallerDepth) : Pool :=
  ⟨max capacity 1, threshold, caller, []⟩

/-- Takes a record out. -/
def acquire (pool : Pool) : Record × Pool :=
  match pool.idle with
  | [] => (Record.fresh pool.threshold pool.caller, pool)
  | r :: rest => (r, { pool with idle := rest })

/-- A record set to the pool's defaults. -/
def reset (pool : Pool) (r : Record) : Record :=
  { r.clear with threshold := pool.threshold, caller := pool.caller }

/-- Puts a record back. -/
def release (pool : Pool) (r : Record) : Pool :=
  if pool.idle.length < pool.capacity then { pool with idle := pool.idle ++ [pool.reset r] }
  else pool

end Pool

end Logbook
