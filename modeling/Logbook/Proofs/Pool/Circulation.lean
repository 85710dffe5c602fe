import Logbook.Proofs.Logger.Agreement

/-!
# Records in circulation

A pool hands out records and takes records back, also some that it has not made. What a record holds
does not tell which one it is: whoever has it may write into it, and the pool makes all of them look
the same. So every record gets a number when it comes into being, and the number goes where the
record goes. Then it can be said that a record that is handed out is in the hands of nobody else,
and that the pool gives away again what it was given, each record once and in its turn.

Results:
1. `acquire_idle`, `acquire_capacity`: what is left of a pool.
2. `Circulation.Sound.acquire`, `Circulation.Sound.bring`, `Circulation.Sound.release`: what one
   step keeps.
3. `records_circulate`: any number of steps.
-/

namespace Logbook.Pool

/-! ## 1. Records with numbers -/

theorem acquire_idle (pool : Pool) : pool.acquire.2.idle = pool.idle.tail := by
  rw [acquire]
  cases h : pool.idle with
  | nil => exact h
  | cons r rest => rfl

theorem acquire_capacity (pool : Pool) : pool.acquire.2.capacity = pool.capacity := by
  rw [acquire]
  cases pool.idle with
  | nil => rfl
  | cons r rest => rfl

/-- A pool, the numbers of the records in it, and what is known about the others. -/
structure Circulation where
  pool : Pool
  /-- The records in the pool with their numbers, in its order. -/
  waiting : List (Nat × Record)
  /-- The records that somebody has. -/
  inUse : List Nat
  /-- How many records there have been so far; the next one gets this number. -/
  made : Nat
  /-- The records that were handed out so far, as they were at that moment. -/
  handedOut : List (Nat × Record)
  /-- The records that were put back and kept, in that order. -/
  accepted : List Nat
  /-- The records that were handed out after they had waited, in that order. -/
  served : List Nat

namespace Circulation

/-- What is done with records. -/
inductive Step where
  /-- One is taken out of the pool. -/
  | acquire
  /-- One that the pool has not made comes into use. -/
  | bring
  /-- One in use is put back, whatever it holds by now. -/
  | release (number : Nat) (r : Record)

/-- A new pool, and no records at all. -/
def start (capacity : Nat) (threshold : Level) (caller : CallerDepth) : Circulation :=
  ⟨.empty capacity threshold caller, [], [], 0, [], [], []⟩

/-- The number of the record that is handed out next. -/
def upNext (c : Circulation) : Nat :=
  match c.waiting with
  | [] => c.made
  | (number, _) :: _ => number

/-- Takes out the record that has waited longest, or else a new one. -/
def acquire (c : Circulation) : Circulation :=
  { c with
    pool := c.pool.acquire.2
    waiting := c.waiting.tail
    inUse := c.upNext :: c.inUse
    made := if c.waiting.isEmpty then c.made + 1 else c.made
    handedOut := c.handedOut ++ [(c.upNext, c.pool.acquire.1)]
    served := c.served ++ (c.waiting.take 1).map (·.1) }

/-- Brings a record from elsewhere into use. -/
def bring (c : Circulation) : Circulation :=
  { c with inUse := c.made :: c.inUse, made := c.made + 1 }

/-- Only a record in use can be put back. It is lost if there is no room for it. -/
def release (c : Circulation) (number : Nat) (r : Record) : Circulation :=
  if number ∈ c.inUse then
    let c' := { c with pool := c.pool.release r, inUse := c.inUse.erase number }
    if c.pool.idle.length < c.pool.capacity then
      { c' with
        waiting := c.waiting ++ [(number, c.pool.reset r)]
        accepted := c.accepted ++ [number] }
    else c'
  else c

def step (c : Circulation) : Step → Circulation
  | .acquire => c.acquire
  | .bring => c.bring
  | .release number r => c.release number r

def run (c : Circulation) (steps : List Step) : Circulation := steps.foldl step c

/-- The records that are still there. -/
def present (c : Circulation) : List Nat := c.waiting.map (·.1) ++ c.inUse

/-! ## 2. One step -/

/-- What holds as long as a record is put back only by somebody who has it. -/
structure Sound (capacity : Nat) (threshold : Level) (caller : CallerDepth)
    (c : Circulation) : Prop where
  fresh : c.pool.IsFresh threshold caller
  capacity_eq : c.pool.capacity = max capacity 1
  room : c.pool.idle.length ≤ c.pool.capacity
  /-- The numbers stand beside the records of the pool. -/
  numbered : c.pool.idle = c.waiting.map (·.2)
  /-- What was kept has been handed out again or waits, each record in its turn. -/
  inTurn : c.accepted = c.served ++ c.waiting.map (·.1)
  /-- No record is in two places. -/
  apart : c.present.Nodup
  known : ∀ number ∈ c.present, number < c.made
  handedOut : ∀ given ∈ c.handedOut, given.2 = Record.fresh threshold caller

variable {capacity : Nat} {threshold : Level} {caller : CallerDepth} {c : Circulation}

theorem sound_start (capacity : Nat) (threshold : Level) (caller : CallerDepth) :
    (start capacity threshold caller).Sound capacity threshold caller where
  fresh := Pool.isFresh_empty capacity threshold caller
  capacity_eq := rfl
  room := Nat.zero_le _
  numbered := rfl
  inTurn := rfl
  apart := List.nodup_nil
  known := fun _ h => absurd h List.not_mem_nil
  handedOut := fun _ h => absurd h List.not_mem_nil

theorem Sound.made_new (h : c.Sound capacity threshold caller) : c.made ∉ c.present := by
  intro hmem
  exact Nat.lt_irrefl _ (h.known _ hmem)

/-- A record that comes into being is nowhere yet. -/
theorem Sound.known_made (h : c.Sound capacity threshold caller) :
    ∀ number ∈ c.made :: c.present, number < c.made + 1 := by
  intro number hnumber
  rcases List.mem_cons.mp hnumber with rfl | hold
  · exact Nat.lt_succ_self _
  · exact Nat.lt_succ_of_lt (h.known number hold)

/-- The record that is handed out next is in nobody's hands. -/
theorem Sound.upNext_free (h : c.Sound capacity threshold caller) : c.upNext ∉ c.inUse := by
  intro hmem
  have hapart := h.apart
  have hnew := h.made_new
  unfold upNext at hmem
  unfold present at hapart hnew
  cases hw : c.waiting with
  | nil =>
    rw [hw] at hmem
    exact hnew (List.mem_append_right _ hmem)
  | cons first rest =>
    rw [hw] at hmem hapart
    exact (List.nodup_cons.mp hapart).1 (List.mem_append_right _ hmem)

/-- A record that is handed out is a new one, or changes its place. -/
theorem present_acquire (c : Circulation) :
    (c.acquire.present = c.made :: c.present ∧ c.acquire.made = c.made + 1) ∨
      (c.acquire.present.Perm c.present ∧ c.acquire.made = c.made) := by
  unfold present acquire upNext
  cases hw : c.waiting with
  | nil => exact .inl ⟨rfl, rfl⟩
  | cons first rest => exact .inr ⟨List.perm_middle, rfl⟩

theorem Sound.acquire (h : c.Sound capacity threshold caller) :
    c.acquire.Sound capacity threshold caller where
  fresh := h.fresh.acquire.2
  capacity_eq := c.pool.acquire_capacity.trans h.capacity_eq
  room := by
    have hfewer : c.pool.idle.tail.length ≤ c.pool.idle.length := by
      rw [List.length_tail]
      exact Nat.sub_le _ _
    show c.pool.acquire.2.idle.length ≤ c.pool.acquire.2.capacity
    rw [acquire_idle, acquire_capacity]
    exact Nat.le_trans hfewer h.room
  numbered := by
    show c.pool.acquire.2.idle = c.waiting.tail.map (·.2)
    rw [acquire_idle, h.numbered, List.map_tail]
  inTurn := by
    show c.accepted = c.served ++ (c.waiting.take 1).map (·.1) ++ c.waiting.tail.map (·.1)
    rw [h.inTurn, List.append_assoc, ← List.map_append, ← List.drop_one, List.take_append_drop]
  apart := by
    rcases c.present_acquire with ⟨hnew, -⟩ | ⟨hplaces, -⟩
    · rw [hnew]
      exact List.nodup_cons.mpr ⟨h.made_new, h.apart⟩
    · exact hplaces.nodup_iff.mpr h.apart
  known := by
    intro number hnumber
    rcases c.present_acquire with ⟨hnew, hmade⟩ | ⟨hplaces, hmade⟩
    · rw [hmade]
      exact h.known_made number (hnew ▸ hnumber)
    · rw [hmade]
      exact h.known number (hplaces.mem_iff.mp hnumber)
  handedOut := by
    intro given hgiven
    rcases List.mem_append.mp hgiven with hold | hnew
    · exact h.handedOut given hold
    · rw [List.mem_singleton.mp hnew]
      exact h.fresh.acquire.1

theorem Sound.bring (h : c.Sound capacity threshold caller) :
    c.bring.Sound capacity threshold caller := by
  have hplaces : c.bring.present.Perm (c.made :: c.present) := List.perm_middle
  refine ⟨h.fresh, h.capacity_eq, h.room, h.numbered, h.inTurn, ?_, ?_, h.handedOut⟩
  · exact hplaces.nodup_iff.mpr (List.nodup_cons.mpr ⟨h.made_new, h.apart⟩)
  · intro number hnumber
    exact h.known_made number (hplaces.mem_iff.mp hnumber)

/-- The number of a record that was put back and kept changes its place. -/
theorem present_keep {number : Nat} (hmem : number ∈ c.inUse) (r : Record) :
    ((c.waiting ++ [(number, r)]).map (·.1) ++ c.inUse.erase number).Perm c.present := by
  rw [List.map_append, List.append_assoc]
  exact (List.perm_cons_erase hmem).symm.append_left _

theorem Sound.release (h : c.Sound capacity threshold caller) (number : Nat) (r : Record) :
    (c.release number r).Sound capacity threshold caller := by
  have hfresh := h.fresh.release r
  unfold Circulation.release
  split
  case isFalse => exact h
  case isTrue hmem =>
    dsimp only
    split
    case isTrue hroom =>
      have hpool : c.pool.release r = { c.pool with idle := c.pool.idle ++ [c.pool.reset r] } :=
        if_pos hroom
      have hplaces := present_keep hmem (c.pool.reset r)
      rw [hpool] at hfresh ⊢
      refine ⟨hfresh, h.capacity_eq, ?_, ?_, ?_, hplaces.nodup_iff.mpr h.apart, ?_, h.handedOut⟩
      · show (c.pool.idle ++ [c.pool.reset r]).length ≤ c.pool.capacity
        rw [List.length_append]
        exact hroom
      · show c.pool.idle ++ [c.pool.reset r] = (c.waiting ++ [(number, c.pool.reset r)]).map (·.2)
        rw [List.map_append, h.numbered]
        rfl
      · show c.accepted ++ [number] =
          c.served ++ (c.waiting ++ [(number, c.pool.reset r)]).map (·.1)
        rw [h.inTurn, List.map_append, List.append_assoc]
        rfl
      · intro other hother
        exact h.known other (hplaces.mem_iff.mp hother)
    case isFalse hfull =>
      -- the record is lost, and its number with it
      have hpool : c.pool.release r = c.pool := if_neg hfull
      have hfewer : (c.waiting.map (·.1) ++ c.inUse.erase number).Sublist c.present :=
        List.erase_sublist.append_left _
      rw [hpool]
      refine ⟨h.fresh, h.capacity_eq, h.room, h.numbered, h.inTurn, hfewer.nodup h.apart, ?_,
        h.handedOut⟩
      intro other hother
      exact h.known other (hfewer.subset hother)

theorem Sound.step (h : c.Sound capacity threshold caller) (step : Step) :
    (c.step step).Sound capacity threshold caller := by
  cases step with
  | acquire => exact h.acquire
  | bring => exact h.bring
  | release number r => exact h.release number r

/-! ## 3. Any number of steps -/

theorem Sound.run (h : c.Sound capacity threshold caller) (steps : List Step) :
    (c.run steps).Sound capacity threshold caller := by
  induction steps generalizing c with
  | nil => exact h
  | cons step steps ih => exact ih (h.step step)

end Circulation

open Circulation (Step start)

/-- A new pool, and then anything: records are taken out, others come from elsewhere, and any of
those in use are put back, whatever was written into them. Then every record was fresh when it was
handed out; there are as many in the pool as were kept and have not been handed out again, and never
more than the pool has room for; those that were kept are handed out again in the order in which
they came, each of them once; and no record is in two places, so that the next one to be handed out
is in nobody's hands. -/
theorem records_circulate (capacity : Nat) (threshold : Level) (caller : CallerDepth)
    (steps : List Step) :
    let c := (start capacity threshold caller).run steps
    (∀ given ∈ c.handedOut, given.2 = Record.fresh threshold caller) ∧
      c.pool.acquire.1 = Record.fresh threshold caller ∧
      c.pool.idle.length = c.accepted.length - c.served.length ∧
      c.pool.idle.length ≤ max capacity 1 ∧
      c.pool.idle = c.waiting.map (·.2) ∧
      c.accepted = c.served ++ c.waiting.map (·.1) ∧
      c.present.Nodup ∧
      c.upNext ∉ c.inUse := by
  intro c
  have h : c.Sound capacity threshold caller :=
    (Circulation.sound_start capacity threshold caller).run steps
  refine ⟨h.handedOut, h.fresh.acquire.1, ?_, h.capacity_eq ▸ h.room, h.numbered, h.inTurn, h.apart,
    h.upNext_free⟩
  rw [h.inTurn, h.numbered, List.length_append, Nat.add_sub_cancel_left, List.length_map,
    List.length_map]

/-- A record into which somebody has written. -/
def scribbled : Record :=
  ⟨.fatal, .error, "stale", ["a", "b"], [.int 1], [0x7b, 0x7d], some ⟨⟨0, 0⟩, 0⟩, ⟨3, .disabled⟩,
    some ⟨"app.rs", 7⟩, some "app"⟩

/-- The first record is put back and waits, so that there is no room for one that comes from
elsewhere, and then it is taken out once more. -/
def reused : Circulation :=
  (start 0 .info (.ofMode .stack)).run
    [.acquire, .release 0 scribbled, .bring, .release 1 scribbled, .acquire]

theorem records_circulate_reused :
    reused.accepted = [0] ∧ reused.served = [0] ∧ reused.inUse = [0] ∧
      reused.handedOut[1].1 = 0 ∧ reused.handedOut[1] ∈ reused.handedOut ∧
      reused.handedOut[1].2 = Record.fresh .info (.ofMode .stack) := by
  have hmem : reused.handedOut[1] ∈ reused.handedOut := List.getElem_mem _
  have hfresh := (records_circulate 0 .info (.ofMode .stack)
    [.acquire, .release 0 scribbled, .bring, .release 1 scribbled, .acquire]).1
  exact ⟨rfl, rfl, rfl, rfl, hmem, hfresh _ hmem⟩

end Logbook.Pool
