import Mathlib.Data.List.Forall2
import Logbook.Proofs.Logger.Uses

/-!
# Systems that can be reached

The steps of a system, each with arguments that may be any at all: handles and entries on any
backend, records that were made by hand, a host on which anything has happened in the meantime.
Whatever the steps, the backends stay in order: they hand out fresh records, and what is held back
are records with a time, each of which tells of a call.

Results:
1. `Backend.IsOrderly.use`: the invariant, kept by whatever is asked of a backend.
2. `System.Reached.orderly`: any run.
-/

namespace Logbook

/-! ## 1. Backends in order -/

/-- What an early call has told. -/
structure Held where
  level : Level
  message : String
  /-- The time given for the call, or else that of the call. -/
  time : Time.Stamp
  keys : List String
  vals : List Value

/-- A record as it is held back. -/
structure Record.Tells (r : Record) (h : Held) : Prop where
  level_eq : r.level = h.level
  message_eq : r.message = h.message
  time_eq : r.time? = some h.time
  keys_eq : r.keys = h.keys
  vals_eq : r.vals = h.vals
  nonempty : r.isEmpty = false

/-- A new backend, and the threshold that it hands out. -/
inductive Backend.IsNew : Backend → Level → Prop
  | json (sink : Sink) (threshold : Level) (capture : Capture) (format : TimeFormat)
      (interval : Nat) : IsNew (.json (.new sink threshold capture format interval)) threshold
  | init : IsNew (.init []) .debug
  | null : IsNew .null .debug

/-- A backend that hands out fresh records, and each of whose records, if it holds some back, tells
of a call. -/
structure Backend.IsOrderly (b : Backend) : Prop where
  handsOut : ∃ threshold caller, b.HandsOut threshold caller
  tells : ∃ held, List.Forall₂ Record.Tells b.takePending.1 held

namespace Backend

theorem IsNew.handsOut {b : Backend} {default : Level} (h : b.IsNew default) :
    ∃ caller, b.HandsOut default caller := by
  cases h with
  | json sink threshold capture format interval => exact ⟨_, Pool.isFresh_empty _ _ _⟩
  | init => exact ⟨_, rfl, rfl⟩
  | null => exact ⟨_, rfl, rfl⟩

theorem IsNew.orderly {b : Backend} {default : Level} (h : b.IsNew default) : b.IsOrderly where
  handsOut := ⟨default, h.handsOut⟩
  tells := by
    cases h with
    | json sink threshold capture format interval => exact ⟨[], .nil⟩
    | init => exact ⟨[], .nil⟩
    | null => exact ⟨[], .nil⟩

/-- A record that is held back gets a time if it has none. -/
theorem IsOrderly.use {b : Backend} (h : b.IsOrderly) (host : Host) (u : Use) :
    (b.use host u).1.IsOrderly := by
  obtain ⟨⟨threshold, caller, hfresh⟩, held, hall⟩ := h
  constructor
  · by_cases hu : u = .close
    · subst hu
      exact ⟨.debug, ⟨0, .none⟩, rfl, rfl⟩
    · exact ⟨threshold, caller, hfresh.use host hu⟩
  cases b with
  | json b =>
    cases u with
    | _ => exact ⟨[], .nil⟩
  | init pending =>
    cases u with
    | finalize stack r =>
      dsimp only [Backend.use, Backend.finalize]
      split
      · exact ⟨held, hall⟩
      next hsome =>
      have htells : Record.Tells { r with time? := some (host.timeOr r.time?).1 }
          ⟨r.level, r.message, (host.timeOr r.time?).1, r.keys, r.vals⟩ :=
        ⟨rfl, rfl, rfl, rfl, rfl, Bool.eq_false_iff.mpr hsome⟩
      exact ⟨_, List.rel_append hall (.cons htells .nil)⟩
    | takePending => exact ⟨[], .nil⟩
    | close => exact ⟨[], .nil⟩
    | _ => exact ⟨held, hall⟩
  | null =>
    cases u with
    | _ => exact ⟨[], .nil⟩

end Backend

/-! ## 2. Systems in order -/

namespace System

/-- A step of a system. -/
inductive Step : System → System → Prop
  | outside {s : System} (host : Host) : Step s { s with host := host }
  | connect {s : System} {b : Backend} {default : Level} : b.IsNew default →
      Step s (s.addBackend b).2
  | newLogger {s : System} (id : Nat) : Step s (s.newLogger id).2
  | setThreshold {s : System} (l : Logger) (level : Level) : Step s (s.setThreshold l level)
  | entry {s : System} (l : Logger) : Step s (s.entry l).2
  | intoLogger {s : System} (e : Entry) : Step s (s.intoLogger e).2
  | commit {s : System} (e : Entry) (level : Level) (message : String) (site : CallSite) :
      Step s (s.commit e level message site)
  | finalize {s : System} (id : Nat) (stack : List Frame) (r : Record) :
      Step s (s.finalize id stack r)
  | release {s : System} (id : Nat) (r : Record) : Step s (s.release id r)
  | handoff {s : System} (source : Nat) (next : Logger) : Step s (s.handoff source next)
  | sync {s : System} (l : Logger) : Step s (s.sync l).2
  | mount {s : System} (l : Logger) : Step s (s.mount l)
  | unmount {s : System} (l : Logger) : Step s (s.unmount l)
  | tick {s : System} {id : Nat} {b : JsonBackend} : s.backend id = .json b →
      Step s ({ s with host := (b.tick s.host).2 }.setBackend id (.json (b.tick s.host).1))
  | resetMetrics {s : System} (l : Logger) : Step s (s.resetMetrics l)
  | closeBackend {s : System} (id : Nat) : Step s (s.closeBackend id)

/-- What can become of a system without a backend. -/
inductive Reached : System → Prop
  | start (host : Host) : Reached (start host)
  | step {s s' : System} : Reached s → Step s s' → Reached s'

/-- A system whose backends are in order. -/
def IsOrderly (s : System) : Prop := ∀ id, (s.backend id).IsOrderly

namespace IsOrderly

variable {s s' : System}

/-- Only the backends matter. -/
theorem of_backends (h : s.IsOrderly) (hs : s'.backends = s.backends) : s'.IsOrderly := by
  intro id
  rw [backend_congr hs]
  exact h id

theorem addBackend (h : s.IsOrderly) {b : Backend} (hb : b.IsOrderly) :
    (s.addBackend b).2.IsOrderly := by
  intro id
  obtain hold | hnew := s.addBackend_cases b id
  · rw [hold]
    exact h id
  · rw [hnew]
    exact hb

theorem uses (h : s.IsOrderly) (hs : s.Uses (fun _ _ => True) s') : s'.IsOrderly :=
  fun id => hs.backend (fun _ host u _ hb => hb.use host u) (h id)

end IsOrderly

theorem Step.orderly {s s' : System} (step : Step s s') (h : s.IsOrderly) : s'.IsOrderly := by
  cases step with
  | outside host => exact h.of_backends rfl
  | connect hb => exact h.addBackend hb.orderly
  | newLogger id => exact h.uses (newLogger_uses trivial fun _ => trivial)
  | setThreshold l level => exact h.of_backends rfl
  | entry l => exact h.uses (entry_uses trivial)
  | intoLogger e => exact h.uses (intoLogger_uses fun _ => trivial)
  | commit e level message site => exact h.uses (commit_uses (fun _ _ => trivial) _ _ _)
  | finalize id stack r => exact h.uses (finalize_uses trivial)
  | release id r => exact h.uses (release_uses trivial)
  | handoff source next => exact h.uses (handoff_uses trivial fun _ => trivial)
  | sync l => exact h.uses (sync_uses trivial)
  | mount l => exact h.uses (mount_uses trivial)
  | unmount l => exact h.uses (unmount_uses trivial)
  | tick hb => exact h.uses (tick_uses hb trivial)
  | resetMetrics l => exact h.uses (resetMetrics_uses trivial)
  | closeBackend id => exact h.uses (closeBackend_uses trivial)

theorem Reached.orderly {s : System} (run : Reached s) : s.IsOrderly := by
  induction run with
  | start host => exact fun id => Backend.IsNew.null.orderly
  | step _ step ih => exact step.orderly ih

end System

end Logbook
