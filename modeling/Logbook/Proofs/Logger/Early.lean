import Logbook.Proofs.Logger.Reached

/-!
# Calls made early

A backend that holds records back is there before the one that writes. What it holds at any time is
what the calls on it since the last handoff have told, the oldest first, whatever else happens on
the system in between: other backends come and go, write or fail to, and are handed what was held.

Results:
1. `finalize_early`, `commit_early`: what becomes of an early call.
2. `Aside.step`, `Early.reached`: early runs are runs of the system.
3. `Early.pending`: what is held after any run.
-/

namespace Logbook

/-! ## 1. What is held back -/

/-- What is held back of a call made at a time: nothing if its level is too low, and nothing of a
call that has neither a message nor a field, which counts as suppressed. -/
def Entry.told (e : Entry) (now : Time.Stamp) (level : Level) (message : String) : List Held :=
  if e.record.threshold.rank ≤ level.rank &&
      !(message.isEmpty && e.record.keys.isEmpty && e.record.vals.isEmpty) then
    [⟨level, message, e.record.time?.getD now, e.record.keys, e.record.vals⟩]
  else []

/-- A call is told of by its record if that is not empty, and otherwise there is nothing to tell. -/
theorem committed_told (e : Entry) (now : Time.Stamp) (level : Level) (message : String)
    (site : CallSite) :
    (System.committed e.record level message site).isEmpty = true ∧ e.told now level message = [] ∨
      ∃ told, e.told now level message = [told] ∧
        Record.Tells { System.committed e.record level message site with
          time? := some ((System.committed e.record level message site).time?.getD now) } told := by
  rw [Entry.told]
  rcases Nat.lt_or_ge level.rank e.record.threshold.rank with hlow | hhigh
  · rw [System.committed_of_lt hlow, decide_eq_false (Nat.not_le_of_lt hlow), Bool.false_and,
      if_neg Bool.false_ne_true]
    exact .inl ⟨rfl, rfl⟩
  · rw [System.committed_of_le hhigh, decide_eq_true hhigh, Bool.true_and]
    cases hempty : message.isEmpty && e.record.keys.isEmpty && e.record.vals.isEmpty with
    | true => exact .inl ⟨hempty, rfl⟩
    | false => exact .inr ⟨_, rfl, rfl, rfl, rfl, rfl, rfl, hempty⟩

/-- An early call adds what it has told to the records that are held back, and nothing else comes of
it, except that the clock may have been read. -/
theorem finalize_early (pending : List Record) (e : Entry) (level : Level) (message : String)
    (site : CallSite) (host : Host) :
    ∃ new failed,
      (Backend.init pending).finalize site.stack (System.committed e.record level message site)
          host =
        (.init (pending ++ new), { host with now := host.now, clockFailed := failed }) ∧
      List.Forall₂ Record.Tells new (e.told host.localNow level message) := by
  rw [Backend.finalize]
  obtain ⟨hempty, hnone⟩ | ⟨told, hone, htells⟩ :=
    committed_told e host.localNow level message site
  · rw [if_pos hempty, hnone]
    exact ⟨[], host.clockFailed, by rw [List.append_nil], .nil⟩
  · obtain ⟨failed, htime⟩ :=
      timeOr_eq host (System.committed e.record level message site).time?
    have hnonempty : (System.committed e.record level message site).isEmpty = false :=
      htells.nonempty
    rw [if_neg (Bool.eq_false_iff.mp hnonempty), hone, htime]
    exact ⟨_, failed, rfl, .cons htells .nil⟩

/-- The call as a step of the system, in which no other backend is reached. -/
theorem commit_early {s : System} {pending : List Record} (h : s.backend 0 = .init pending)
    {e : Entry} (he : e.backend = 0) (level : Level) (message : String) (site : CallSite) :
    (∃ new, (s.commit e level message site).backend 0 = .init (pending ++ new) ∧
      List.Forall₂ Record.Tells new (e.told s.host.localNow level message)) ∧
    (∀ id, id ≠ 0 → (s.commit e level message site).backend id = s.backend id) ∧
    ∃ failed, (s.commit e level message site).host =
      { s.host with now := s.host.now, clockFailed := failed } := by
  obtain ⟨new, failed, hfinal, htells⟩ := finalize_early pending e level message site s.host
  have hlt : 0 < s.backends.length := System.lt_length_of_backend h (by simp)
  rw [System.commit, System.finalize, he, h, hfinal]
  exact ⟨⟨new, System.setBackend_at (s := { s with host := _ }) hlt _, htells⟩,
    fun id hid => System.setBackend_apart (s := { s with host := _ }) hid _, failed, rfl⟩

/-! ## 2. Runs -/

/-- A step in which nothing is told to the backend 0: handles and entries are made, other backends
come and go, write, or are synced, and outside of the system anything may happen, such as time going
by. -/
inductive Aside : System → System → Prop
  | outside {s : System} (host : Host) : Aside s { s with host := host }
  | connect {s : System} (sink : Sink) (threshold : Level) (capture : Capture)
      (format : TimeFormat) (interval : Nat) :
      Aside s (s.addBackend (.json (.new sink threshold capture format interval))).2
  | newLogger {s : System} (id : Nat) : Aside s (s.newLogger id).2
  | setThreshold {s : System} (l : Logger) (level : Level) : Aside s (s.setThreshold l level)
  | entry {s : System} (l : Logger) : Aside s (s.entry l).2
  | intoLogger {s : System} (e : Entry) : Aside s (s.intoLogger e).2
  | commit {s : System} (e : Entry) (level : Level) (message : String) (site : CallSite) :
      e.backend ≠ 0 → Aside s (s.commit e level message site)
  | sync {s : System} (l : Logger) : Aside s (s.sync l).2
  | tick {s : System} {id : Nat} {b : JsonBackend} : s.backend id = .json b →
      Aside s ({ s with host := (b.tick s.host).2 }.setBackend id (.json (b.tick s.host).1))
  | mount {s : System} (l : Logger) : Aside s (s.mount l)
  | unmount {s : System} (l : Logger) : Aside s (s.unmount l)
  | resetMetrics {s : System} (l : Logger) : Aside s (s.resetMetrics l)
  | closeBackend {s : System} {id : Nat} : id ≠ 0 → Aside s (s.closeBackend id)

/-- A run on a system whose first backend, with the number 0, holds records back: the system, and
what has been told to this backend since the last handoff, the oldest first. The handles and the
entries may be any at all: what a call took over from its handle and what it has been given is in
its entry. The other backends write, each to a sink of its own, which need not take anything. -/
inductive Early : System → List Held → Prop
  | start (host : Host) : Early ((System.start host).addBackend (.init [])).2 []
  | aside {s s' : System} {held : List Held} : Early s held → Aside s s' → Early s' held
  | emit {s : System} {held : List Held} (e : Entry) (level : Level) (message : String)
      (site : CallSite) : Early s held → e.backend = 0 →
      Early (s.commit e level message site) (held ++ e.told s.host.localNow level message)
  | handoff {s : System} {held : List Held} {next : Logger} {b : JsonBackend} :
      Early s held → s.backend next.backend = .json b → Early (s.handoff 0 next) []

theorem Aside.step {s s' : System} (step : Aside s s') : System.Step s s' := by
  cases step with
  | outside host => exact .outside host
  | connect sink threshold capture format interval =>
    exact .connect (.json sink threshold capture format interval)
  | newLogger id => exact .newLogger id
  | setThreshold l level => exact .setThreshold l level
  | entry l => exact .entry l
  | intoLogger e => exact .intoLogger e
  | commit e level message site => exact .commit e level message site
  | sync l => exact .sync l
  | tick hb => exact .tick hb
  | mount l => exact .mount l
  | unmount l => exact .unmount l
  | resetMetrics l => exact .resetMetrics l
  | closeBackend => exact .closeBackend _

theorem Early.reached {s : System} {held : List Held} (run : Early s held) : s.Reached := by
  induction run with
  | start host => exact (System.Reached.start host).step (.connect .init)
  | aside _ step ih => exact ih.step step.step
  | emit e level message site _ _ ih => exact ih.step (.commit e level message site)
  | @handoff _ _ next _ _ _ ih => exact ih.step (.handoff 0 next)

/-- Uses by which the backend 0 is not told anything. -/
theorem pending_of_uses {s s' : System} {pending : List Record} (h : s.backend 0 = .init pending)
    (hs : s.Uses (fun id u => id = 0 → u.keepsPending = true) s') :
    s'.backend 0 = .init pending :=
  hs.keepsPending (fun _ hu => hu rfl) h

theorem Aside.pending {s s' : System} {pending : List Record} (step : Aside s s')
    (h : s.backend 0 = .init pending) : s'.backend 0 = .init pending := by
  cases step with
  | outside host => exact h
  | connect =>
    rw [System.addBackend_old (System.lt_length_of_backend h (by simp))]
    exact h
  | newLogger id => exact pending_of_uses h (System.newLogger_uses (fun _ => rfl) fun _ _ => rfl)
  | setThreshold => exact h
  | entry l => exact pending_of_uses h (System.entry_uses fun _ => rfl)
  | intoLogger e => exact pending_of_uses h (System.intoLogger_uses fun _ _ => rfl)
  | commit e level message site he =>
    exact pending_of_uses h (System.commit_uses (fun _ _ hzero => absurd hzero he) _ _ _)
  | sync l => exact pending_of_uses h (System.sync_uses fun _ => rfl)
  | tick hb => exact pending_of_uses h (System.tick_uses hb fun _ => rfl)
  | mount l => exact pending_of_uses h (System.mount_uses fun _ => rfl)
  | unmount l => exact pending_of_uses h (System.unmount_uses fun _ => rfl)
  | resetMetrics l => exact pending_of_uses h (System.resetMetrics_uses fun _ => rfl)
  | closeBackend hid =>
    exact pending_of_uses h (System.closeBackend_uses fun hzero => absurd hzero hid)

/-- A handoff to another backend leaves nothing held back, whatever becomes of the lines. -/
theorem handoff_empties {s : System} {pending : List Record} (h : s.backend 0 = .init pending)
    {next : Logger} (hnext : next.backend ≠ 0) : (s.handoff 0 next).backend 0 = .init [] := by
  refine pending_of_uses ?_ (System.taken_uses (fun u hzero => absurd hzero hnext) 0)
  rw [System.use_at (System.lt_length_of_backend h (by simp)), h]
  rfl

/-- What is held back after a run is what has been told since the last handoff. -/
theorem Early.pending {s : System} {held : List Held} (run : Early s held) :
    ∃ pending, s.backend 0 = .init pending ∧ List.Forall₂ Record.Tells pending held := by
  induction run with
  | start host => exact ⟨[], rfl, .nil⟩
  | aside _ step ih =>
    obtain ⟨pending, hholds, htells⟩ := ih
    exact ⟨pending, step.pending hholds, htells⟩
  | emit e level message site _ he ih =>
    obtain ⟨pending, hholds, htells⟩ := ih
    obtain ⟨⟨new, hnew, htold⟩, -⟩ := commit_early hholds he level message site
    exact ⟨pending ++ new, hnew, List.rel_append htells htold⟩
  | handoff _ hb ih =>
    obtain ⟨pending, hholds, -⟩ := ih
    refine ⟨[], handoff_empties hholds fun hzero => ?_, .nil⟩
    rw [hzero, hholds] at hb
    cases hb

end Logbook
