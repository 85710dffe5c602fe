import Mathlib.Algebra.GroupWithZero.Nat
import Mathlib.Data.List.Induction
import Logbook.Proofs.Logger.Uses

/-!
# Counters that keep count

The counters of a backend against what has happened to it, kept beside the system: which calls came
to nothing, which came to a line and what the sink got of it, and which syncs were done. The sink is
a scripted one with any plan, and a plan can hold anything that a sink may do: take a part of what
it is offered, take nothing, ask to be tried again, fail, and fail to sync.

| event                        | counter                             |
|------------------------------|-------------------------------------|
| a call came to nothing       | suppressed                          |
| a line was taken in full     | lines, and bytes by the line's size |
| a line was not taken in full | write errors                        |
| a sync was done              | syncs                               |
| a sync failed                | none: the caller is told            |
| the last sync failed         | write errors                        |

What the sink got is read off the buffer behind it, before and after. There are no periodic syncs
in a run, and the counters are not reset.

Results:
1. `Metrics.Tells.count`: what counting an event does to the counters.
2. `Scripted.offer_cases`: a sink that fails has got a proper prefix.
3. `JsonBackend.Tells.commit`, `JsonBackend.Tells.syncReporting`: uses of a backend.
4. `Idle.rests`: steps that ask nothing of the sink.
5. `Tallied.tells`, `counters_keep_count`: any run.
-/

namespace Logbook

/-! ## 1. Events and counters -/

/-- What came of one use of a backend. -/
inductive Event where
  /-- A call whose level is too low, or that has neither a message nor a key nor a value. -/
  | suppressed
  /-- A call that came to a line, of which the sink got some bytes. -/
  | offered (line got : Bytes)
  /-- A sync for a caller who is told whether it was done. -/
  | synced (done : Bool)
  /-- The sync when a backend is unmounted or given up. -/
  | lastSynced (done : Bool)

namespace Event

/-- Whether a call was emitted. -/
@[simp] def isCall : Event → Bool
  | suppressed | offered _ _ => true
  | synced _ | lastSynced _ => false

@[simp] def isSuppressed : Event → Bool
  | suppressed => true
  | offered _ _ | synced _ | lastSynced _ => false

/-- Whether the sink got a whole line. -/
@[simp] def isWritten : Event → Bool
  | offered line got => got == line
  | suppressed | synced _ | lastSynced _ => false

/-- Whether the sink did not get the whole of a line. -/
@[simp] def isFailed : Event → Bool
  | offered line got => got != line
  | suppressed | synced _ | lastSynced _ => false

@[simp] def isSynced : Event → Bool
  | synced done | lastSynced done => done
  | suppressed | offered _ _ => false

@[simp] def isLastFailure : Event → Bool
  | lastSynced done => !done
  | suppressed | offered _ _ | synced _ => false

/-- The size of a line that the sink got as a whole. -/
@[simp] def size (event : Event) : Nat :=
  match event with
  | offered line _ => if event.isWritten then line.length else 0
  | suppressed | synced _ | lastSynced _ => 0

/-- What the sink got of a line that failed is a proper prefix of it. -/
def IsSound : Event → Prop
  | offered line got => got = line ∨ got <+: line ∧ got.length < line.length
  | suppressed | synced _ | lastSynced _ => True

/-- The counters, each with what an event adds to it. -/
def count (m : Metrics) (event : Event) : Metrics where
  lines := m.lines + .ofNat event.isWritten.toNat
  bytes := m.bytes + .ofNat event.size
  suppressed := m.suppressed + .ofNat event.isSuppressed.toNat
  writeErrors := m.writeErrors + .ofNat (event.isFailed.toNat + event.isLastFailure.toNat)
  syncs := m.syncs + .ofNat event.isSynced.toNat

end Event

theorem countP_snoc (p : Event → Bool) (history : List Event) (event : Event) :
    (history ++ [event]).countP p = history.countP p + (p event).toNat := by
  rw [List.countP_append, List.countP_singleton]
  cases p event <;> rfl

/-- Every call is exactly one of written, suppressed and failed. -/
theorem calls_eq (history : List Event) :
    history.countP Event.isCall = history.countP Event.isWritten +
      history.countP Event.isSuppressed + history.countP Event.isFailed := by
  induction history using List.reverseRecOn with
  | nil => rfl
  | append_singleton history event ih =>
    have hone : event.isCall.toNat =
        event.isWritten.toNat + event.isSuppressed.toNat + event.isFailed.toNat := by
      cases event with
      | suppressed => rfl
      | offered line got => cases h : got == line <;> simp [h, bne]
      | synced done => rfl
      | lastSynced done => rfl
    rw [countP_snoc, countP_snoc, countP_snoc, countP_snoc, ih, hone]
    omega

/-- Counters that tell of a history. They start again from zero after 64 bits. -/
structure Metrics.Tells (m : Metrics) (history : List Event) : Prop where
  lines : m.lines.toNat = history.countP Event.isWritten % UInt64.size
  bytes : m.bytes.toNat = (history.map Event.size).sum % UInt64.size
  suppressed : m.suppressed.toNat = history.countP Event.isSuppressed % UInt64.size
  writeErrors : m.writeErrors.toNat =
    (history.countP Event.isFailed + history.countP Event.isLastFailure) % UInt64.size
  syncs : m.syncs.toNat = history.countP Event.isSynced % UInt64.size

theorem Metrics.tells_nil : Metrics.zero.Tells [] := ⟨rfl, rfl, rfl, rfl, rfl⟩

theorem toNat_add_ofNat {x : UInt64} {n : Nat} (h : x.toNat = n % UInt64.size) (k : Nat) :
    (x + .ofNat k).toNat = (n + k) % UInt64.size := by
  have hsum : (x + .ofNat k).toNat = (x.toNat + k % UInt64.size) % UInt64.size := by
    rw [UInt64.toNat_add, UInt64.toNat_ofNat']
  rw [hsum, h, ← Nat.add_mod]

theorem Metrics.Tells.count {m : Metrics} {history : List Event} (h : m.Tells history)
    (event : Event) : (event.count m).Tells (history ++ [event]) where
  lines := by
    rw [countP_snoc]
    exact toNat_add_ofNat h.lines _
  bytes := by
    rw [List.map_append, List.sum_append, List.map_singleton, List.sum_singleton]
    exact toNat_add_ofNat h.bytes _
  suppressed := by
    rw [countP_snoc]
    exact toNat_add_ofNat h.suppressed _
  writeErrors := by
    rw [countP_snoc, countP_snoc, Nat.add_add_add_comm]
    exact toNat_add_ofNat h.writeErrors _
  syncs := by
    rw [countP_snoc]
    exact toNat_add_ofNat h.syncs _

namespace Metrics

variable (m : Metrics)

theorem countSuppressed_eq : m.countSuppressed = Event.suppressed.count m := by
  simp [countSuppressed, Event.count]

theorem countLine_eq (line : Bytes) :
    m.countLine line.length = (Event.offered line line).count m := by
  simp [countLine, Event.count]

theorem countError_eq {line got : Bytes} (h : got ≠ line) :
    m.countError = (Event.offered line got).count m := by
  simp [countError, Event.count, bne, beq_eq_false_iff_ne.mpr h]

theorem synced_count (done : Bool) :
    (Event.synced done).count m = if done then m.countSync else m := by
  cases done <;> simp [countSync, Event.count]

theorem lastSynced_count (done : Bool) :
    (Event.lastSynced done).count m = if done then m.countSync else m.countError := by
  cases done <;> simp [countSync, countError, Event.count]

end Metrics

/-! ## 2. The sink -/

theorem Scripted.offer_atMost {n : Nat} (hn : n ≠ 0) (plan : List WriteStep) {bytes : Bytes}
    (hb : bytes ≠ []) :
    offer (.atMost n :: plan) bytes = ((offer plan (bytes.drop n)).1,
      bytes.take n ++ (offer plan (bytes.drop n)).2.1, (offer plan (bytes.drop n)).2.2) := by
  rw [offer, if_neg hn]
  exact hb

/-- A sink that takes a run of bytes takes all of it, and one that fails has got a proper prefix,
whatever its plan is. -/
theorem Scripted.offer_cases (plan : List WriteStep) (bytes : Bytes) :
    ((offer plan bytes).1 = .ok () ∧ (offer plan bytes).2.1 = bytes) ∨
      (∃ e, (offer plan bytes).1 = .error e) ∧ (offer plan bytes).2.1 <+: bytes ∧
        (offer plan bytes).2.1.length < bytes.length := by
  induction plan generalizing bytes with
  | nil =>
    cases bytes with
    | nil => exact .inl ⟨rfl, rfl⟩
    | cons b rest => exact .inl ⟨rfl, rfl⟩
  | cons step plan ih =>
    cases bytes with
    | nil => exact .inl ⟨by rw [offer], by rw [offer]⟩
    | cons b rest =>
      have hnone : ([] : Bytes) <+: b :: rest ∧ ([] : Bytes).length < (b :: rest).length :=
        ⟨List.nil_prefix, Nat.succ_pos _⟩
      cases step with
      | accept => exact .inl ⟨rfl, rfl⟩
      | interrupted => exact ih (b :: rest)
      | fail reason => exact .inr ⟨⟨_, rfl⟩, hnone⟩
      | atMost n =>
        by_cases hn : n = 0
        · subst hn
          exact .inr ⟨⟨_, rfl⟩, hnone⟩
        rw [offer_atMost hn plan (List.cons_ne_nil b rest)]
        -- what is left after a short step is offered to the steps behind it
        have htake : (b :: rest).take n ++ (b :: rest).drop n = b :: rest :=
          List.take_append_drop n _
        obtain ⟨hok, hall⟩ | ⟨herror, hpart, hlength⟩ := ih ((b :: rest).drop n)
        · exact .inl ⟨hok, (congrArg _ hall).trans htake⟩
        · have hmore := (List.prefix_append_right_inj ((b :: rest).take n)).mpr hpart
          have hsum := congrArg List.length htake
          rw [htake] at hmore
          rw [List.length_append] at hsum
          refine .inr ⟨herror, hmore, ?_⟩
          rw [List.length_append]
          omega

/-! ## 3. Uses of a backend -/

/-- A backend with a scripted sink whose counters tell of a history. -/
structure JsonBackend.Tells (b : JsonBackend) (name : String) (format : TimeFormat)
    (history : List Event) : Prop where
  sink : ∃ w, b.sink = .scripted w ∧ w.name = name
  format : b.format = format
  metrics : b.metrics.Tells history
  sound : ∀ event ∈ history, event.IsSound

/-- A backend that differs from another one only in what neither its sink nor its counters show. -/
structure JsonBackend.Rests (b b' : JsonBackend) : Prop where
  sink : b'.sink = b.sink
  format : b'.format = b.format
  metrics : b'.metrics = b.metrics

namespace JsonBackend

variable {b b' : JsonBackend} {name : String} {format : TimeFormat} {history : List Event}

theorem Tells.rest (h : b.Tells name format history) (hb : b.Rests b') :
    b'.Tells name format history :=
  ⟨hb.sink ▸ h.sink, hb.format.trans h.format, hb.metrics ▸ h.metrics, h.sound⟩

theorem Tells.append (h : b.Tells name format history) {event : Event}
    (hsink : ∃ w, b'.sink = .scripted w ∧ w.name = name) (hformat : b'.format = b.format)
    (hmetrics : b'.metrics = event.count b.metrics) (hsound : event.IsSound) :
    b'.Tells name format (history ++ [event]) where
  sink := hsink
  format := hformat.trans h.format
  metrics := hmetrics ▸ h.metrics.count event
  sound other hother := by
    rcases List.mem_append.mp hother with hold | hnew
    · exact h.sound other hold
    · rw [List.mem_singleton.mp hnew]
      exact hsound

/-- A line that is offered to the sink. -/
theorem Tells.writeLine (h : b.Tells name format history) {line : Bytes} (hline : line ≠ [])
    (host : Host) :
    ∃ got, (b.writeLine line host).2.buffer name = host.buffer name ++ got ∧
      (b.writeLine line host).1.Tells name format (history ++ [.offered line got]) := by
  obtain ⟨w, hw, rfl⟩ := h.sink
  have hwrite : b.sink.write line host =
      ((Scripted.offer w.writes line).1,
        .scripted { w with writes := (Scripted.offer w.writes line).2.2 },
        host.remember w.name (Scripted.offer w.writes line).2.1) := by
    rw [hw, Sink.write, if_neg (by rw [List.isEmpty_iff]; exact hline)]
    rfl
  refine ⟨(Scripted.offer w.writes line).2.1, ?_⟩
  rw [JsonBackend.writeLine, hwrite]
  obtain ⟨hok, hall⟩ | ⟨⟨e, herror⟩, hpart, hlength⟩ := Scripted.offer_cases w.writes line
  · rw [hok, hall]
    exact ⟨buffer_remember host w.name line,
      h.append ⟨_, rfl, rfl⟩ rfl (b.metrics.countLine_eq line) (.inl rfl)⟩
  · rw [herror]
    have hne : (Scripted.offer w.writes line).2.1 ≠ line := fun heq => by
      rw [heq] at hlength
      exact Nat.lt_irrefl _ hlength
    exact ⟨buffer_remember host w.name _,
      h.append ⟨_, rfl, rfl⟩ rfl (b.metrics.countError_eq hne) (.inr ⟨hpart, hlength⟩)⟩

end JsonBackend

namespace Entry

/-- Whether something is written of a call: its level is high enough, and it has a message, a key or
a value. -/
def isShown (e : Entry) (level : Level) (message : String) : Bool :=
  e.record.threshold.rank ≤ level.rank &&
    !(message.isEmpty && e.record.keys.isEmpty && e.record.vals.isEmpty)

/-- The record of a call of which something is written. -/
def emitted (e : Entry) (level : Level) (message : String) (site : CallSite) : Record :=
  { e.record with
    level := level
    message := message
    location? := site.location?
    module? := site.module? }

/-- The line of a call that is emitted at a time. -/
def line (e : Entry) (format : TimeFormat) (now : Time.Stamp) (level : Level) (message : String)
    (site : CallSite) : Bytes :=
  ((e.emitted level message site).balance.capture site.stack).line format (e.record.time?.getD now)

theorem line_ne_nil (e : Entry) (format : TimeFormat) (now : Time.Stamp) (level : Level)
    (message : String) (site : CallSite) : e.line format now level message site ≠ [] := by
  intro h
  have hend : Utf8.encode ['\x7d', '\n'] = [] := (List.append_eq_nil_iff.mp h).2
  exact absurd hend (by decide)

theorem committed_of_isShown {e : Entry} {level : Level} {message : String}
    (h : e.isShown level message = true) (site : CallSite) :
    System.committed e.record level message site = e.emitted level message site ∧
      (e.emitted level message site).isEmpty = false := by
  obtain ⟨hlevel, hsome⟩ := Bool.and_eq_true_iff.mp h
  exact ⟨System.committed_of_le (of_decide_eq_true hlevel) message site,
    (Bool.not_eq_true' _).mp hsome⟩

theorem committed_of_not_isShown {e : Entry} {level : Level} {message : String}
    (h : e.isShown level message = false) (site : CallSite) :
    (System.committed e.record level message site).isEmpty = true := by
  rcases Nat.lt_or_ge level.rank e.record.threshold.rank with hlow | hhigh
  · rw [System.committed_of_lt hlow]
    rfl
  · rw [System.committed_of_le hhigh]
    rw [isShown, decide_eq_true hhigh, Bool.true_and, Bool.not_eq_false'] at h
    exact h

end Entry

namespace JsonBackend

variable {b : JsonBackend} {name : String} {format : TimeFormat} {history : List Event}

/-- A record that is not empty becomes a line; of the host only the clock is used before. -/
theorem finalize_eq {r : Record} (hr : r.isEmpty = false) (stack : List Frame) (host : Host) :
    ∃ failed, b.finalize stack r host =
      let written := b.writeLine (b.complete stack (r.time?.getD host.localNow) r).buffer
        { host with now := host.now, clockFailed := failed }
      (written.1.release (b.complete stack (r.time?.getD host.localNow) r), written.2) := by
  obtain ⟨failed, htime⟩ := timeOr_eq host r.time?
  rw [finalize, hr, if_neg Bool.false_ne_true, htime]
  exact ⟨failed, rfl⟩

/-- A call that is emitted, and what the sink got then. -/
theorem Tells.commit (h : b.Tells name format history) (e : Entry) (level : Level)
    (message : String) (site : CallSite) (host : Host) :
    ∃ got,
      (b.finalize site.stack (System.committed e.record level message site) host).2.buffer name =
        host.buffer name ++ got ∧
      (b.finalize site.stack (System.committed e.record level message site) host).1.Tells name
        format (history ++ [if e.isShown level message then
          .offered (e.line format host.localNow level message site) got else .suppressed]) := by
  cases hshown : e.isShown level message with
  | false =>
    rw [finalize, if_pos (Entry.committed_of_not_isShown hshown site)]
    exact ⟨[], (List.append_nil _).symm,
      h.append h.sink rfl b.metrics.countSuppressed_eq trivial⟩
  | true =>
    obtain ⟨hcommitted, hnonempty⟩ := Entry.committed_of_isShown hshown site
    obtain ⟨failed, hfinal⟩ := finalize_eq (b := b) hnonempty site.stack host
    have hline : (b.complete site.stack ((e.emitted level message site).time?.getD host.localNow)
        (e.emitted level message site)).buffer =
          e.line format host.localNow level message site := by
      rw [← h.format]
      rfl
    obtain ⟨got, hgot, htells⟩ := h.writeLine
      (e.line_ne_nil format host.localNow level message site)
      { host with now := host.now, clockFailed := failed }
    rw [hcommitted, hfinal, hline]
    exact ⟨got, hgot, htells.rest ⟨rfl, rfl, rfl⟩⟩

/-- A sync of the sink, whether it is done or not. -/
theorem Tells.sink_sync (h : b.Tells name format history) (host : Host) :
    ∃ result w, b.sink.sync host = (result, .scripted w, host) ∧ w.name = name := by
  obtain ⟨w, hw, hname⟩ := h.sink
  have hkept : w.sync.2.name = w.name := by
    rw [Scripted.sync]
    split <;> rfl
  exact ⟨w.sync.1, w.sync.2, by rw [hw]; rfl, hkept.trans hname⟩

theorem Tells.sync (h : b.Tells name format history) (host : Host) :
    (b.sync host).2.1.Tells name format (history ++ [.synced (b.sink.sync host).1.isOk]) := by
  obtain ⟨result, w, hsync, hname⟩ := h.sink_sync host
  rw [JsonBackend.sync, hsync]
  cases result with
  | ok => exact h.append ⟨w, rfl, hname⟩ rfl (b.metrics.synced_count true).symm trivial
  | error e => exact h.append ⟨w, rfl, hname⟩ rfl (b.metrics.synced_count false).symm trivial

/-- The last sync is counted whether it fails or not. -/
theorem Tells.syncReporting (h : b.Tells name format history) (report : LogError → Report)
    (host : Host) :
    (b.syncReporting report host).1.Tells name format
      (history ++ [.lastSynced (b.sink.sync host).1.isOk]) := by
  obtain ⟨result, w, hsync, hname⟩ := h.sink_sync host
  rw [JsonBackend.syncReporting, JsonBackend.sync, hsync]
  cases result with
  | ok => exact h.append ⟨w, rfl, hname⟩ rfl (b.metrics.lastSynced_count true).symm trivial
  | error e => exact h.append ⟨w, rfl, hname⟩ rfl (b.metrics.lastSynced_count false).symm trivial

end JsonBackend

/-! ## 4. Steps that ask nothing of the sink -/

/-- Of a backend that writes, neither the sink nor the counters have changed. -/
def Backend.Rests (b b' : Backend) : Prop :=
  ∀ json, b = .json json → ∃ json', b' = .json json' ∧ json.Rests json'

/-- Whether a use asks nothing of the sink, and is not counted. -/
def Backend.Use.isQuiet : Use → Bool
  | acquire | release _ | mount | takePending => true
  | finalize _ _ | sync | syncLast | unmount | tick | resetMetrics | close => false

theorem Backend.Rests.refl (b : Backend) : b.Rests b := fun json h => ⟨json, h, rfl, rfl, rfl⟩

theorem Backend.Rests.use {b b' : Backend} (h : b.Rests b') (host : Host) {u : Use}
    (hu : u.isQuiet = true) : b.Rests (b'.use host u).1 := by
  intro json hjson
  obtain ⟨json', rfl, hsink, hformat, hmetrics⟩ := h json hjson
  cases u with
  | acquire | release | mount | takePending => exact ⟨_, rfl, hsink, hformat, hmetrics⟩
  | finalize | sync | syncLast | unmount | tick | resetMetrics | close => cases hu

namespace System

variable {id : Nat} {s s' : System}

/-- Of the backend with a number, neither the sink nor the counters have changed. -/
def Rests (id : Nat) (s s' : System) : Prop := (s.backend id).Rests (s'.backend id)

theorem Rests.of_eq (h : s'.backend id = s.backend id) : Rests id s s' := by
  rw [Rests, h]
  exact .refl _

theorem Rests.of_uses (hs : s.Uses (fun id' u => id' = id → u.isQuiet = true) s') :
    Rests id s s' :=
  hs.backend (P := (s.backend id).Rests) (fun _ host _ hu hb => hb.use host (hu rfl)) (.refl _)

theorem addBackend_rests (b : Backend) : Rests id s (s.addBackend b).2 := by
  intro json hjson
  rw [addBackend_old (lt_length_of_backend hjson (by simp))]
  exact Backend.Rests.refl _ json hjson

end System

/-- A step that asks nothing of the sink of the backend with a number: handles and entries are made
on any backend, other backends come and go and are used, and outside of the system anything may
happen. -/
inductive Idle (id : Nat) : System → System → Prop
  | outside {s : System} (host : Host) : Idle id s { s with host := host }
  | connect {s : System} (b : Backend) : Idle id s (s.addBackend b).2
  | newLogger {s : System} (other : Nat) : Idle id s (s.newLogger other).2
  | setThreshold {s : System} (l : Logger) (level : Level) : Idle id s (s.setThreshold l level)
  | entry {s : System} (l : Logger) : Idle id s (s.entry l).2
  | intoLogger {s : System} (e : Entry) : Idle id s (s.intoLogger e).2
  | mount {s : System} (l : Logger) : Idle id s (s.mount l)
  | commit {s : System} (e : Entry) (level : Level) (message : String) (site : CallSite) :
      e.backend ≠ id → Idle id s (s.commit e level message site)
  | handoff {s : System} (source : Nat) (next : Logger) :
      next.backend ≠ id → Idle id s (s.handoff source next)
  | sync {s : System} (l : Logger) : l.backend ≠ id → Idle id s (s.sync l).2
  | tick {s : System} {other : Nat} (b : JsonBackend) : other ≠ id →
      Idle id s ({ s with host := (b.tick s.host).2 }.setBackend other (.json (b.tick s.host).1))
  | unmount {s : System} (l : Logger) : l.backend ≠ id → Idle id s (s.unmount l)
  | resetMetrics {s : System} (l : Logger) : l.backend ≠ id → Idle id s (s.resetMetrics l)
  | closeBackend {s : System} {other : Nat} : other ≠ id → Idle id s (s.closeBackend other)

theorem Idle.rests {id : Nat} {s s' : System} (step : Idle id s s') : System.Rests id s s' := by
  cases step with
  | outside host => exact .of_eq rfl
  | connect b => exact System.addBackend_rests b
  | newLogger other =>
    exact .of_uses (System.newLogger_uses (fun _ => rfl) fun _ _ => rfl)
  | setThreshold l level => exact .of_eq rfl
  | entry l => exact .of_uses (System.entry_uses fun _ => rfl)
  | intoLogger e => exact .of_uses (System.intoLogger_uses fun _ _ => rfl)
  | mount l => exact .of_uses (System.mount_uses fun _ => rfl)
  | commit e level message site he =>
    exact .of_uses (System.commit_uses (fun _ _ heq => absurd heq he) _ _ _)
  | handoff source next hnext =>
    exact .of_uses (System.handoff_uses (fun _ => rfl) fun _ heq => absurd heq hnext)
  | sync l hl => exact .of_uses (System.sync_uses fun heq => absurd heq hl)
  | tick b hother =>
    exact .of_eq (System.setBackend_apart (s := { s with host := _ }) (Ne.symm hother) _)
  | unmount l hl => exact .of_uses (System.unmount_uses fun heq => absurd heq hl)
  | resetMetrics l hl => exact .of_uses (System.resetMetrics_uses fun heq => absurd heq hl)
  | closeBackend hother => exact .of_uses (System.closeBackend_uses fun heq => absurd heq hother)

/-! ## 5. Runs -/

/-- Whether the sink of a backend would now be synced. -/
def Backend.canSync (host : Host) : Backend → Bool
  | json b => (b.sink.sync host).1.isOk
  | init _ => true
  | null => true

namespace System

def canSync (s : System) (id : Nat) : Bool := (s.backend id).canSync s.host

/-- What comes of a call that is emitted now. What the sink gets goes to the buffer of a name. -/
def outcome (s : System) (name : String) (format : TimeFormat) (e : Entry) (level : Level)
    (message : String) (site : CallSite) : Event :=
  if e.isShown level message then
    .offered (e.line format s.host.localNow level message site)
      (((s.commit e level message site).host.buffer name).drop (s.host.buffer name).length)
  else .suppressed

/-- What comes of the calls that are made again when records are replayed, one for each record. -/
def replayed (name : String) (format : TimeFormat) (l : Logger) : System → List Record → List Event
  | _, [] => []
  | s, r :: rest =>
    (s.entry l).2.outcome name format (s.replayEntry l r) r.level r.message .nowhere ::
      replayed name format l (s.replay l r) rest

/-- What comes of a handoff: nothing if nothing was held back, and otherwise a call for each record
and a sync. -/
def handedOver (s : System) (name : String) (format : TimeFormat) (source : Nat) (next : Logger) :
    List Event :=
  let records := (s.backend source).takePending.1
  if records.isEmpty then []
  else
    let (l, s) := (s.setBackend source (s.backend source).takePending.2).replayer next
    replayed name format l s records ++ [.synced ((s.replayAll l records).canSync next.backend)]

theorem outcome_isCall (s : System) (name : String) (format : TimeFormat) (e : Entry)
    (level : Level) (message : String) (site : CallSite) :
    (s.outcome name format e level message site).isCall = true := by
  unfold outcome
  split
  · rfl
  · rfl

theorem countP_replayed (name : String) (format : TimeFormat) (l : Logger) (s : System)
    (records : List Record) :
    (replayed name format l s records).countP Event.isCall = records.length := by
  induction records generalizing s with
  | nil => rfl
  | cons r rest ih =>
    rw [replayed, List.countP_cons_of_pos (outcome_isCall ..), ih, List.length_cons]

/-- A handoff emits one call for each record that was held back. -/
theorem countP_handedOver (s : System) (name : String) (format : TimeFormat) (source : Nat)
    (next : Logger) :
    (s.handedOver name format source next).countP Event.isCall =
      (s.backend source).takePending.1.length := by
  unfold handedOver
  dsimp only
  split
  · next hempty =>
    rw [List.isEmpty_iff.mp hempty]
    rfl
  · rw [countP_snoc, countP_replayed]
    rfl

end System

/-- A run over a backend with a scripted sink: the system, and what has come of the uses of the
backend, the oldest first. The handles, the entries, and the records that are handed over may be any
at all. -/
inductive Tallied (name : String) (format : TimeFormat) (id : Nat) : System → List Event → Prop
  | connect (s : System) (w : Scripted) (threshold : Level) (capture : Capture) (interval : Nat) :
      w.name = name → s.backends.length = id →
      Tallied name format id
        (s.addBackend (.json (.new (.scripted w) threshold capture format interval))).2 []
  | idle {s s' : System} {history : List Event} :
      Tallied name format id s history → Idle id s s' → Tallied name format id s' history
  | emit {s : System} {history : List Event} (e : Entry) (level : Level) (message : String)
      (site : CallSite) : Tallied name format id s history → e.backend = id →
      Tallied name format id (s.commit e level message site)
        (history ++ [s.outcome name format e level message site])
  | handoff {s : System} {history : List Event} (source : Nat) (next : Logger) :
      Tallied name format id s history → next.backend = id →
      Tallied name format id (s.handoff source next)
        (history ++ s.handedOver name format source next)
  | sync {s : System} {history : List Event} (l : Logger) :
      Tallied name format id s history → l.backend = id →
      Tallied name format id (s.sync l).2 (history ++ [.synced (s.canSync id)])
  | unmount {s : System} {history : List Event} (l : Logger) :
      Tallied name format id s history → l.backend = id →
      Tallied name format id (s.unmount l) (history ++ [.lastSynced (s.canSync id)])

/-- The backend with a number has counters that tell of a history. -/
def System.Tells (s : System) (name : String) (format : TimeFormat) (id : Nat)
    (history : List Event) : Prop :=
  ∃ b, s.backend id = .json b ∧ b.Tells name format history

namespace System.Tells

variable {s s' : System} {name : String} {format : TimeFormat} {id : Nat} {history : List Event}

theorem rest (h : s.Tells name format id history) (hs : Rests id s s') :
    s'.Tells name format id history := by
  obtain ⟨b, hb, htells⟩ := h
  obtain ⟨b', hb', hrests⟩ := hs b hb
  exact ⟨b', hb', htells.rest hrests⟩

theorem set {b b' : JsonBackend} (hb : s.backend id = .json b)
    (htells : b'.Tells name format history) (host : Host) :
    ({ s with host := host }.setBackend id (.json b')).Tells name format id history :=
  ⟨b', setBackend_at (s := { s with host := host }) (lt_length_of_backend hb (by simp)) _, htells⟩

theorem commit {e : Entry} (h : s.Tells name format e.backend history) (level : Level)
    (message : String) (site : CallSite) :
    (s.commit e level message site).Tells name format e.backend
      (history ++ [s.outcome name format e level message site]) := by
  obtain ⟨b, hb, htells⟩ := h
  obtain ⟨got, hgot, hafter⟩ := htells.commit e level message site s.host
  have hcommit : s.commit e level message site =
      { s with host := (b.finalize site.stack (committed e.record level message site) s.host).2
        }.setBackend e.backend
        (.json (b.finalize site.stack (committed e.record level message site) s.host).1) := by
    rw [System.commit, System.finalize, hb]
    rfl
  have hhost : (s.commit e level message site).host =
      (b.finalize site.stack (committed e.record level message site) s.host).2 := by
    rw [hcommit]
    rfl
  have hdrop : ((s.commit e level message site).host.buffer name).drop
      (s.host.buffer name).length = got := by
    rw [hhost, hgot, List.drop_left]
  rw [outcome, hdrop, hcommit]
  exact set hb hafter _

theorem replay {l : Logger} (h : s.Tells name format l.backend history) (r : Record) :
    (s.replay l r).Tells name format l.backend
      (history ++ [(s.entry l).2.outcome name format (s.replayEntry l r) r.level r.message
        .nowhere]) := by
  have hbackend := s.replayEntry_backend l r
  rw [replay_eq]
  rw [← hbackend] at h ⊢
  exact (h.rest (.of_uses (entry_uses fun _ => rfl))).commit r.level r.message .nowhere

theorem replayAll {l : Logger} (h : s.Tells name format l.backend history)
    (records : List Record) :
    (s.replayAll l records).Tells name format l.backend
      (history ++ replayed name format l s records) := by
  induction records generalizing s history with
  | nil =>
    rw [replayed, List.append_nil]
    exact h
  | cons r rest ih =>
    have hrest := ih (h.replay r)
    rw [List.append_assoc, List.singleton_append] at hrest
    exact hrest

theorem sync {l : Logger} (h : s.Tells name format l.backend history) :
    (s.sync l).2.Tells name format l.backend (history ++ [.synced (s.canSync l.backend)]) := by
  obtain ⟨b, hb, htells⟩ := h
  rw [System.sync, canSync, hb]
  exact set hb (htells.sync s.host) _

theorem syncLast (h : s.Tells name format id history) :
    (s.use id .syncLast).Tells name format id (history ++ [.synced (s.canSync id)]) := by
  obtain ⟨b, hb, htells⟩ := h
  have hsynced : (b.syncLast s.host).1.Tells name format
      (history ++ [.synced (b.sink.sync s.host).1.isOk]) := by
    rw [b.syncLast_fst]
    exact htells.sync s.host
  rw [System.use, canSync, hb]
  exact set hb hsynced _

theorem unmount {l : Logger} (h : s.Tells name format l.backend history) :
    (s.unmount l).Tells name format l.backend (history ++ [.lastSynced (s.canSync l.backend)]) := by
  obtain ⟨b, hb, htells⟩ := h
  rw [System.unmount, canSync, hb]
  have hstopped : JsonBackend.Tells { b with mounted := false } name format history :=
    htells.rest ⟨rfl, rfl, rfl⟩
  exact set hb (hstopped.syncReporting .finalSync s.host) _

theorem handoff {next : Logger} (h : s.Tells name format next.backend history) (source : Nat) :
    (s.handoff source next).Tells name format next.backend
      (history ++ s.handedOver name format source next) := by
  have htaken : (s.use source .takePending).Tells name format next.backend history :=
    h.rest (.of_uses (.one fun _ => rfl))
  have hready : ((s.use source .takePending).replayer next).2.Tells name format next.backend
      history := htaken.rest (.of_uses (replayer_uses (fun _ => rfl) fun _ _ => rfl))
  rw [handoff_taken, handedOver]
  dsimp only
  split
  · rw [List.append_nil]
    exact htaken
  -- the handle of the replay is on the same backend, so its calls are counted there
  rw [← replayer_backend (s.use source .takePending) next] at hready
  have hreplayed := hready.replayAll (s.backend source).takePending.1
  rw [replayer_backend] at hreplayed
  rw [← List.append_assoc]
  exact hreplayed.syncLast

end System.Tells

theorem Tallied.tells {name : String} {format : TimeFormat} {id : Nat} {s : System}
    {history : List Event} (run : Tallied name format id s history) :
    s.Tells name format id history := by
  induction run with
  | connect s w threshold capture interval hname hid =>
    refine ⟨.new (.scripted w) threshold capture format interval, ?_, ⟨w, rfl, hname⟩, rfl,
      Metrics.tells_nil, fun _ h => absurd h List.not_mem_nil⟩
    rw [← hid, System.backend, System.addBackend]
    simp
  | idle _ step ih => exact ih.rest step.rests
  | emit e level message site _ he ih =>
    subst he
    exact ih.commit level message site
  | handoff source next _ hnext ih =>
    subst hnext
    exact ih.handoff source
  | sync l _ hl ih =>
    subst hl
    exact ih.sync
  | unmount l _ hl ih =>
    subst hl
    exact ih.unmount

/-- After any run, whatever the sink did, the counters are those of what has happened, and so they
are after the last sync when the backend is then given up. Every call that was emitted is counted
exactly once, as written, suppressed or failed, a handoff being one call for each record, and what
the sink got of a line that failed is a proper prefix of it. -/
theorem counters_keep_count {name : String} {format : TimeFormat} {id : Nat} {s : System}
    {history : List Event} (run : Tallied name format id s history) :
    ∃ b, s.backend id = .json b ∧ b.metrics.Tells history ∧
      (b.unmount s.host).1.metrics.Tells (history ++ [.lastSynced (s.canSync id)]) ∧
      (s.closeBackend id).host = (b.unmount s.host).1.sink.close (b.unmount s.host).2 ∧
      history.countP Event.isCall = history.countP Event.isWritten +
        history.countP Event.isSuppressed + history.countP Event.isFailed ∧
      (∀ source next, (s.handedOver name format source next).countP Event.isCall =
        (s.backend source).takePending.1.length) ∧
      ∀ line got, .offered line got ∈ history → got ≠ line →
        got <+: line ∧ got.length < line.length := by
  obtain ⟨b, hb, htells⟩ := run.tells
  have hstopped : JsonBackend.Tells { b with mounted := false } name format history :=
    htells.rest ⟨rfl, rfl, rfl⟩
  refine ⟨b, hb, htells.metrics, ?_, ?_, calls_eq history, s.countP_handedOver name format,
    fun line got hmem hne => ?_⟩
  · rw [System.canSync, hb]
    exact (hstopped.syncReporting .finalSync s.host).metrics
  · rw [System.closeBackend, hb]
    rfl
  · exact (htells.sound _ hmem).resolve_left hne

/-- A call with the threshold `info` and no field. -/
def plainCall : Entry := ⟨0, { Record.blank with threshold := .info }, false⟩

/-- A record that is held back. -/
def heldRecord : Record :=
  { Record.blank with
    level := .error
    message := "early"
    time? := some ((Time.Zone.fixed 0).stamp ⟨0, 0⟩) }

/-- A handle on the backend 0. -/
def plainLogger : Logger := ⟨0, 0, ⟨0, .none⟩, [], []⟩

/-- A sink that stops within a line, then takes one, then takes nothing, and of three syncs does the
second only. -/
def faultySink : Scripted :=
  ⟨"out", [.atMost 9, .interrupted, .fail "full", .accept, .atMost 0],
    [some "busy", none, some "gone"]⟩

/-- A system with a backend for the sink. -/
def faultyStart : System :=
  ((System.start (.start "/" (.fixed 0) ⟨0, 0⟩)).addBackend
    (.json (.new (.scripted faultySink) .info .none .none 0))).2

/-- A run in which calls are written, suppressed and fail. -/
def faulty : System :=
  ((((((((faultyStart.addBackend (.init [heldRecord])).2.commit plainCall .info "first"
    .nowhere).commit plainCall .debug "quiet" .nowhere).handoff 1 plainLogger).commit plainCall
      .fatal "" .nowhere).commit plainCall .warning "second" .nowhere).sync plainLogger).2.unmount
        plainLogger)

theorem counters_keep_count_faulty :
    ∃ history, Tallied "out" .none 0 faulty history ∧ ∃ b, faulty.backend 0 = .json b ∧
      b.metrics.lines.toNat = 1 ∧ b.metrics.bytes.toNat = 46 ∧ b.metrics.suppressed.toNat = 2 ∧
      b.metrics.writeErrors.toNat = 3 ∧ b.metrics.syncs.toNat = 1 := by
  have start : Tallied "out" .none 0 faultyStart [] :=
    .connect (.start (.start "/" (.fixed 0) ⟨0, 0⟩)) faultySink .info .none 0 rfl rfl
  have ready := start.idle (.connect (.init [heldRecord]))
  have run := (((((ready.emit plainCall .info "first" .nowhere rfl).emit plainCall .debug "quiet"
    .nowhere rfl).handoff 1 plainLogger rfl).emit plainCall .fatal "" .nowhere rfl).emit plainCall
      .warning "second" .nowhere rfl).sync plainLogger rfl |>.unmount plainLogger rfl
  refine ⟨_, run, ?_⟩
  obtain ⟨b, hb, htells, -⟩ := counters_keep_count run
  refine ⟨b, hb, htells.lines.trans ?_, htells.bytes.trans ?_, htells.suppressed.trans ?_,
    htells.writeErrors.trans ?_, htells.syncs.trans ?_⟩
  · decide +kernel
  · decide +kernel
  · decide +kernel
  · decide +kernel
  · decide +kernel

end Logbook
