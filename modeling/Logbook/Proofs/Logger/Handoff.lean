import Logbook.Proofs.Logger.Early

/-!
# Handing over what was held back

A handoff passes what a backend holds back to a handle on a backend that writes. Replaying rebuilds
each call on a handle of its own: the time goes through the field that sets the time of a call, keys
and values are added in bulk and so stay fields whatever they are called, and a word given to the
handle keeps the caller from being recorded.

| part of the line | where it comes from                                             |
|------------------|-----------------------------------------------------------------|
| time             | the time given for the early call, or that of the clock then    |
| level, message   | the early call                                                  |
| fields           | those of the handle, then those of the early call               |

Results:
1. `Receiver.console`, `Receiver.memory`, `Receiver.scripted`: sinks that also keep what they took.
2. `Held.draft_written`: the call that a replay makes comes to the line of what was told.
3. `JsonBackend.finalize_call`: what a backend that writes makes of this call, whatever its sink is.
4. `System.Shows.handoff`: and of a handoff.
5. `Receiver.receive_takes`, `handoff_replays`: a handoff to a sink that takes everything, after any
   run.
-/

namespace Logbook

/-! ## 1. Sinks that keep what they took -/

/-- A sink that takes everything, also after it has been synced and after a failure has been
reported, neither of which changes what it has received. -/
structure Receiver extends Taker where
  sync : ∀ {sink : Sink} {host : Host}, takes sink host →
    takes (sink.sync host).2.1 (sink.sync host).2.2 ∧
      received (sink.sync host).2.1 (sink.sync host).2.2 = received sink host
  report : ∀ {sink : Sink} {host : Host} (r : Report), takes sink host →
    takes sink (host.report r) ∧ received sink (host.report r) = received sink host

def Receiver.console : Receiver where
  toTaker := .console
  sync h := by
    subst h
    exact ⟨rfl, rfl⟩
  report _ h := ⟨h, rfl⟩

def Receiver.memory (name : String) : Receiver where
  toTaker := .memory name
  sync h := by
    subst h
    exact ⟨rfl, rfl⟩
  report _ h := ⟨h, rfl⟩

/-- The syncs of a scripted sink may fail as planned. -/
def Receiver.scripted (name : String) : Receiver where
  toTaker := .scripted name
  sync {sink host} h := by
    obtain ⟨s, rfl, rfl, hw⟩ := h
    have hsync : s.sync.2.name = s.name ∧ s.sync.2.writes = s.writes := by
      unfold Scripted.sync
      split <;> exact ⟨rfl, rfl⟩
    exact ⟨⟨s.sync.2, rfl, hsync.1, hsync.2.symm ▸ hw⟩, rfl⟩
  report _ h := ⟨h, rfl⟩

/-! ## 2. Lines -/

namespace Held

/-- The fields of a line: those of the handle and those of the early call, in pairs as far as keys
and values go together, and one that tells of a mismatch. -/
def fields (told : Held) (keys : List String) (vals : List Value) : List (String × Value) :=
  (keys ++ told.keys).zip (vals ++ told.vals) ++
    if (keys ++ told.keys).length = (vals ++ told.vals).length then []
    else [(Record.mismatchKey, .text Record.mismatchMessage)]

/-- The line of what was told, after base fields. -/
def line (told : Held) (format : TimeFormat) (keys : List String) (vals : List Value) : Bytes :=
  Utf8.encode ("\x7b\"time\":\"".toList ++ format.render told.time ++ "\",\"level\":\"".toList ++
    told.level.name.toList ++ ['"']) ++
    (told.fields keys vals).flatMap (fun (key, value) => Line.field key value) ++
    Line.message told.message ++ Utf8.encode ['\x7d', '\n']

/-- The call that a replay makes on a handle. -/
def draft (told : Held) (threshold : Level) (l : Logger) : Journal.Draft :=
  ⟨threshold, l.caller, l.keys, l.vals, [.one "time" (.time told.time), .many told.keys told.vals]⟩

theorem draft_keys (told : Held) (threshold : Level) (l : Logger) :
    (told.draft threshold l).keys = l.keys ++ told.keys := by
  simp [draft, Journal.Draft.keys, Journal.Addition.keys, Journal.isControl]

theorem draft_vals (told : Held) (threshold : Level) (l : Logger) :
    (told.draft threshold l).vals = l.vals ++ told.vals := by
  simp [draft, Journal.Draft.vals, Journal.Addition.vals, Journal.isControl]

/-- The record of the call that a replay makes on a handle. -/
def call (told : Held) (threshold : Level) (l : Logger) : Record :=
  { Record.blank with
    threshold := threshold
    caller := l.caller
    keys := l.keys ++ told.keys
    vals := l.vals ++ told.vals
    time? := some told.time }

theorem draft_record (told : Held) (threshold : Level) (l : Logger) :
    (told.draft threshold l).entry.record = told.call threshold l := by
  rw [Journal.Draft.entry, draft_keys, draft_vals]
  rfl

/-- What is not empty by itself is not empty after base fields either. -/
theorem nonempty_behind {told : Held} {r : Record} (hr : r.Tells told) (keys : List String)
    (vals : List Value) :
    (told.message.isEmpty && (keys ++ told.keys).isEmpty && (vals ++ told.vals).isEmpty) =
      false := by
  have hempty := hr.nonempty
  rw [Record.isEmpty, hr.message_eq, hr.keys_eq, hr.vals_eq] at hempty
  refine Bool.eq_false_iff.mpr fun hall => Bool.eq_false_iff.mp hempty ?_
  simp only [Bool.and_eq_true, List.isEmpty_iff, List.append_eq_nil_iff] at hall ⊢
  exact ⟨⟨hall.1.1, hall.1.2.2⟩, hall.2.2⟩

/-- What was told, with base fields before its own. -/
def behind (told : Held) (keys : List String) (vals : List Value) : Held :=
  { told with keys := keys ++ told.keys, vals := vals ++ told.vals }

/-- If the level reaches the threshold, the record of the call tells of it, behind the base
fields. -/
theorem call_tells {told : Held} {r : Record} (hr : r.Tells told) {threshold : Level}
    (h : threshold.rank ≤ told.level.rank) (l : Logger) :
    (System.committed (told.call threshold l) told.level told.message .nowhere).Tells
      (told.behind l.keys l.vals) := by
  rw [System.committed_of_le (r := told.call threshold l) h]
  exact ⟨rfl, rfl, rfl, rfl, rfl, nonempty_behind hr l.keys l.vals⟩

theorem call_empty {told : Held} {threshold : Level} (h : told.level.rank < threshold.rank)
    (l : Logger) :
    (System.committed (told.call threshold l) told.level told.message .nowhere).isEmpty =
      true := by
  rw [System.committed_of_lt (r := told.call threshold l) h]
  rfl

/-- A replayed call comes to the line of what was told, if its level reaches the threshold. -/
theorem draft_written {told : Held} {r : Record} (hr : r.Tells told) {l : Logger}
    (hmode : l.caller.mode = .disabled) (threshold : Level) (format : TimeFormat)
    (now : Time.Stamp) :
    (told.draft threshold l).written format now told.level told.message .nowhere =
      if threshold.rank ≤ told.level.rank then told.line format l.keys l.vals else [] := by
  have htime : (told.draft threshold l).time? = some told.time := rfl
  have hcaptured : (told.draft threshold l).captured .nowhere = [] := by
    rw [Journal.Draft.captured, show (told.draft threshold l).depth = l.caller from rfl, hmode]
  have hwritten : (told.draft threshold l).isWritten told.level told.message =
      decide (threshold.rank ≤ told.level.rank) := by
    rw [Journal.Draft.isWritten, draft_keys, draft_vals, nonempty_behind hr, Bool.not_false,
      Bool.and_true]
    rfl
  rw [Journal.Draft.written, hwritten, Journal.Draft.line, hcaptured, List.append_nil,
    Journal.Draft.fields, draft_keys, draft_vals, htime, Option.getD_some]
  simp only [decide_eq_true_eq]
  rfl

end Held

/-! ## 3. What a backend that writes makes of a handoff -/

namespace JsonBackend

variable (b : JsonBackend)

/-- What a backend makes of a call that is replayed: it writes the line, or counts the call as
suppressed. -/
def offer (threshold : Level) (keys : List String) (vals : List Value) (told : Held)
    (host : Host) : JsonBackend × Host :=
  if threshold.rank ≤ told.level.rank then b.writeLine (told.line b.format keys vals) host
  else ({ b with metrics := b.metrics.countSuppressed }, host)

def offerAll (threshold : Level) (keys : List String) (vals : List Value) :
    List Held → JsonBackend → Host → JsonBackend × Host
  | [], b, host => (b, host)
  | told :: rest, b, host =>
    offerAll threshold keys vals rest (b.offer threshold keys vals told host).1
      (b.offer threshold keys vals told host).2

/-- What a backend makes of a handoff through a handle with a threshold and base fields. -/
def receive (threshold : Level) (keys : List String) (vals : List Value) (held : List Held)
    (host : Host) : JsonBackend × Host :=
  if held.isEmpty then (b, host)
  else
    (offerAll threshold keys vals held b host).1.syncLast
      (offerAll threshold keys vals held b host).2

/-! Nothing of this depends on the pool. -/

theorem writeLine_with (pool : Pool) (line : Bytes) (host : Host) :
    writeLine { b with pool := pool } line host =
      ({ (b.writeLine line host).1 with pool := pool }, (b.writeLine line host).2) := by
  unfold writeLine
  dsimp only
  rcases b.sink.write line host with ⟨_ | ⟨⟨⟩⟩, sink, host'⟩
  · rfl
  · rfl

theorem offer_with (pool : Pool) (threshold : Level) (keys : List String) (vals : List Value)
    (told : Held) (host : Host) :
    offer { b with pool := pool } threshold keys vals told host =
      ({ (b.offer threshold keys vals told host).1 with pool := pool },
        (b.offer threshold keys vals told host).2) := by
  unfold offer
  split
  · exact b.writeLine_with pool _ host
  · rfl

theorem syncLast_with (pool : Pool) (host : Host) :
    syncLast { b with pool := pool } host =
      ({ (b.syncLast host).1 with pool := pool }, (b.syncLast host).2) := by
  unfold syncLast sync
  dsimp only
  rcases b.sink.sync host with ⟨_ | ⟨⟨⟩⟩, sink, host'⟩
  · rfl
  · rfl

/-- The record of a replayed call comes to what the backend makes of the call. -/
theorem finalize_call {told : Held} {r : Record} (hr : r.Tells told) {l : Logger}
    (hmode : l.caller.mode = .disabled) (threshold : Level) (host : Host) :
    ∃ r', b.finalize [] (System.committed (told.call threshold l) told.level told.message .nowhere)
        host = ((b.offer threshold l.keys l.vals told host).1.release r',
          (b.offer threshold l.keys l.vals told host).2) := by
  have hwritten := ((told.draft threshold l).committed_written b told.time told.level told.message
    .nowhere).trans (Held.draft_written hr hmode threshold b.format told.time)
  rw [told.draft_record] at hwritten
  unfold offer
  rcases Nat.lt_or_ge told.level.rank threshold.rank with hlow | hhigh
  · rw [if_neg (Nat.not_le_of_lt hlow), finalize, if_pos (Held.call_empty hlow l)]
    exact ⟨_, rfl⟩
  · have htells := Held.call_tells hr hhigh l
    generalize System.committed (told.call threshold l) told.level told.message .nowhere = shown
      at hwritten htells ⊢
    have htime : shown.time? = some told.time := htells.time_eq
    rw [htells.nonempty, if_neg Bool.false_ne_true, if_pos hhigh, htime, Option.getD_some]
      at hwritten
    rw [if_pos hhigh, finalize, htells.nonempty, if_neg Bool.false_ne_true, htime, ← hwritten]
    exact ⟨b.complete [] told.time shown, rfl⟩

end JsonBackend

/-! ## 4. Handoffs to a backend that writes -/

namespace System

variable {s s' : System} {id : Nat} {b b' : JsonBackend} {host host' : Host}

/-- The host, and a backend that writes up to its pool, which hands out fresh records. -/
structure Shows (s : System) (id : Nat) (b : JsonBackend) (host : Host) : Prop where
  host : s.host = host
  backend : ∃ pool threshold caller,
    s.backend id = .json { b with pool := pool } ∧ pool.IsFresh threshold caller

theorem Shows.handsOut (h : s.Shows id b host) :
    ∃ threshold caller, (s.backend id).HandsOut threshold caller := by
  obtain ⟨-, pool, threshold, caller, hb, hfresh⟩ := h
  rw [hb]
  exact ⟨threshold, caller, hfresh⟩

theorem IsOrderly.shows (h : s.IsOrderly) (hb : s.backend id = .json b) :
    s.Shows id b s.host := by
  obtain ⟨threshold, caller, hfresh⟩ := (h id).handsOut
  rw [hb] at hfresh
  exact ⟨rfl, b.pool, threshold, caller, hb, hfresh⟩

/-- What another backend holds back does not show. -/
theorem Shows.hold {source : Nat} {records : List Record} (h : s.Shows id b host)
    (hsource : s.backend source = .init records) (kept : List Record) :
    (s.setBackend source (.init kept)).Shows id b host := by
  obtain ⟨hhost, pool, threshold, caller, hb, hfresh⟩ := h
  have hne : id ≠ source := by
    rintro rfl
    rw [hb] at hsource
    cases hsource
  exact ⟨hhost, pool, threshold, caller, (setBackend_apart hne _).trans hb, hfresh⟩

/-- A use of the backend, whatever pool it has. -/
theorem Shows.use (h : s.Shows id b host) {u : Backend.Use} (hu : u ≠ .close)
    (huse : ∀ pool, ∃ pool', (Backend.json { b with pool := pool }).use host u =
      (.json { b' with pool := pool' }, host')) : (s.use id u).Shows id b' host' := by
  obtain ⟨rfl, pool, threshold, caller, hb, hfresh⟩ := h
  obtain ⟨pool', heq⟩ := huse pool
  have hkept := Backend.HandsOut.use (b := .json { b with pool := pool }) hfresh s.host hu
  rw [heq] at hkept
  refine ⟨?_, pool', threshold, caller, ?_, hkept⟩
  · show ((s.backend id).use s.host u).2 = host'
    rw [hb, heq]
  · rw [use_at (lt_length_of_backend hb (by simp)), hb, heq]

/-- Records that are lent by the backend, and handles that are made, do not show. -/
theorem Shows.lent (h : s.Shows id b host)
    (hs : s.Uses (fun id' u => id' = id ∧ (u = .acquire ∨ ∃ r, u = .release r)) s') :
    s'.Shows id b host := by
  induction hs with
  | nothing => exact h
  | use _ hu ih =>
    obtain ⟨rfl, rfl | ⟨r, rfl⟩⟩ := hu
    · exact ih.use (by simp) fun pool => ⟨pool.acquire.2, rfl⟩
    · exact ih.use (by simp) fun pool => ⟨pool.release r, rfl⟩
  | addFamily threshold _ ih => exact ⟨ih.host, ih.backend⟩

/-- A record that is replayed is the call that was told of, made again on the handle. -/
theorem replay_call {l : Logger} {threshold : Level} {caller : CallerDepth}
    (h : (s.backend l.backend).HandsOut threshold caller) {r : Record} {told : Held}
    (hr : r.Tells told) :
    s.replay l r = (s.entry l).2.use l.backend (.finalize [] (committed
      (told.call (s.threshold l) l) told.level told.message .nowhere)) := by
  rw [System.replay, hr.time_eq]
  dsimp only
  rw [entry_eq h, hr.level_eq, hr.message_eq, hr.keys_eq, hr.vals_eq]
  rfl

/-- One record that is replayed on a handle that records no caller. -/
theorem Shows.replay {l : Logger} (h : s.Shows l.backend b host)
    (hmode : l.caller.mode = .disabled) {r : Record} {told : Held} (hr : r.Tells told) :
    (s.replay l r).Shows l.backend (b.offer (s.threshold l) l.keys l.vals told host).1
      (b.offer (s.threshold l) l.keys l.vals told host).2 := by
  obtain ⟨threshold, caller, hfresh⟩ := h.handsOut
  rw [replay_call hfresh hr]
  refine Shows.use (h.lent (entry_uses ⟨rfl, .inl rfl⟩)) (by simp) fun pool => ?_
  obtain ⟨r', hfinal⟩ := JsonBackend.finalize_call { b with pool := pool } hr hmode (s.threshold l)
    host
  refine ⟨pool.release r', ?_⟩
  rw [Backend.use, Backend.finalize, hfinal, b.offer_with]
  rfl

theorem Shows.replayAll {l : Logger} (h : s.Shows l.backend b host)
    (hmode : l.caller.mode = .disabled) {records : List Record} {held : List Held}
    (hall : List.Forall₂ Record.Tells records held) :
    (s.replayAll l records).Shows l.backend
      (JsonBackend.offerAll (s.threshold l) l.keys l.vals held b host).1
      (JsonBackend.offerAll (s.threshold l) l.keys l.vals held b host).2 := by
  induction hall generalizing s b host with
  | nil => exact h
  | @cons r told records held hr _ ih =>
    have hrest := ih (h.replay hmode hr)
    rw [System.threshold, replay_thresholds] at hrest
    exact hrest

/-- A handoff to a backend that writes. -/
theorem Shows.handoff {source : Nat} {next : Logger} {records : List Record} {held : List Held}
    (h : s.Shows next.backend b host) (hsource : s.backend source = .init records)
    (hall : List.Forall₂ Record.Tells records held) :
    (s.handoff source next).Shows next.backend
      (b.receive (s.threshold next) next.keys next.vals held host).1
      (b.receive (s.threshold next) next.keys next.vals held host).2 := by
  have htaken := h.hold hsource []
  rw [handoff_eq hsource]
  cases hall with
  | nil => exact htaken
  | @cons r told records held hr hrest =>
    obtain ⟨threshold, caller, hfresh⟩ := htaken.handsOut
    obtain ⟨hhandle, -⟩ := replayer_eq hfresh
    have hthreshold := replayer_threshold hfresh
    have hready : ((s.setBackend source (.init [])).replayer next).2.Shows next.backend b host :=
      htaken.lent (replayer_uses ⟨rfl, .inl rfl⟩ fun r => ⟨rfl, .inr ⟨r, rfl⟩⟩)
    rw [hhandle] at hthreshold
    have hreplayed := Shows.replayAll
      (l := ⟨next.backend, (s.setBackend source (.init [])).thresholds.length,
        { next.caller with mode := .disabled }, next.keys, next.vals⟩)
      hready rfl (.cons hr hrest)
    rw [hthreshold] at hreplayed
    rw [if_neg (by simp), hhandle]
    refine hreplayed.use (by simp) fun pool => ⟨pool, ?_⟩
    rw [Backend.use, JsonBackend.syncLast_with]
    rfl

end System

/-! ## 5. Sinks that take everything -/

namespace Receiver

variable (receiver : Receiver) {b : JsonBackend} {host : Host}

theorem offer_takes (h : receiver.takes b.sink host) (threshold : Level) (keys : List String)
    (vals : List Value) (told : Held) :
    receiver.takes (b.offer threshold keys vals told host).1.sink
        (b.offer threshold keys vals told host).2 ∧
      receiver.received (b.offer threshold keys vals told host).1.sink
        (b.offer threshold keys vals told host).2 = receiver.received b.sink host ++
          (if threshold.rank ≤ told.level.rank then told.line b.format keys vals else []) ∧
      (b.offer threshold keys vals told host).1.format = b.format := by
  unfold JsonBackend.offer
  split
  · obtain ⟨sink, host', hwrite, htakes, hreceived, -⟩ :=
      b.writeLine_takes h (told.line b.format keys vals)
    rw [hwrite]
    exact ⟨htakes, hreceived, rfl⟩
  · exact ⟨h, (List.append_nil _).symm, rfl⟩

theorem offerAll_takes (h : receiver.takes b.sink host) (threshold : Level) (keys : List String)
    (vals : List Value) (held : List Held) :
    receiver.takes (JsonBackend.offerAll threshold keys vals held b host).1.sink
        (JsonBackend.offerAll threshold keys vals held b host).2 ∧
      receiver.received (JsonBackend.offerAll threshold keys vals held b host).1.sink
        (JsonBackend.offerAll threshold keys vals held b host).2 =
          receiver.received b.sink host ++
            (held.filter fun told => threshold.rank ≤ told.level.rank).flatMap
              (·.line b.format keys vals) := by
  induction held generalizing b host with
  | nil => exact ⟨h, (List.append_nil _).symm⟩
  | cons told rest ih =>
    obtain ⟨htakes, hreceived, hformat⟩ := receiver.offer_takes h threshold keys vals told
    obtain ⟨htaken, hall⟩ := ih htakes
    refine ⟨htaken, hall.trans ?_⟩
    rw [hreceived, hformat, List.append_assoc, List.filter_cons]
    by_cases hlevel : threshold.rank ≤ told.level.rank
    · rw [if_pos hlevel, if_pos (decide_eq_true hlevel), List.flatMap_cons]
    · rw [if_neg hlevel, if_neg (by simpa using hlevel), List.nil_append]

/-- A sync, whether it fails or not, and the report of a failure. -/
theorem syncLast_takes (h : receiver.takes b.sink host) :
    receiver.takes (b.syncLast host).1.sink (b.syncLast host).2 ∧
      receiver.received (b.syncLast host).1.sink (b.syncLast host).2 =
        receiver.received b.sink host := by
  obtain ⟨htakes, hreceived⟩ := receiver.sync h
  unfold JsonBackend.syncLast JsonBackend.sync
  generalize b.sink.sync host = synced at htakes hreceived ⊢
  obtain ⟨e | ⟨⟨⟩⟩, sink, host'⟩ := synced
  · obtain ⟨htaken, hsame⟩ := receiver.report (.syncAfterHandoff e) htakes
    exact ⟨htaken, hsame.trans hreceived⟩
  · exact ⟨htakes, hreceived⟩

/-- Of a handoff, such a sink has received the lines of what reaches the threshold. -/
theorem receive_takes (h : receiver.takes b.sink host) (threshold : Level) (keys : List String)
    (vals : List Value) (held : List Held) :
    receiver.takes (b.receive threshold keys vals held host).1.sink
        (b.receive threshold keys vals held host).2 ∧
      receiver.received (b.receive threshold keys vals held host).1.sink
        (b.receive threshold keys vals held host).2 = receiver.received b.sink host ++
          (held.filter fun told => threshold.rank ≤ told.level.rank).flatMap
            (·.line b.format keys vals) := by
  obtain ⟨htakes, hreceived⟩ := receiver.offerAll_takes h threshold keys vals held
  unfold JsonBackend.receive
  cases held with
  | nil => exact ⟨h, hreceived⟩
  | cons told rest =>
    obtain ⟨htaken, hsame⟩ := receiver.syncLast_takes htakes
    exact ⟨htaken, hsame.trans hreceived⟩

end Receiver

/-- After any run, a handoff to a handle on a backend whose sink takes everything writes the lines
of what has been told since the last handoff and reaches the present threshold of the handle, in the
order in which it was told, and nothing else; afterwards nothing is held back, and no other backend
has changed. An early call by itself writes nothing. -/
theorem handoff_replays (receiver : Receiver) {s : System} {held : List Held} (run : Early s held)
    (next : Logger) {b : JsonBackend} (hb : s.backend next.backend = .json b)
    (htakes : receiver.takes b.sink s.host) :
    (∃ b', (s.handoff 0 next).backend next.backend = .json b' ∧
      receiver.takes b'.sink (s.handoff 0 next).host ∧
      receiver.received b'.sink (s.handoff 0 next).host = receiver.received b.sink s.host ++
        (held.filter fun told => (s.threshold next).rank ≤ told.level.rank).flatMap
          (·.line b.format next.keys next.vals)) ∧
    (s.handoff 0 next).backend 0 = .init [] ∧
    (∀ id, id ≠ 0 → id ≠ next.backend → (s.handoff 0 next).backend id = s.backend id) ∧
    ∀ (e : Entry) (level : Level) (message : String) (site : CallSite), e.backend = 0 →
      (s.commit e level message site).backend next.backend = .json b ∧
      receiver.received b.sink (s.commit e level message site).host =
        receiver.received b.sink s.host := by
  obtain ⟨pending, hearly, htells⟩ := run.pending
  have hnext : next.backend ≠ 0 := by
    intro hzero
    rw [hzero, hearly] at hb
    cases hb
  obtain ⟨hhost, pool, -, -, hdone, -⟩ :=
    (run.reached.orderly.shows hb).handoff hearly htells
  obtain ⟨htaken, hreceived⟩ :=
    receiver.receive_takes htakes (s.threshold next) next.keys next.vals held
  refine ⟨⟨_, hdone, ?_, ?_⟩, handoff_empties hearly hnext,
    fun id hid hother => System.handoff_apart hid hother, fun e level message site he => ?_⟩
  · rw [hhost]
    exact htaken
  · rw [hhost]
    exact hreceived
  · obtain ⟨-, hsame, failed, hclock⟩ := commit_early hearly he level message site
    rw [hsame _ hnext, hclock]
    exact ⟨hb, (receiver.clock s.host.now failed htakes).2⟩

/-- An early call whose keys and values do not match, with fields named like those that direct a
call. -/
def bootCall : Entry :=
  ⟨0, { Record.blank with
    caller := .ofMode .stack, keys := ["time", "depth"], vals := [.int 7] }, false⟩

/-- A system on which the backend that writes comes after an early call, and a minute later. -/
def booted : System :=
  let s := ((System.start (.start "/" (.fixed 0) ⟨0, 0⟩)).addBackend (.init [])).2
  let s := s.commit bootCall .warning "slow" .nowhere
  let s := { s with host := { s.host with now := ⟨60, 0⟩ } }
  let s := (s.addBackend (.json (.new (.memory "out") .info .location .unix 0))).2
  (s.newLogger 1).2

theorem handoff_replays_booted :
    Early booted (bootCall.told ((Time.Zone.fixed 0).stamp ⟨0, 0⟩) .warning "slow") ∧
    ∃ b, booted.backend 1 = .json b ∧ (Receiver.memory "out").takes b.sink booted.host ∧
      ∃ b', (booted.handoff 0 ⟨1, 0, .ofMode .location, ["svc"], [.text "api"]⟩).backend 1 =
          .json b' ∧
        (Receiver.memory "out").received b'.sink
            (booted.handoff 0 ⟨1, 0, .ofMode .location, ["svc"], [.text "api"]⟩).host =
          (Receiver.memory "out").received b.sink booted.host ++
            Held.line ⟨.warning, "slow", (Time.Zone.fixed 0).stamp ⟨0, 0⟩, ["time", "depth"],
              [.int 7]⟩ b.format ["svc"] [.text "api"] := by
  have run : Early booted (bootCall.told ((Time.Zone.fixed 0).stamp ⟨0, 0⟩) .warning "slow") :=
    (((Early.start _).emit bootCall .warning "slow" .nowhere rfl).aside (.outside _)
      |>.aside (.connect (.memory "out") .info .location .unix 0)).aside (.newLogger 1)
  refine ⟨run, _, rfl, rfl, ?_⟩
  obtain ⟨⟨b', hb', -, hreceived⟩, -⟩ := handoff_replays (.memory "out") run
    ⟨1, 0, .ofMode .location, ["svc"], [.text "api"]⟩ rfl rfl
  exact ⟨b', hb', hreceived⟩

end Logbook
