import Logbook.Proofs.Line.Unbroken
import Logbook.Proofs.Logger.Mismatch

/-!
# The gate

A call is to pass if its level reaches the threshold, and to come to nothing and count as suppressed
if not. The gate does not tell the backend which of the two it was: it empties the record of a call
that does not pass, and the backend takes every empty record for such a one. So a call that passes
with nothing to show, neither a message nor a key nor a value, is suppressed as well. What directs a
call does not count, since it is no field, and neither does what is recorded of the caller, since
that is added to records that are not empty.

| level               | to show   | what comes of the call | what should come of it |
|---------------------|-----------|------------------------|------------------------|
| below the threshold | anything  | suppressed             | suppressed             |
| not below it        | something | one line               | one line               |
| not below it        | nothing   | suppressed             | one line               |

Results:
1. `commit_adds_line`, `commit_adds_nothing`: what a call adds to what its sink has received and to
   the counters.
2. `Entry.Gated`: what should come of a call.
3. `gated_iff`: the calls of which it comes.
4. `fatal_call_suppressed`: a call of the highest level of which it does not.
-/

namespace Logbook

open Journal (Addition)

/-! ## 1. What a call adds -/

/-- What the sink of a backend has received since `s`, and what has been counted. -/
def System.Adds (s : System) (taker : Taker) (id : Nat) (b : JsonBackend) (bytes : Bytes)
    (count : Metrics → Metrics) (s' : System) : Prop :=
  ∃ b', s'.backend id = .json b' ∧
    taker.received b'.sink s'.host = taker.received b.sink s.host ++ bytes ∧
    b'.metrics = count b.metrics

section
variable {taker : Taker} {s s' : System} {id : Nat} {b : JsonBackend} {e : Entry} {level : Level}
  {message : String}

theorem System.Adds.bytes_eq {bytes bytes' : Bytes} {count count' : Metrics → Metrics}
    (h : s.Adds taker id b bytes count s') (h' : s.Adds taker id b bytes' count' s') :
    bytes = bytes' := by
  obtain ⟨after, hafter, hbytes, -⟩ := h
  obtain ⟨after', hafter', hbytes', -⟩ := h'
  cases hafter.symm.trans hafter'
  exact List.append_cancel_left (hbytes.symm.trans hbytes')

theorem commit_adds_line (hb : s.backend e.backend = .json b) (htakes : taker.takes b.sink s.host)
    (hshown : e.isShown level message = true) (site : CallSite) :
    s.Adds taker e.backend b (e.line b.format s.host.localNow level message site)
      (·.countLine (e.line b.format s.host.localNow level message site).length)
      (s.commit e level message site) := by
  obtain ⟨b', failed, r, hb', hcommit⟩ := commit_handsOver hb hshown site
  cases hb.symm.trans hb'
  -- the clock may have been read before the line was written
  obtain ⟨htakes', hsame⟩ := taker.clock s.host.now failed htakes
  obtain ⟨sink, host', hwrite, -, hreceived, -, -⟩ :=
    JsonBackend.writeLine_takes htakes' (e.line b.format s.host.localNow level message site)
  have hlt : e.backend < s.backends.length := System.lt_length_of_backend hb (by simp)
  rw [hcommit, hwrite]
  exact ⟨_, System.setBackend_at hlt _, hreceived.trans (by rw [hsame]), rfl⟩

theorem commit_adds_nothing (taker : Taker) (hb : s.backend e.backend = .json b)
    (hshown : e.isShown level message = false) (site : CallSite) :
    s.Adds taker e.backend b [] (·.countSuppressed) (s.commit e level message site) := by
  have hempty := Entry.committed_of_not_isShown hshown site
  have hlt : e.backend < s.backends.length := System.lt_length_of_backend hb (by simp)
  rw [System.commit, System.finalize, hb, Backend.finalize, JsonBackend.finalize, if_pos hempty]
  exact ⟨_, System.setBackend_at (s := { s with host := s.host }) hlt _,
    (List.append_nil _).symm, rfl⟩

/-! ## 2. What should come of a call -/

/-- Bytes with a line feed at their end and no other one. -/
def IsSingleLine (bytes : Bytes) : Prop := ∃ front, bytes = front ++ [0x0A] ∧ 0x0A ∉ front

theorem IsLine.single {bytes : Bytes} (h : IsLine bytes) : IsSingleLine bytes := by
  obtain ⟨s, rfl, hs⟩ := h
  refine ⟨Utf8.encode (s ++ ['\x7d']), ?_, fun hmem => absurd (hs _ hmem) (by decide)⟩
  rw [show s ++ ['\x7d', '\n'] = (s ++ ['\x7d']) ++ ['\n'] by simp, Utf8.encode_append]
  rfl

/-- The beginning of a line, up to the name of the level. -/
def Line.head (time : List Char) (level : Level) : Bytes :=
  Utf8.encode ("\x7b\"time\":\"".toList ++ time ++ "\",\"level\":\"".toList ++
    level.name.toList ++ ['"'])

/-- The text of the time of a call. -/
def Entry.timeText (e : Entry) (b : JsonBackend) (host : Host) : List Char :=
  b.format.render (e.record.time?.getD host.localNow)

theorem Entry.head_prefix_line (e : Entry) (b : JsonBackend) (host : Host) (level : Level)
    (message : String) (site : CallSite) :
    Line.head (e.timeText b host) level <+: e.line b.format host.localNow level message site := by
  rw [e.line_eq, Line.ofParts, List.append_assoc, List.append_assoc]
  exact List.prefix_append _ _

/-- What should come of a call: it is suppressed if and only if its level is below the threshold,
which the highest level never is, and otherwise it comes to one line, in which the name of the level
stands behind the time. -/
structure Entry.Gated (e : Entry) (taker : Taker) (s : System) (b : JsonBackend) (level : Level)
    (message : String) (site : CallSite) : Prop where
  suppressed_iff : s.Adds taker e.backend b [] (·.countSuppressed) (s.commit e level message site) ↔
    level.rank < e.record.threshold.rank
  fatal : level = .fatal →
    ¬s.Adds taker e.backend b [] (·.countSuppressed) (s.commit e level message site)
  logged : e.record.threshold.rank ≤ level.rank →
    ∃ line, IsSingleLine line ∧ Line.head (e.timeText b s.host) level <+: line ∧
      s.Adds taker e.backend b line (·.countLine line.length) (s.commit e level message site)

/-! ## 3. Calls that are gated as they should be -/

theorem Entry.isShown_of_below (h : level.rank < e.record.threshold.rank) :
    e.isShown level message = false := by
  rw [Entry.isShown, decide_eq_false (Nat.not_le_of_lt h), Bool.false_and]

/-- A call is gated as it should be if it comes to a line whenever its level is high enough. -/
theorem Entry.gated_iff_line (hb : s.backend e.backend = .json b)
    (htakes : taker.takes b.sink s.host) (site : CallSite) :
    e.Gated taker s b level message site ↔
      (e.record.threshold.rank ≤ level.rank → e.isShown level message = true ∧
        IsSingleLine (e.line b.format s.host.localNow level message site)) := by
  have hsome : ([] : Bytes) ≠ e.line b.format s.host.localNow level message site :=
    (e.line_ne_nil b.format s.host.localNow level message site).symm
  constructor
  · intro hgated hreached
    obtain ⟨line, hline, -, hadds⟩ := hgated.logged hreached
    cases hshown : e.isShown level message with
    | false =>
      have hnothing := hgated.suppressed_iff.mp (commit_adds_nothing taker hb hshown site)
      exact absurd hnothing (Nat.not_lt_of_le hreached)
    | true =>
      rw [(commit_adds_line hb htakes hshown site).bytes_eq hadds]
      exact ⟨rfl, hline⟩
  · intro hall
    have hiff : s.Adds taker e.backend b [] (·.countSuppressed) (s.commit e level message site) ↔
        level.rank < e.record.threshold.rank := by
      refine ⟨fun hnothing => ?_, fun hbelow => ?_⟩
      · by_contra hreached
        obtain ⟨hshown, -⟩ := hall (Nat.le_of_not_lt hreached)
        exact hsome (hnothing.bytes_eq (commit_adds_line hb htakes hshown site))
      · exact commit_adds_nothing taker hb (Entry.isShown_of_below hbelow) site
    refine ⟨hiff, fun hfatal hnothing => ?_, fun hreached => ?_⟩
    · have hbelow := hiff.mp hnothing
      rw [hfatal] at hbelow
      exact absurd hbelow (by cases e.record.threshold <;> decide)
    · obtain ⟨hshown, hline⟩ := hall hreached
      exact ⟨_, hline, e.head_prefix_line b s.host level message site,
        commit_adds_line hb htakes hshown site⟩

/-- What is written as it is may break a line: the bodies of some values and the text of the time.
Nothing else does. -/
theorem Entry.line_single (e : Entry) (b : JsonBackend) (host : Host) (level : Level)
    (message : String) (site : CallSite)
    (hbodies : ∀ p ∈ e.record.keys.zip e.record.vals, p.2.HasUnbrokenBodies)
    (htime : NoControl (e.timeText b host)) :
    IsSingleLine (e.line b.format host.localNow level message site) :=
  (JsonBackend.complete_isLine (r := e.emitted level message site) hbodies htime site.stack).single

end

/-- On a backend whose sink takes everything, a call whose level is high enough is gated as it
should be if and only if it has something to show, a message or a key or a value among what was
added to it and to the handles it comes from, and its line is not broken, which it is not if what is
written as it is has no control character. A call whose level is too low is always gated as it
should be. -/
theorem gated_iff {taker : Taker} {s : System} {e : Entry} {added : List Addition} {b : JsonBackend}
    (hcarries : e.Carries added) (hb : s.backend e.backend = .json b)
    (htakes : taker.takes b.sink s.host) (level : Level) (message : String) (site : CallSite) :
    (e.Gated taker s b level message site ↔
      (e.record.threshold.rank ≤ level.rank →
        (message ≠ "" ∨ ∃ a ∈ added, a.keys ≠ [] ∨ a.vals ≠ []) ∧
          IsSingleLine (e.line b.format s.host.localNow level message site))) ∧
    ((∀ p ∈ e.record.keys.zip e.record.vals, p.2.HasUnbrokenBodies) →
      NoControl (e.timeText b s.host) →
      IsSingleLine (e.line b.format s.host.localNow level message site)) := by
  refine ⟨?_, e.line_single b s.host level message site⟩
  rw [Entry.gated_iff_line hb htakes]
  refine forall_congr' fun hreached => and_congr_left' ?_
  rw [hcarries.isShown_iff, and_iff_right hreached]

/-- The system with its handle at a higher threshold. -/
def raised : System := handled.setThreshold (unhandled.newLogger 0).1 .error

/-- A call on the handle that asks for its caller and has a field. -/
def raisedCall : Entry :=
  let e := (raised.entry (unhandled.newLogger 0).1).1
  (e.withField "depth" (.text "stack")).withField "user" .null

/-- The call has a line without a message if it is high enough, and none with a message if not. -/
theorem gated_iff_raised :
    raisedCall.Carries [.one "depth" (.text "stack"), .one "user" .null] ∧
    ∃ b, raised.backend 0 = .json b ∧ (Taker.memory "out").takes b.sink raised.host ∧
      raisedCall.Gated (.memory "out") raised b .error "" .nowhere ∧
      raisedCall.Gated (.memory "out") raised b .warning "low" .nowhere := by
  have hcarries : raisedCall.Carries [.one "depth" (.text "stack"), .one "user" .null] :=
    have hstart : (raised.entry (unhandled.newLogger 0).1).1.Carries [] :=
      .ofNew 0 (handled_reached.step (.setThreshold _ .error))
    (hstart.withField _ _).withField _ _
  refine ⟨hcarries, _, rfl, rfl, ?_, ?_⟩
  · obtain ⟨hiff, hline⟩ :=
      @gated_iff (.memory "out") raised _ _ _ hcarries rfl rfl .error "" .nowhere
    have hbodies : ∀ p ∈ raisedCall.record.keys.zip raisedCall.record.vals,
        p.2.HasUnbrokenBodies := fun p hp => by
      rw [List.mem_singleton.mp hp]
      trivial
    have hshown : ∃ a ∈ [Addition.one "depth" (.text "stack"), .one "user" .null],
        a.keys ≠ [] ∨ a.vals ≠ [] := by decide
    exact hiff.mpr fun _ => ⟨.inr hshown, hline hbodies (by decide +kernel)⟩
  · exact (gated_iff hcarries rfl rfl .warning "low" .nowhere).1.mpr fun hreached =>
      absurd hreached (by decide)

/-- A call of the highest level without a message and fields, at the lowest threshold: its sink has
received nothing, and it counts as suppressed. -/
theorem fatal_call_suppressed :
    handledCall.Carries [] ∧ handledCall.record.threshold = .debug ∧
    ∃ b, handled.backend 0 = .json b ∧ (Taker.memory "out").takes b.sink handled.host ∧
      (handled.commit handledCall .fatal "" .nowhere).host.buffer "out" = [] ∧
      ((handled.commit handledCall .fatal "" .nowhere).backend 0).metrics? =
        some { Metrics.zero with suppressed := 1 } ∧
      ¬handledCall.Gated (.memory "out") handled b .fatal "" .nowhere := by
  refine ⟨handledCall_carries, rfl, _, rfl, rfl, rfl, rfl, fun hgated => ?_⟩
  have hshown := ((Entry.gated_iff_line rfl rfl .nowhere).mp hgated (by decide)).1
  exact absurd hshown (by decide)

end Logbook
