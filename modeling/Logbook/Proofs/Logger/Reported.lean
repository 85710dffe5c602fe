import Logbook.Proofs.Logger.Tally
import Logbook.Proofs.Rotating.Moving

/-!
# Failures that are reported

A failure that no caller waits for is reported on the error console and counted by the backend on
whose account it is. A run keeps, beside the system, the reports that were made while a backend was
in use, and sets them against its counter of write errors. The sink may be any sink at all.

| failure                                  | report             | counted |
|------------------------------------------|--------------------|---------|
| a line is not taken in full              | `lineNotWritten`   | yes     |
| the last sync of a backend fails         | `finalSync`        | yes     |
| the sync at the end of a handoff fails   | `syncAfterHandoff` | no      |
| a file is given up, a link is not moved  | a warning          | no      |

The third row is an omission: the sync at the end of a handoff is one whose failure is returned, and
the one who asked for it reports the failure but has no counter.

Results:
1. `Report.isError_iff`: the reports that are marked as errors.
2. `Sink.write_warns`: a sink makes no other reports than warnings.
3. `JsonBackend.finalize_charges`, `System.handoff_charges`: what a use of a backend reports and
   counts.
4. `Blamed.accounts`, `failures_counted`: any run.
-/

namespace Logbook

/-! ## 1. Errors and warnings -/

namespace Report

/-- Whether a report tells of a line that was not written or of a sink that was not synced. The
others are warnings. -/
def isError : Report → Bool
  | lineNotWritten _ | periodicSync _ | finalSync _ | syncAfterHandoff _ => true
  | invalidTimeFormat _ _ | flushBeforeRotation _ _ | linkDirectory _ _ | link _ _ _ => false

/-- Whether a report tells of the sync at the end of a handoff. -/
def isAfterHandoff : Report → Bool
  | syncAfterHandoff _ => true
  | lineNotWritten _ | periodicSync _ | finalSync _ => false
  | invalidTimeFormat _ _ | flushBeforeRotation _ _ | linkDirectory _ _ | link _ _ _ => false

/-- Whether a backend counts what a report tells of. -/
def isCounted (r : Report) : Bool := r.isError && !r.isAfterHandoff

/-- Errors are the reports whose text is marked so. -/
theorem isError_iff (r : Report) :
    r.isError = true ↔ "[LOGGER ERROR] ".toList <+: r.line.toList := by
  have hmore {mark s t : String} (h : mark.toList <+: s.toList) :
      mark.toList <+: (s ++ t).toList := by
    rw [String.toList_append]
    exact h.trans (List.prefix_append _ _)
  -- no text begins with both marks
  have hwarning {s : String} (h : "[WARN] ".toList <+: s.toList) :
      ¬ "[LOGGER ERROR] ".toList <+: s.toList := by
    intro hmarked
    have hboth : "[WARN] ".toList <+: "[LOGGER ERROR] ".toList :=
      List.prefix_of_prefix_length_le h hmarked (by decide)
    exact absurd hboth (by decide)
  cases r with
  | lineNotWritten cause => exact iff_of_true rfl (hmore (hmore (by decide)))
  | periodicSync cause => exact iff_of_true rfl (hmore (hmore (by decide)))
  | finalSync cause => exact iff_of_true rfl (hmore (hmore (by decide)))
  | syncAfterHandoff cause => exact iff_of_true rfl (hmore (hmore (by decide)))
  | invalidTimeFormat pattern fallback =>
    exact iff_of_false Bool.false_ne_true (hwarning (hmore (hmore (hmore (hmore (by decide))))))
  | flushBeforeRotation path cause =>
    exact iff_of_false Bool.false_ne_true (hwarning (hmore (hmore (hmore (hmore (by decide))))))
  | linkDirectory path cause =>
    exact iff_of_false Bool.false_ne_true (hwarning (hmore (hmore (hmore (hmore (by decide))))))
  | link name target cause =>
    exact iff_of_false Bool.false_ne_true
      (hwarning (hmore (hmore (hmore (hmore (hmore (hmore (by decide))))))))

theorem isAfterHandoff_of_not_isError {r : Report} (h : r.isError = false) :
    r.isAfterHandoff = false := by
  cases r with
  | syncAfterHandoff cause => cases h
  | lineNotWritten | periodicSync | finalSync => rfl
  | invalidTimeFormat | flushBeforeRotation | linkDirectory | link => rfl

/-- Every error is counted, unless it tells of the sync at the end of a handoff. -/
theorem countP_isError (reports : List Report) :
    reports.countP isError = reports.countP isCounted + reports.countP isAfterHandoff := by
  induction reports with
  | nil => rfl
  | cons r rest ih =>
    have hone : (if r.isError then 1 else 0)
        = (if r.isCounted then 1 else 0) + (if r.isAfterHandoff then 1 else 0) := by
      cases r <;> rfl
    rw [List.countP_cons, List.countP_cons, List.countP_cons, ih, hone, Nat.add_add_add_comm]

end Report

/-! ## 2. What sinks report -/

/-- Nothing but warnings has been added to the reports. -/
def Host.Warns (host host' : Host) : Prop :=
  ∃ warnings, host'.reports = host.reports ++ warnings ∧ ∀ r ∈ warnings, r.isError = false

namespace Host.Warns

variable {host host' host'' : Host}

theorem of_eq (h : host'.reports = host.reports) : host.Warns host' :=
  ⟨[], h.trans (List.append_nil _).symm, fun _ hr => absurd hr List.not_mem_nil⟩

theorem trans (h : host.Warns host') (h' : host'.Warns host'') : host.Warns host'' := by
  obtain ⟨warnings, heq, hall⟩ := h
  obtain ⟨more, heq', hall'⟩ := h'
  refine ⟨warnings ++ more, by rw [heq', heq, List.append_assoc], fun r hr => ?_⟩
  exact (List.mem_append.mp hr).elim (hall r) (hall' r)

theorem report {r : Report} (h : r.isError = false) (host : Host) : host.Warns (host.report r) :=
  ⟨[r], rfl, fun _ hr => (List.mem_singleton.mp hr).symm ▸ h⟩

end Host.Warns

theorem Host.tee_reports (host : Host) (wanted : Bool) (bytes : Bytes) :
    (host.tee wanted bytes).reports = host.reports := by
  unfold tee
  split <;> rfl

theorem moveLink_warns (path target : String) (host : Host) :
    host.Warns (moveLink path target host) := by
  unfold moveLink
  dsimp only
  split
  · exact .of_eq rfl
  · exact (Host.Warns.of_eq rfl).trans (.report rfl _)

theorem runHooks_warns (hooks : List Hook) (path : String) (host : Host) :
    host.Warns (runHooks hooks path host) := by
  induction hooks generalizing host with
  | nil => exact .of_eq rfl
  | cons hook rest ih =>
    have hone : host.Warns (hook.run path host) := by
      cases hook with
      | watch => exact .of_eq rfl
      | link name => exact moveLink_warns name path host
    exact hone.trans (ih _)

namespace Rotating

variable (w : Rotating) (host : Host)

theorem retire_warns : host.Warns (w.retire host) := by
  unfold retire
  split
  next result file disk hs =>
  cases result with
  | ok => exact .of_eq rfl
  | error e =>
    exact (Host.Warns.report (r := .flushBeforeRotation w.current e) rfl
      { host with disk := disk }).trans (.of_eq rfl)

theorem rotate_warns : host.Warns (w.rotate host).2.2 := by
  generalize hs : search (resolved w.template host) w.indexed w.limit w.nextIndex host.disk = found
  obtain ⟨e, -, he⟩ | ⟨next, -, ha⟩ := w.rotate_cases host hs
  · rw [he]
    exact .of_eq rfl
  · rw [ha]
    exact (retire_warns { w with nextIndex := found.nextIndex }
      { host with disk := found.disk }).trans (runHooks_warns w.hooks next.path _)

theorem rotateBySize_warns (bytes : Nat) : host.Warns (w.rotateBySize bytes host).2.2 := by
  unfold rotateBySize
  split
  · exact w.rotate_warns host
  · exact .of_eq rfl

theorem rotateByHour_warns : host.Warns (w.rotateByHour host).2.2 := by
  obtain h | ⟨works, nextHour, h | ⟨-, h⟩⟩ := w.rotateByHour_cases host
  · exact .of_eq (by rw [h])
  · exact .of_eq (by rw [h]; rfl)
  · rw [h]
    exact rotate_warns _ (host.relyOnClock works)

theorem append_warns (bytes : Bytes) : host.Warns (w.append bytes host).2.2 := by
  unfold append
  split
  · exact .of_eq rfl
  · exact .of_eq (Host.tee_reports _ _ _)

theorem write_warns (bytes : Bytes) : host.Warns (w.write bytes host).2.2 := by
  have hread : host.Warns host.readClock.2 := .of_eq rfl
  have hsize := hread.trans (w.rotateBySize_warns host.readClock.2 bytes.length)
  unfold write
  dsimp only
  split
  · next h => rwa [h] at hsize
  next w₁ host₁ h =>
  rw [h] at hsize
  have hhour := hsize.trans (w₁.rotateByHour_warns host₁)
  split
  · next h => rwa [h] at hhour
  next w₂ host₂ h =>
  rw [h] at hhour
  exact hhour.trans (w₂.append_warns host₂ bytes)

end Rotating

namespace Sink

/-- A sink reports a write that fails by returning the failure, and by nothing but warnings
besides. -/
theorem write_warns (sink : Sink) (bytes : Bytes) (host : Host) :
    host.Warns (sink.write bytes host).2.2 := by
  unfold write
  split
  · exact .of_eq rfl
  cases sink with
  | discard => exact .of_eq rfl
  | console => exact .of_eq rfl
  | memory name => exact .of_eq rfl
  | scripted s => exact .of_eq rfl
  | file f =>
    refine .of_eq ?_
    show (f.write bytes host).2.2.reports = host.reports
    unfold FileSink.write
    split
    · rfl
    · exact Host.tee_reports _ _ _
  | rotating w => exact w.write_warns host bytes

theorem sync_reports (sink : Sink) (host : Host) :
    (sink.sync host).2.2.reports = host.reports := by
  cases sink <;> rfl

theorem close_reports (sink : Sink) (host : Host) : (sink.close host).reports = host.reports := by
  cases sink <;> rfl

end Sink

/-! ## 3. What backends count -/

/-- Between two states of a backend and its host some reports were made, `unsynced` of them of the
sync at the end of a handoff, and the backend has counted every other error among them. -/
def JsonBackend.Charges (unsynced : Nat) (b : JsonBackend) (host : Host) (b' : JsonBackend)
    (host' : Host) : Prop :=
  ∃ new, host'.reports = host.reports ++ new ∧
    b'.metrics.writeErrors = b.metrics.writeErrors + .ofNat (new.countP Report.isCounted) ∧
    new.countP Report.isAfterHandoff = unsynced

namespace JsonBackend

variable {b b' b'' : JsonBackend} {host host' host'' : Host} {n m : Nat}

theorem Charges.of_warns (h : host.Warns host')
    (hcount : b'.metrics.writeErrors = b.metrics.writeErrors) : b.Charges 0 host b' host' := by
  obtain ⟨warnings, hreports, hall⟩ := h
  have hnone : warnings.countP Report.isCounted = 0 :=
    List.countP_eq_zero.mpr fun r hr => by simp [Report.isCounted, hall r hr]
  refine ⟨warnings, hreports, ?_, List.countP_eq_zero.mpr fun r hr => ?_⟩
  · rw [hcount, hnone]
    exact (UInt64.add_zero _).symm
  · rw [Report.isAfterHandoff_of_not_isError (hall r hr)]
    exact Bool.false_ne_true

theorem Charges.of_eq (h : host'.reports = host.reports)
    (hcount : b'.metrics.writeErrors = b.metrics.writeErrors) : b.Charges 0 host b' host' :=
  .of_warns (.of_eq h) hcount

theorem Charges.trans (h : b.Charges n host b' host') (h' : b'.Charges m host' b'' host'') :
    b.Charges (n + m) host b'' host'' := by
  obtain ⟨new, hreports, hcount, hafter⟩ := h
  obtain ⟨more, hreports', hcount', hafter'⟩ := h'
  refine ⟨new ++ more, ?_, ?_, ?_⟩
  · rw [hreports', hreports, List.append_assoc]
  · rw [hcount', hcount, List.countP_append, UInt64.ofNat_add, UInt64.add_assoc]
  · rw [List.countP_append, hafter, hafter']

/-- An error that is reported and counted. -/
theorem Charges.error (b : JsonBackend) (host : Host) {r : Report} (hr : r.isCounted = true) :
    b.Charges 0 host { b with metrics := b.metrics.countError } (host.report r) := by
  refine ⟨[r], rfl, ?_, ?_⟩
  · rw [List.countP_singleton, if_pos hr]
    rfl
  · rw [List.countP_singleton, if_neg]
    intro hafter
    rw [Report.isCounted, hafter, Bool.not_true, Bool.and_false] at hr
    exact Bool.false_ne_true hr

theorem writeLine_charges (b : JsonBackend) (line : Bytes) (host : Host) :
    b.Charges 0 host (b.writeLine line host).1 (b.writeLine line host).2 := by
  have hwarns := b.sink.write_warns line host
  unfold writeLine
  split
  · next h =>
    rw [h] at hwarns
    exact .of_warns hwarns rfl
  next e sink host' h =>
  rw [h] at hwarns
  have hfailed : b.Charges 0 host { b with sink := sink } host' := .of_warns hwarns rfl
  exact hfailed.trans (.error _ host' rfl)

theorem finalize_charges (b : JsonBackend) (stack : List Frame) (r : Record) (host : Host) :
    b.Charges 0 host (b.finalize stack r host).1 (b.finalize stack r host).2 := by
  cases hr : r.isEmpty with
  | true =>
    unfold finalize
    rw [if_pos hr]
    exact .of_eq rfl rfl
  | false =>
    obtain ⟨failed, hfinal⟩ := finalize_eq (b := b) hr stack host
    rw [hfinal]
    -- only the clock is used before the line is written, and only the pool after it
    have htimed : b.Charges 0 host b { host with now := host.now, clockFailed := failed } :=
      .of_eq rfl rfl
    exact (htimed.trans (b.writeLine_charges _ _)).trans (.of_eq rfl rfl)

/-- A sync for a caller who is told of a failure: nothing is reported and no error is counted. -/
theorem sync_charges (b : JsonBackend) (host : Host) :
    b.Charges 0 host (b.sync host).2.1 (b.sync host).2.2 := by
  have hsame := b.sink.sync_reports host
  unfold sync
  split
  · next h =>
    rw [h] at hsame
    exact .of_eq hsame rfl
  · next h =>
    rw [h] at hsame
    exact .of_eq hsame rfl

theorem syncReporting_charges (b : JsonBackend) {report : LogError → Report}
    (hreport : ∀ e, (report e).isCounted = true) (host : Host) :
    b.Charges 0 host (b.syncReporting report host).1 (b.syncReporting report host).2 := by
  have hsync := b.sync_charges host
  unfold syncReporting
  split
  · next h =>
    rw [h] at hsync
    exact hsync
  next e b' host' h =>
  rw [h] at hsync
  exact hsync.trans (.error b' host' (hreport e))

theorem unmount_charges (b : JsonBackend) (host : Host) :
    b.Charges 0 host (b.unmount host).1 (b.unmount host).2 := by
  have hstopped : b.Charges 0 host { b with mounted := false } host := .of_eq rfl rfl
  exact hstopped.trans (syncReporting_charges _ (fun _ => rfl) host)

/-- The sync at the end of a handoff is reported if it fails, and then there is an error that is not
counted. -/
theorem syncLast_charges (b : JsonBackend) (host : Host) :
    b.Charges (!(b.sink.sync host).1.isOk).toNat host (b.syncLast host).1 (b.syncLast host).2 := by
  have hsame := b.sink.sync_reports host
  unfold syncLast sync
  generalize b.sink.sync host = synced at hsame ⊢
  obtain ⟨e | ⟨⟨⟩⟩, sink, host'⟩ := synced
  · have hsynced : b.Charges 0 host { b with sink := sink } host' := .of_eq hsame rfl
    have hlast : Charges 1 { b with sink := sink } host' { b with sink := sink }
        (host'.report (.syncAfterHandoff e)) :=
      ⟨[.syncAfterHandoff e], rfl, (UInt64.add_zero _).symm, rfl⟩
    exact hsynced.trans hlast
  · exact .of_eq hsame rfl

end JsonBackend

/-- Whether a backend counts every error that is reported in a use. -/
def Backend.Use.isAccounted : Use → Bool
  | acquire | release _ | finalize _ _ | sync | mount | unmount | tick | takePending => true
  | syncLast | resetMetrics | close => false

theorem JsonBackend.use_charges (b : JsonBackend) (host : Host) {u : Backend.Use}
    (hu : u.isAccounted = true) :
    ∃ b', ((Backend.json b).use host u).1 = .json b' ∧
      b.Charges 0 host b' ((Backend.json b).use host u).2 := by
  cases u with
  | acquire | release | mount | takePending => exact ⟨_, rfl, .of_eq rfl rfl⟩
  | finalize stack r => exact ⟨_, rfl, b.finalize_charges stack r host⟩
  | sync => exact ⟨_, rfl, b.sync_charges host⟩
  | unmount => exact ⟨_, rfl, b.unmount_charges host⟩
  | tick => exact ⟨_, rfl, b.syncReporting_charges (fun _ => rfl) host⟩
  | syncLast | resetMetrics | close => cases hu

namespace System

variable {s s' s'' : System} {id n m : Nat}

/-- Between two states of the system, the backend with a number has counted the errors that were
reported, but for `unsynced` syncs at the end of a handoff. -/
def Charges (id unsynced : Nat) (s s' : System) : Prop :=
  ∀ b, s.backend id = .json b →
    ∃ b', s'.backend id = .json b' ∧ b.Charges unsynced s.host b' s'.host

theorem Charges.trans (h : Charges id n s s') (h' : Charges id m s' s'') :
    Charges id (n + m) s s'' := by
  intro b hb
  obtain ⟨b', hb', hcharges⟩ := h b hb
  obtain ⟨b'', hb'', hcharges'⟩ := h' b' hb'
  exact ⟨b'', hb'', hcharges.trans hcharges'⟩

theorem Charges.of_rests (h : Rests id s s') (hreports : s'.host.reports = s.host.reports) :
    Charges id 0 s s' := by
  intro b hb
  obtain ⟨b', hb', -, -, hmetrics⟩ := h b hb
  exact ⟨b', hb', .of_eq hreports (congrArg Metrics.writeErrors hmetrics)⟩

theorem Charges.of_use {b b' : JsonBackend} {u : Backend.Use} (hb : s.backend id = .json b)
    (hu : ((Backend.json b).use s.host u).1 = .json b')
    (h : b.Charges n s.host b' ((Backend.json b).use s.host u).2) :
    Charges id n s (s.use id u) := by
  intro other hother
  obtain rfl : b = other := Backend.json.inj (hb.symm.trans hother)
  rw [← hb] at hu h
  exact ⟨b', (use_at (lt_length_of_backend hb (by simp)) u).trans hu, h⟩

/-- The errors that are reported while the backend is used are counted, and what other backends held
back may be taken meanwhile. -/
theorem Charges.of_uses
    (hs : s.Uses (fun id' u => id' = id ∧ u.isAccounted = true ∨ u = .takePending) s') :
    Charges id 0 s s' := by
  induction hs with
  | nothing => exact .of_rests (.of_eq rfl) rfl
  | @use s' id' u _ hu ih =>
    have hone : Charges id 0 s' (s'.use id' u) := by
      obtain ⟨rfl, hcounted⟩ | rfl := hu
      · intro b hb
        obtain ⟨b', hb', hcharges⟩ := b.use_charges s'.host hcounted
        exact Charges.of_use hb hb' hcharges b hb
      · exact .of_rests (.of_uses (.one fun _ => rfl)) rfl
    exact ih.trans hone
  | addFamily threshold _ ih => exact ih.trans (.of_rests (.of_eq rfl) rfl)

theorem commit_charges (s : System) (e : Entry) (level : Level) (message : String)
    (site : CallSite) : Charges e.backend 0 s (s.commit e level message site) :=
  .of_uses (commit_uses (fun _ _ => .inl ⟨rfl, rfl⟩) level message site)

theorem unmount_charges (s : System) (l : Logger) : Charges l.backend 0 s (s.unmount l) :=
  .of_uses (unmount_uses (.inl ⟨rfl, rfl⟩))

theorem sync_charges (s : System) (l : Logger) : Charges l.backend 0 s (s.sync l).2 :=
  .of_uses (sync_uses (.inl ⟨rfl, rfl⟩))

theorem syncLast_charges (s : System) (id : Nat) :
    Charges id (!s.canSync id).toNat s (s.use id .syncLast) := by
  intro b hb
  have hcharges := Charges.of_use (u := .syncLast) hb rfl (b.syncLast_charges s.host)
  rw [canSync, hb]
  exact hcharges b hb

/-- Whether a handoff has something to hand over and the sync at the end of it fails. -/
def endsUnsynced (s : System) (source : Nat) (next : Logger) : Bool :=
  let records := (s.backend source).takePending.1
  let (l, s) := (s.setBackend source (s.backend source).takePending.2).replayer next
  !records.isEmpty && !(s.replayAll l records).canSync next.backend

theorem handoff_charges (s : System) (source : Nat) (next : Logger) :
    Charges next.backend (s.endsUnsynced source next).toNat s (s.handoff source next) := by
  have htaken : Charges next.backend 0 s (s.use source .takePending) := .of_uses (.one (.inr rfl))
  rw [handoff_taken]
  unfold endsUnsynced
  dsimp only
  generalize (s.backend source).takePending.1 = records
  split
  · next hempty =>
    rw [hempty]
    exact htaken
  next hsome =>
  rw [Bool.not_eq_true] at hsome
  rw [hsome, Bool.not_false, Bool.true_and]
  have hreplayed : Charges next.backend 0 (s.use source .takePending)
      (((s.use source .takePending).replayer next).2.replayAll
        ((s.use source .takePending).replayer next).1 records) := by
    refine .of_uses ((replayer_uses (.inl ⟨rfl, rfl⟩) fun _ => .inl ⟨rfl, rfl⟩).trans ?_)
    refine replayAll_uses ?_ ?_ records
    all_goals rw [replayer_backend]
    · exact .inl ⟨rfl, rfl⟩
    · exact fun _ _ => .inl ⟨rfl, rfl⟩
  have hall := (htaken.trans hreplayed).trans (syncLast_charges _ next.backend)
  rw [Nat.zero_add] at hall
  exact hall

end System

/-! ## 4. Runs -/

/-- The reports that were made between two states. -/
def System.reported (s s' : System) : List Report := s'.host.reports.drop s.host.reports.length

/-- A run in which a backend with any sink is connected and used: the system, the reports that were
made while the backend was used, and the number of handoffs to it that ended with a sync that
failed. The handles, the entries, and the records that are handed over may be any at all. -/
inductive Blamed (id : Nat) : System → List Report → Nat → Prop
  | connect (s : System) (sink : Sink) (threshold : Level) (capture : Capture) (format : TimeFormat)
      (interval : Nat) : s.backends.length = id →
      Blamed id (s.addBackend (.json (.new sink threshold capture format interval))).2 [] 0
  | idle {s s' : System} {reports : List Report} {unsynced : Nat} :
      Blamed id s reports unsynced → Idle id s s' → Blamed id s' reports unsynced
  | emit {s : System} {reports : List Report} {unsynced : Nat} (e : Entry) (level : Level)
      (message : String) (site : CallSite) : Blamed id s reports unsynced → e.backend = id →
      Blamed id (s.commit e level message site)
        (reports ++ s.reported (s.commit e level message site)) unsynced
  | handoff {s : System} {reports : List Report} {unsynced : Nat} (source : Nat) (next : Logger) :
      Blamed id s reports unsynced → next.backend = id →
      Blamed id (s.handoff source next) (reports ++ s.reported (s.handoff source next))
        (unsynced + (s.endsUnsynced source next).toNat)
  | sync {s : System} {reports : List Report} {unsynced : Nat} (l : Logger) :
      Blamed id s reports unsynced → l.backend = id →
      Blamed id (s.sync l).2 (reports ++ s.reported (s.sync l).2) unsynced
  | unmount {s : System} {reports : List Report} {unsynced : Nat} (l : Logger) :
      Blamed id s reports unsynced → l.backend = id →
      Blamed id (s.unmount l) (reports ++ s.reported (s.unmount l)) unsynced

/-- A counter of write errors against reports, of which `unsynced` tell of the sync at the end of a
handoff. It starts again from zero after 64 bits. -/
structure Metrics.Accounts (m : Metrics) (reports : List Report) (unsynced : Nat) : Prop where
  counter : m.writeErrors.toNat = reports.countP Report.isCounted % UInt64.size
  handoffs : reports.countP Report.isAfterHandoff = unsynced

theorem Metrics.Accounts.charge {b b' : JsonBackend} {host host' : Host} {reports : List Report}
    {unsynced n : Nat} (h : b.metrics.Accounts reports unsynced)
    (hcharges : b.Charges n host b' host') :
    b'.metrics.Accounts (reports ++ host'.reports.drop host.reports.length) (unsynced + n) := by
  obtain ⟨new, hreports, hcount, hafter⟩ := hcharges
  rw [hreports, List.drop_left]
  refine ⟨?_, ?_⟩
  · rw [hcount, List.countP_append]
    exact toNat_add_ofNat h.counter _
  · rw [List.countP_append, h.handoffs, hafter]

/-- The backend with a number accounts for reports. -/
def System.Accounts (s : System) (id : Nat) (reports : List Report) (unsynced : Nat) : Prop :=
  ∃ b, s.backend id = .json b ∧ b.metrics.Accounts reports unsynced

theorem System.Accounts.charge {s s' : System} {id n : Nat} {reports : List Report}
    {unsynced : Nat} (h : s.Accounts id reports unsynced) (hcharges : s.Charges id n s') :
    s'.Accounts id (reports ++ s.reported s') (unsynced + n) := by
  obtain ⟨b, hb, haccounts⟩ := h
  obtain ⟨b', hb', hstep⟩ := hcharges b hb
  exact ⟨b', hb', haccounts.charge hstep⟩

theorem Blamed.accounts {id : Nat} {s : System} {reports : List Report} {unsynced : Nat}
    (run : Blamed id s reports unsynced) : s.Accounts id reports unsynced := by
  induction run with
  | connect s sink threshold capture format interval hid =>
    refine ⟨.new sink threshold capture format interval, ?_, rfl, rfl⟩
    rw [← hid, System.backend, System.addBackend]
    simp
  | idle _ step ih =>
    obtain ⟨b, hb, haccounts⟩ := ih
    obtain ⟨b', hb', -, -, hmetrics⟩ := step.rests b hb
    exact ⟨b', hb', hmetrics ▸ haccounts⟩
  | @emit s _ _ e level message site _ he ih =>
    subst he
    exact ih.charge (s.commit_charges e level message site)
  | @handoff s _ _ source next _ hnext ih =>
    subst hnext
    exact ih.charge (s.handoff_charges source next)
  | @sync s _ _ l _ hl ih =>
    subst hl
    exact ih.charge (s.sync_charges l)
  | @unmount s _ _ l _ hl ih =>
    subst hl
    exact ih.charge (s.unmount_charges l)

/-- After any run, whatever the sink did, the errors that were reported while the backend was used
are those that it has counted and one for each handoff that ended with a sync that failed, and so it
is after the last sync when the backend is then given up. Without such handoffs every error goes
with one increment of the counter, and the counter is not incremented otherwise. -/
theorem failures_counted {id : Nat} {s : System} {reports : List Report} {unsynced : Nat}
    (run : Blamed id s reports unsynced) :
    ∃ b, s.backend id = .json b ∧ b.metrics.Accounts reports unsynced ∧
      (b.unmount s.host).1.metrics.Accounts (reports ++ s.reported (s.closeBackend id)) unsynced ∧
      reports.countP Report.isError = reports.countP Report.isCounted + unsynced ∧
      (unsynced = 0 → b.metrics.writeErrors.toNat = reports.countP Report.isError % UInt64.size ∧
        (b.unmount s.host).1.metrics.writeErrors.toNat =
          (reports ++ s.reported (s.closeBackend id)).countP Report.isError % UInt64.size) := by
  obtain ⟨b, hb, haccounts⟩ := run.accounts
  have hclosed : s.reported (s.closeBackend id) =
      (b.unmount s.host).2.reports.drop s.host.reports.length := by
    rw [System.reported, System.closeBackend, hb]
    exact congrArg (List.drop _) (Sink.close_reports _ _)
  have hlast := haccounts.charge (b.unmount_charges s.host)
  rw [← hclosed, Nat.add_zero] at hlast
  refine ⟨b, hb, haccounts, hlast, ?_, ?_⟩
  · rw [Report.countP_isError, haccounts.handoffs]
  · rintro rfl
    rw [Report.countP_isError, Report.countP_isError, haccounts.handoffs, hlast.handoffs]
    exact ⟨haccounts.counter, hlast.counter⟩

/-- In the run with a faulty sink two lines are not written and two of three syncs fail, one of them
at the end of the handoff: of four errors three are counted. -/
theorem failures_counted_faulty :
    ∃ reports unsynced, Blamed 0 faulty reports unsynced ∧ unsynced = 1 ∧
      reports.countP Report.isError = 4 ∧
      ∃ b, faulty.backend 0 = .json b ∧ b.metrics.writeErrors.toNat = 3 := by
  have start : Blamed 0 faultyStart [] 0 :=
    .connect (.start (.start "/" (.fixed 0) ⟨0, 0⟩)) (.scripted faultySink) .info .none .none 0 rfl
  have ready := start.idle (.connect (.init [heldRecord]))
  have run := (((((ready.emit plainCall .info "first" .nowhere rfl).emit plainCall .debug "quiet"
    .nowhere rfl).handoff 1 plainLogger rfl).emit plainCall .fatal "" .nowhere rfl).emit plainCall
      .warning "second" .nowhere rfl).sync plainLogger rfl |>.unmount plainLogger rfl
  obtain ⟨b, hb, haccounts, -, herrors, -⟩ := failures_counted run
  refine ⟨_, _, run, by decide +kernel, herrors.trans ?_, b, hb, haccounts.counter.trans ?_⟩
  · decide +kernel
  · decide +kernel

/-- A system with a record that is held back and a sink that takes every line but fails to sync. -/
def busyStart : System :=
  (((System.start (.start "/" (.fixed 0) ⟨0, 0⟩)).addBackend
    (.json (.new (.scripted ⟨"out", [], [some "busy"]⟩) .debug .none .none 0))).2.addBackend
      (.init [heldRecord])).2

/-- The sync at the end of a handoff fails: there is an error, and the counter stays at zero. -/
theorem unsynced_handoff_uncounted :
    ∃ s reports unsynced, Blamed 0 s reports unsynced ∧ reports.countP Report.isError = 1 ∧
      ∃ b, s.backend 0 = .json b ∧ b.metrics.writeErrors = 0 := by
  have start : Blamed 0 _ [] 0 := .connect (.start (.start "/" (.fixed 0) ⟨0, 0⟩))
    (.scripted ⟨"out", [], [some "busy"]⟩) .debug .none .none 0 rfl
  have run := (start.idle (.connect (.init [heldRecord]))).handoff 1 plainLogger rfl
  obtain ⟨b, hb, haccounts⟩ := run.accounts
  refine ⟨busyStart.handoff 1 plainLogger, _, _, run, by decide +kernel, b, hb, ?_⟩
  rw [← UInt64.toNat_inj, haccounts.counter]
  decide +kernel

end Logbook
