import Logbook.Proofs.Rotating.Moving
import Logbook.Sink.Basic

/-!
# Nothing is lost by rotating

A session opens a rotating sink, performs operations on it while the clock is set as it may be, and
ends by flushing, syncing or giving up the sink. As long as nothing fails, every file ends up with
what it held before the session and the buffers that were written while it was current, one after
the other.

Results:
1. `write_ok`: one write promises its buffer to one file.
2. `Session.run_holds`: what holds after any number of operations.
3. `session_keeps_every_buffer`: what is on the disk and on the console in the end.
-/

namespace Logbook

theorem Host.tee_disk (host : Host) (wanted : Bool) (bytes : Bytes) :
    (host.tee wanted bytes).disk = host.disk := by
  unfold tee
  split <;> rfl

namespace Rotating

/-! ## 1. Single writes -/

/-- A buffer has been written to the file that is current now. -/
structure Wrote (bytes : Bytes) (w : Rotating) (host : Host) (w' : Rotating) (host' : Host) :
    Prop where
  ready : w'.Ready host'
  promised : ∀ id, w'.file.promised host'.disk id =
    w.file.promised host.disk id ++ Disk.share w'.file.device bytes id
  console : host'.console = host.console ++ if w.tee then bytes else []
  tee : w'.tee = w.tee
  hooks : w'.hooks = w.hooks
  nodes : (∀ hook ∈ w.hooks, hook = .watch) → host.disk.nodes <+: host'.disk.nodes
  stuck : w.file.Stuck ∨ w'.file.device = .full ∧ bytes ≠ [] → w'.file.Stuck

theorem append_ok {w w' : Rotating} {host host' : Host} {bytes : Bytes} (hready : w.Ready host)
    (h : w.append bytes host = (.ok (), w', host')) :
    Wrote bytes w host w' host' := by
  unfold append at h
  split at h
  · cases h
  next file disk hw =>
  cases h
  obtain ⟨hkeeps, hdevice, hpromised⟩ := Buffered.write_ok hready.knows hw
  have hdisk := Host.tee_disk { host with disk := disk } w.tee bytes
  -- the copy for the console comes last and leaves the disk as it is
  refine ⟨⟨?_, ?_, fun hwatch => ?_⟩, fun id => ?_, ?_, rfl, rfl, fun _ => ?_, fun hs => ?_⟩
  · rw [hdisk]
    exact hkeeps.sound hready.sound
  · rw [hdisk]
    exact hdevice ▸ hkeeps.knows hready.knows
  · rw [hdisk]
    exact hdevice ▸ (hready.leadsTo hwatch).mono (hkeeps.nodes ▸ List.prefix_rfl)
  · rw [hdisk]
    exact (hpromised id).trans (by rw [hdevice])
  · unfold Host.tee
    split <;> simp [Host.print]
  · rw [hdisk]
    exact hkeeps.nodes ▸ List.prefix_rfl
  · rcases hs with hs | ⟨hfull, hne⟩
    · exact hs.write hw
    · obtain ⟨hd, hor⟩ := Buffered.write_full (hdevice ▸ hfull) hw
      exact ⟨hd, hor (.inr hne)⟩

theorem append_reports {w w' : Rotating} {host host' : Host} {bytes : Bytes}
    (h : w.append bytes host = (.ok (), w', host')) : host'.reports = host.reports := by
  unfold append at h
  split at h
  · cases h
  cases h
  unfold Host.tee
  split <;> rfl

/-- Moving on before a write leaves its promise to the file that is current then. -/
theorem Moved.wrote {bytes : Bytes} {w w' w'' : Rotating} {host host' host'' : Host}
    (h : Moved w host w' host') (h' : Wrote bytes w' host' w'' host'') :
    Wrote bytes w host w'' host'' where
  ready := h'.ready
  promised id := by rw [h'.promised, h.promised]
  console := by rw [h'.console, h.console, h.tee]
  tee := h'.tee.trans h.tee
  hooks := h'.hooks.trans h.hooks
  nodes hw := (h.nodes hw).trans (h'.nodes (by rwa [h.hooks]))
  stuck hs := h'.stuck (hs.imp_left h.stuck)

theorem write_cases {w w' : Rotating} {host host' : Host} {bytes : Bytes}
    (h : w.write bytes host = (.ok (), w', host')) :
    ∃ w₁ host₁ w₂ host₂,
      w.rotateBySize bytes.length host.readClock.2 = (.ok (), w₁, host₁) ∧
        w₁.rotateByHour host₁ = (.ok (), w₂, host₂) ∧
        w₂.append bytes host₂ = (.ok (), w', host') := by
  unfold write at h
  dsimp only at h
  split at h
  · cases h
  next w₁ host₁ h₁ =>
  split at h
  · cases h
  next w₂ host₂ h₂ => exact ⟨w₁, host₁, w₂, host₂, h₁, h₂, h⟩

/-- A write that succeeds without a report promises its buffer to one file. -/
theorem write_ok {w w' : Rotating} {host host' : Host} {bytes : Bytes} (hready : w.Ready host)
    (h : w.write bytes host = (.ok (), w', host'))
    (hr : host'.reports.length = host.reports.length) : Wrote bytes w host w' host' := by
  obtain ⟨w₁, host₁, w₂, host₂, h₁, h₂, h₃⟩ := write_cases h
  have hclock : Moved w host w host.readClock.2 :=
    .relyOnClock hready host.now.onClock w.nextHour w.nextIndex
  have hle₁ := rotateBySize_reports w bytes.length host.readClock.2
  have hle₂ := rotateByHour_reports w₁ host₁
  rw [h₁] at hle₁
  rw [h₂] at hle₂
  have hclockReports : host.readClock.2.reports = host.reports := rfl
  dsimp only at hle₁ hle₂
  rw [hclockReports] at hle₁
  rw [append_reports h₃] at hr
  -- reports are never taken back, so without one in the end there was none on the way
  have hmoved₁ := rotateBySize_ok hclock.ready h₁ (by rw [hclockReports]; omega)
  have hmoved₂ := rotateByHour_ok hmoved₁.ready h₂ (by omega)
  exact ((hclock.trans hmoved₁).trans hmoved₂).wrote (append_ok hmoved₂.ready h₃)

/-! ## 2. Sessions -/

/-- What is done with a rotating sink, and with the clock beside it. -/
inductive Op where
  | clock (now : Time.Moment)
  | write (bytes : Bytes)
  | flush
  | sync

/-- The buffers that are written, in their order. -/
def Op.buffers : List Op → List Bytes
  | [] => []
  | .write bytes :: ops => bytes :: Op.buffers ops
  | _ :: ops => Op.buffers ops

/-- How a session ends. -/
inductive Ending where
  | flush
  | sync
  | drop

/-- A buffer that has been written: the path and the device that were current, and its bytes. -/
structure Placement where
  path : String
  device : Device
  bytes : Bytes

/-- The bytes that have been written to a file. -/
def placed (log : List Placement) (id : Nat) : Bytes :=
  log.flatMap fun entry => Disk.share entry.device entry.bytes id

/-- A sink, its surroundings, and what has been written. -/
structure Session where
  writer : Rotating
  host : Host
  log : List Placement

/-- Does one thing; nothing if it fails or a failure is reported. -/
def Session.perform? (s : Session) : Op → Option Session
  | .clock now => some { s with host := { s.host with now := now } }
  | .write bytes =>
    match s.writer.write bytes s.host with
    | (.ok (), w, host) =>
      if host.reports.length = s.host.reports.length then
        some ⟨w, host, s.log ++ [⟨w.current, w.file.device, bytes⟩]⟩
      else none
    | _ => none
  | .flush =>
    match (Sink.rotating s.writer).flush s.host with
    | (.ok (), .rotating w, host) => some { s with writer := w, host := host }
    | _ => none
  | .sync =>
    match (Sink.rotating s.writer).sync s.host with
    | (.ok (), .rotating w, host) => some { s with writer := w, host := host }
    | _ => none

/-- Does one thing after the other. -/
def Session.run? (s : Session) : List Op → Option Session
  | [] => some s
  | op :: ops => (s.perform? op).bind fun s => s.run? ops

/-- Ends a session; nothing if bytes that wait cannot be handed over. -/
def Session.end? (s : Session) : Ending → Option Host
  | .flush => (s.perform? .flush).map (·.host)
  | .sync => (s.perform? .sync).map (·.host)
  | .drop =>
    match (s.writer.file.flush s.host.disk).1 with
    | .ok () => some ((Sink.rotating s.writer).close s.host)
    | .error _ => none

/-- What holds at every time of a session that began on the host `start`. -/
structure Session.Holds (start : Host) (tee : Bool) (hooks : List Hook) (s : Session) : Prop where
  ready : s.writer.Ready s.host
  tee_eq : s.writer.tee = tee
  hooks_eq : s.writer.hooks = hooks
  promised : ∀ id, s.writer.file.promised s.host.disk id =
    start.disk.contents (.file id) ++ placed s.log id
  console : s.host.console = start.console ++ if tee then s.log.flatMap (·.bytes) else []
  kept : (∀ hook ∈ hooks, hook = .watch) →
    ∀ path d, start.disk.LeadsTo path d → s.host.disk.LeadsTo path d
  directed : (∀ hook ∈ hooks, hook = .watch) →
    ∀ entry ∈ s.log, s.host.disk.LeadsTo entry.path entry.device
  stuck : ∀ entry ∈ s.log, entry.device = .full → entry.bytes = [] ∨ s.writer.file.Stuck

/-- What a sink that has been opened is like. -/
theorem open_cases {template : String} {tee : Bool} {maxSize : Nat} {hooks : List Hook}
    {host host' : Host} {w : Rotating} {found : Search}
    (hs : search (resolved template host) (Template.hasIndex template.toList)
      (limitFor template maxSize) 0 host.disk = found)
    (h : Rotating.open template tee maxSize hooks host = (.ok w, host')) :
    ∃ (next : Candidate) (works : Bool), found.outcome = .ok next ∧
      w = ⟨template, tee, limitFor template maxSize, Template.hasIndex template.toList,
        found.nextIndex, host.zone.nextHour host.now, next.size, .ofDevice next.device, next.path,
        hooks⟩ ∧
      host' = runHooks hooks next.path { host.relyOnClock works with disk := found.disk } := by
  unfold Rotating.open at h
  dsimp only at h
  -- looking at the clock only notes whether it works, so the search is the one from before
  have hfound : search (resolved template (host.readClock.2.nextHour).2)
      (Template.hasIndex template.toList) (limitFor template maxSize) 0
      (host.readClock.2.nextHour).2.disk = found := hs
  rw [hfound] at h
  split at h
  · cases h
  next next hnext =>
  obtain ⟨hw, hh⟩ := Prod.mk.inj h
  refine ⟨next, host.now.onClock && host.zone.hasNextHour host.now, hnext,
    (Except.ok.inj hw).symm, hh.symm.trans ?_⟩
  simp [Host.nextHour, Host.readClock, Host.relyOnClock, Bool.or_assoc]

theorem open_holds {template : String} {tee : Bool} {maxSize : Nat} {hooks : List Hook}
    {host host' : Host} {w : Rotating} (hs : host.disk.IsSound)
    (h : Rotating.open template tee maxSize hooks host = (.ok w, host')) :
    Session.Holds host tee hooks ⟨w, host', []⟩ := by
  have hgrows := search_grows (resolved template host)
    (Template.hasIndex template.toList) (limitFor template maxSize) 0 host.disk
  generalize hfound : search (resolved template host) (Template.hasIndex template.toList)
    (limitFor template maxSize) 0 host.disk = found at hgrows
  obtain ⟨next, works, hnext, rfl, rfl⟩ := open_cases hfound h
  have hopen := search_ok hfound hnext
  have hkeeps := runHooks_keeps hooks next.path { host.relyOnClock works with disk := found.disk }
  have hsound := hgrows.sound hs
  refine ⟨⟨hkeeps.sound hsound, hkeeps.knows (hopen.offers.leadsTo.knows hsound), fun hw => ?_⟩,
    rfl, rfl, fun id => ?_, ?_, fun hw path d hd => ?_, fun _ entry hmem => ?_,
    fun entry hmem => ?_⟩
  · rw [runHooks_watch hw]
    exact hopen.offers.leadsTo
  · rw [Buffered.promised_ofDevice, hkeeps.contents]
    exact (hgrows.contents _).trans (List.append_nil _).symm
  · refine hkeeps.console.trans ?_
    cases tee <;> exact (List.append_nil _).symm
  · rw [runHooks_watch hw]
    exact hd.mono hgrows.nodes
  · cases hmem
  · cases hmem

theorem Session.write_cases {s s' : Session} {bytes : Bytes}
    (h : s.perform? (.write bytes) = some s') :
    ∃ w host, s.writer.write bytes s.host = (.ok (), w, host) ∧
      host.reports.length = s.host.reports.length ∧
      s' = ⟨w, host, s.log ++ [⟨w.current, w.file.device, bytes⟩]⟩ := by
  simp only [perform?] at h
  split at h
  · next w host hw =>
    split at h
    · next hr => exact ⟨w, host, hw, hr, (Option.some.inj h).symm⟩
    · cases h
  · cases h

/-- Flushing and syncing hand over what waits. -/
theorem Session.handOver_cases {s s' : Session} {op : Op} (hop : op = .flush ∨ op = .sync)
    (h : s.perform? op = some s') :
    ∃ file disk, s.writer.file.flush s.host.disk = (.ok (), file, disk) ∧
      s' = ⟨{ s.writer with file := file }, { s.host with disk := disk }, s.log⟩ := by
  rcases hop with rfl | rfl
  · rcases hf : s.writer.file.flush s.host.disk with ⟨result, file, disk⟩
    simp only [perform?, Sink.flush, Sink.withFile, hf] at h
    cases result with
    | error e => cases h
    | ok _ => exact ⟨file, disk, rfl, (Option.some.inj h).symm⟩
  · rcases hf : s.writer.file.sync s.host.disk with ⟨result, file, disk⟩
    simp only [perform?, Sink.sync, Sink.withFile, hf] at h
    cases result with
    | error e => cases h
    | ok _ => exact ⟨file, disk, Buffered.sync_ok hf, (Option.some.inj h).symm⟩

theorem Session.handOver_holds {start : Host} {tee : Bool} {hooks : List Hook} {s s' : Session}
    {op : Op} (hs : s.Holds start tee hooks) (hop : op = .flush ∨ op = .sync)
    (h : s.perform? op = some s') :
    s'.Holds start tee hooks ∧ s'.log = s.log ∧ s'.writer.file.pending = [] := by
  obtain ⟨file, disk, hf, rfl⟩ := handOver_cases hop h
  obtain ⟨hkeeps, hdevice, hpending, -⟩ := Buffered.flush_ok hs.ready.knows hf
  have hnodes : s.host.disk.nodes <+: disk.nodes := hkeeps.nodes ▸ List.prefix_rfl
  refine ⟨⟨⟨hkeeps.sound hs.ready.sound, ?_, fun hw => ?_⟩, hs.tee_eq, hs.hooks_eq, fun id => ?_,
    hs.console, fun hw path d hd => ?_, fun hw entry hmem => ?_, fun entry hmem hfull => ?_⟩, rfl,
    hpending⟩
  · exact hdevice ▸ hkeeps.knows hs.ready.knows
  · exact hdevice ▸ (hs.ready.leadsTo hw).mono hnodes
  · exact (Buffered.flush_promised hs.ready.knows hf id).trans (hs.promised id)
  · exact (hs.kept hw path d hd).mono hnodes
  · exact (hs.directed hw entry hmem).mono hnodes
  · exact .inl ((hs.stuck entry hmem hfull).resolve_right fun hstuck => hstuck.flush_ne hf)

theorem placed_append (log more : List Placement) (id : Nat) :
    placed (log ++ more) id = placed log id ++ placed more id :=
  List.flatMap_append

theorem Session.Holds.wrote {start : Host} {tee : Bool} {hooks : List Hook} {s : Session}
    {bytes : Bytes} {w : Rotating} {host : Host} (hs : s.Holds start tee hooks)
    (h : Wrote bytes s.writer s.host w host) :
    Session.Holds start tee hooks ⟨w, host, s.log ++ [⟨w.current, w.file.device, bytes⟩]⟩ := by
  have hnodes (hw : ∀ hook ∈ hooks, hook = .watch) : s.host.disk.nodes <+: host.disk.nodes :=
    h.nodes (by rwa [hs.hooks_eq])
  have hnew (hw : ∀ hook ∈ hooks, hook = .watch) : host.disk.LeadsTo w.current w.file.device :=
    h.ready.leadsTo (by rwa [h.hooks, hs.hooks_eq])
  refine ⟨h.ready, h.tee.trans hs.tee_eq, h.hooks.trans hs.hooks_eq, fun id => ?_, ?_,
    fun hw path d hd => (hs.kept hw path d hd).mono (hnodes hw), fun hw entry hmem => ?_,
    fun entry hmem hfull => ?_⟩
  · rw [h.promised, hs.promised, placed_append, List.append_assoc]
    simp [placed]
  · rw [h.console, hs.console, hs.tee_eq]
    cases tee <;> simp
  · rcases List.mem_append.mp hmem with hold | hone
    · exact (hs.directed hw entry hold).mono (hnodes hw)
    · obtain rfl := List.mem_singleton.mp hone
      exact hnew hw
  · rcases List.mem_append.mp hmem with hold | hone
    · exact (hs.stuck entry hold hfull).imp_right fun hstuck => h.stuck (.inl hstuck)
    · obtain rfl := List.mem_singleton.mp hone
      by_cases hempty : bytes = []
      · exact .inl hempty
      · exact .inr (h.stuck (.inr ⟨hfull, hempty⟩))

/-- One step of a session. -/
theorem Session.perform_holds {start : Host} {tee : Bool} {hooks : List Hook} {s s' : Session}
    {op : Op} (hs : s.Holds start tee hooks) (h : s.perform? op = some s') :
    s'.Holds start tee hooks ∧ s'.log.map (·.bytes) = s.log.map (·.bytes) ++ Op.buffers [op] := by
  cases op with
  | clock now =>
    cases h
    exact ⟨⟨⟨hs.ready.sound, hs.ready.knows, hs.ready.leadsTo⟩, hs.tee_eq, hs.hooks_eq, hs.promised,
      hs.console, hs.kept, hs.directed, hs.stuck⟩, (List.append_nil _).symm⟩
  | write bytes =>
    obtain ⟨w, host, hw, hr, rfl⟩ := write_cases h
    exact ⟨hs.wrote (write_ok hs.ready hw hr), by simp [Op.buffers]⟩
  | flush =>
    obtain ⟨hholds, hlog, -⟩ := handOver_holds hs (.inl rfl) h
    exact ⟨hholds, by rw [hlog]; exact (List.append_nil _).symm⟩
  | sync =>
    obtain ⟨hholds, hlog, -⟩ := handOver_holds hs (.inr rfl) h
    exact ⟨hholds, by rw [hlog]; exact (List.append_nil _).symm⟩

theorem Op.buffers_cons (op : Op) (ops : List Op) :
    Op.buffers (op :: ops) = Op.buffers [op] ++ Op.buffers ops := by
  cases op <;> rfl

/-- Any number of steps. -/
theorem Session.run_holds {start : Host} {tee : Bool} {hooks : List Hook} {s s' : Session}
    {ops : List Op} (hs : s.Holds start tee hooks) (h : s.run? ops = some s') :
    s'.Holds start tee hooks ∧ s'.log.map (·.bytes) = s.log.map (·.bytes) ++ Op.buffers ops := by
  induction ops generalizing s with
  | nil =>
    obtain rfl := Option.some.inj h
    exact ⟨hs, (List.append_nil _).symm⟩
  | cons op ops ih =>
    obtain ⟨s₁, hone, hrest⟩ := Option.bind_eq_some_iff.mp h
    obtain ⟨hs₁, hlog₁⟩ := Session.perform_holds hs hone
    obtain ⟨hs', hlog'⟩ := ih hs₁ hrest
    refine ⟨hs', ?_⟩
    rw [hlog', hlog₁, List.append_assoc, ← Op.buffers_cons]

/-! ## 3. What is left in the end -/

/-- When a session has ended, every file holds what it was promised to hold. -/
theorem Session.end_holds {start : Host} {tee : Bool} {hooks : List Hook} {s : Session}
    {ending : Ending} {final : Host} (hs : s.Holds start tee hooks)
    (h : s.end? ending = some final) :
    s.host.disk.Keeps final.disk ∧ final.console = s.host.console ∧ ¬ s.writer.file.Stuck ∧
      ∀ id, final.disk.contents (.file id) = s.writer.file.promised s.host.disk id := by
  have hover {op : Op} (hop : op = .flush ∨ op = .sync)
      (ho : (s.perform? op).map (·.host) = some final) :
      s.host.disk.Keeps final.disk ∧ final.console = s.host.console ∧ ¬ s.writer.file.Stuck ∧
        ∀ id, final.disk.contents (.file id) = s.writer.file.promised s.host.disk id := by
    obtain ⟨s', hp, rfl⟩ := Option.map_eq_some_iff.mp ho
    obtain ⟨file, disk, hf, rfl⟩ := handOver_cases hop hp
    obtain ⟨hkeeps, -, -, hcontents⟩ := Buffered.flush_ok hs.ready.knows hf
    exact ⟨hkeeps, rfl, fun hstuck => hstuck.flush_ne hf, hcontents⟩
  cases ending with
  | flush => exact hover (.inl rfl) h
  | sync => exact hover (.inr rfl) h
  | drop =>
    rw [end?] at h
    split at h
    · next hf =>
      obtain rfl := Option.some.inj h
      obtain ⟨hkeeps, hcontents⟩ := Buffered.close_ok hs.ready.knows hf
      refine ⟨hkeeps, rfl, fun hstuck => ?_, hcontents⟩
      exact hstuck.flush_ne (Prod.ext hf rfl)
    · cases h

/-- Opens a sink, uses it and gives it up: what was written, and the host in the end; nothing if
anything failed on the way. -/
def session? (template : String) (tee : Bool) (maxSize : Nat) (hooks : List Hook) (ops : List Op)
    (ending : Ending) (host : Host) : Option (List Placement × Host) :=
  match Rotating.open template tee maxSize hooks host with
  | (.error _, _) => none
  | (.ok w, host) => do
    let s ← Session.run? ⟨w, host, []⟩ ops
    let final ← s.end? ending
    return (s.log, final)

theorem session_cases {template : String} {tee : Bool} {maxSize : Nat} {hooks : List Hook}
    {ops : List Op} {ending : Ending} {host final : Host} {log : List Placement}
    (h : session? template tee maxSize hooks ops ending host = some (log, final)) :
    ∃ w host' s, Rotating.open template tee maxSize hooks host = (.ok w, host') ∧
      Session.run? ⟨w, host', []⟩ ops = some s ∧ s.end? ending = some final ∧ s.log = log := by
  unfold session? at h
  split at h
  · cases h
  next w host' ho =>
  obtain ⟨s, hrun, h⟩ := Option.bind_eq_some_iff.mp h
  obtain ⟨final', hend, h⟩ := Option.bind_eq_some_iff.mp h
  cases h
  exact ⟨w, host', s, ho, hrun, hend, rfl⟩

/-- In a session without failures the buffers are written in their order, each as a whole to the
file that is current then. In the end every file holds what it held before and the buffers that were
written to it, and a copy of all buffers is on the console if it is wanted there. Unless hooks move
names about, every path still leads to its file. -/
theorem session_keeps_every_buffer (template : String) (tee : Bool) (maxSize : Nat)
    (hooks : List Hook) (ops : List Op) (ending : Ending) (host final : Host)
    (log : List Placement) (hsound : host.disk.IsSound)
    (h : session? template tee maxSize hooks ops ending host = some (log, final)) :
    log.map (·.bytes) = Op.buffers ops ∧
      (∀ id, final.disk.contents (.file id) = host.disk.contents (.file id) ++ placed log id) ∧
      (∀ before entry after, log = before ++ entry :: after →
        entry.bytes = [] ∨ entry.device = .null ∨ ∃ id, entry.device = .file id ∧
          final.disk.contents (.file id) =
            host.disk.contents (.file id) ++ placed before id ++ entry.bytes ++ placed after id) ∧
      final.console = host.console ++ (if tee then (Op.buffers ops).flatten else []) ∧
      ((∀ hook ∈ hooks, hook = .watch) →
        (∀ path d, host.disk.LeadsTo path d → final.disk.LeadsTo path d) ∧
        ∀ entry ∈ log, final.disk.LeadsTo entry.path entry.device) := by
  obtain ⟨w, host', s, hopen, hrun, hend, rfl⟩ := session_cases h
  obtain ⟨hs, hlog⟩ := Session.run_holds (open_holds hsound hopen) hrun
  obtain ⟨hkeeps, hconsole, hstuck, hcontents⟩ := Session.end_holds hs hend
  have hbytes : s.log.map (·.bytes) = Op.buffers ops := hlog
  have hfiles (id : Nat) : final.disk.contents (.file id) =
      host.disk.contents (.file id) ++ placed s.log id :=
    (hcontents id).trans (hs.promised id)
  refine ⟨hbytes, hfiles, fun before entry after hsplit => ?_, ?_, fun hw => ⟨fun path d hd => ?_,
    fun entry hmem => ?_⟩⟩
  · have hmem : entry ∈ s.log := hsplit ▸ List.mem_append_right _ List.mem_cons_self
    cases hd : entry.device with
    | null => exact .inr (.inl rfl)
    -- a buffer that waited for a full device would have made the end fail
    | full => exact .inl ((hs.stuck entry hmem hd).resolve_right hstuck)
    | file id =>
      refine .inr (.inr ⟨id, rfl, ?_⟩)
      have hone : placed (entry :: after) id = entry.bytes ++ placed after id := by
        rw [placed, List.flatMap_cons, hd, Disk.share, if_pos rfl]
        rfl
      rw [hfiles, hsplit, placed_append, hone]
      simp only [List.append_assoc]
  · rw [hconsole, hs.console, ← hbytes, List.flatMap_def]
  · exact (hs.kept hw path d hd).mono (hkeeps.nodes ▸ List.prefix_rfl)
  · exact (hs.directed hw entry hmem).mono (hkeeps.nodes ▸ List.prefix_rfl)

/-- A file that holds something before the session, and one below it that is full. -/
def startedHost : Host :=
  let host := Host.start "/home" (.fixed 0) ⟨1718445600, 0⟩
  { host with disk := { host.disk with
      nodes := host.disk.nodes ++ [(⟨.work, ["a-0-10.log"]⟩, .device (.file 0)),
        (⟨.work, ["a-1-10.log"]⟩, .device (.file 1))]
      files := [Utf8.ofString "full already", Utf8.ofString "old"] } }

/-- Rotations by size and by hour, and a clock that goes back. -/
def rotations : List Op :=
  [.write (Utf8.ofString "one"), .flush, .write (Utf8.ofString "two two"), .clock ⟨1718449200, 0⟩,
    .write (Utf8.ofString "three"), .sync, .clock ⟨1718445600, 0⟩, .write [],
    .write (Utf8.ofString "four")]

theorem session_keeps_every_buffer_rotations :
    ∃ log final, startedHost.disk.IsSound ∧
      session? "a-index-HH.log" true 10 [.watch] rotations .drop startedHost = some (log, final) ∧
      log.map (·.bytes) = Op.buffers rotations ∧
      (∀ id, final.disk.contents (.file id) =
        startedHost.disk.contents (.file id) ++ placed log id) ∧
      (∀ before entry after, log = before ++ entry :: after →
        entry.bytes = [] ∨ entry.device = .null ∨ ∃ id, entry.device = .file id ∧
          final.disk.contents (.file id) = startedHost.disk.contents (.file id) ++
            placed before id ++ entry.bytes ++ placed after id) ∧
      final.console = startedHost.console ++
        (if true then (Op.buffers rotations).flatten else []) ∧
      ((∀ hook ∈ [Hook.watch], hook = .watch) →
        (∀ path d, startedHost.disk.LeadsTo path d → final.disk.LeadsTo path d) ∧
        ∀ entry ∈ log, final.disk.LeadsTo entry.path entry.device) := by
  have hsome : (session? "a-index-HH.log" true 10 [.watch] rotations .drop startedHost).isSome := by
    decide +kernel
  obtain ⟨⟨log, final⟩, h⟩ := Option.isSome_iff_exists.mp hsome
  have hsound : startedHost.disk.IsSound := by
    intro place id hmem
    simp only [startedHost, Host.start, Disk.empty, List.cons_append, List.nil_append,
      List.mem_cons, Prod.mk.injEq, reduceCtorEq, and_false, Node.device.injEq,
      Device.file.injEq, List.not_mem_nil, or_false, false_or] at hmem
    show id < 2
    omega
  exact ⟨log, final, hsound, h, session_keeps_every_buffer _ _ _ _ _ _ _ _ _ hsound h⟩

end Rotating

end Logbook
