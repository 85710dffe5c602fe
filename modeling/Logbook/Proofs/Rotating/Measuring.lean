import Logbook.Proofs.Rotating.Apart
import Logbook.Proofs.Rotating.Restart

/-!
# The size that a sink reckons with

The size of a file is measured when the file is opened, before the last file is given up, and
counted from then on. It is the right one because a sink never adopts the file that it is at: what
still waits is handed over to another one.

Results:
1. `rotate_measures`: the size of an adopted file is what it is going to hold.
2. `write_measures`: a buffer is appended to a file that is below the limit.
3. `Session.run_measures`: what holds after any number of operations.
4. `session_stays_within_limit`: what that means for the files.
-/

namespace Logbook

/-- After handing over every file holds what it was promised to hold, even if the device refuses. -/
theorem Buffered.flush_contents {b : Buffered} {disk : Disk} (hk : disk.Knows b.device) (id : Nat) :
    (b.flush disk).2.2.contents (.file id) = b.promised disk id := by
  cases hf : b.flush disk with
  | mk result rest =>
    obtain ⟨b', disk'⟩ := rest
    cases result with
    | ok _ => exact (flush_ok hk hf).2.2.2 id
    | error e =>
      unfold flush at hf
      split at hf
      · cases hf
      next ha =>
      cases hf
      -- only the device without space refuses, which takes nothing away from any file
      have hfull : b.device = .full := by
        cases hd : b.device with
        | full => rfl
        | null =>
          rw [hd] at ha
          cases ha
        | file id =>
          rw [hd] at ha
          cases ha
      rw [promised, Disk.share, hfull, if_neg (by simp), List.append_nil]

namespace Rotating

/-! ## 1. Moving on -/

/-- The sink is at a candidate of its template, and its size is what the current file is going to
hold. -/
structure Measures (template : String) (maxSize : Nat) (w : Rotating) (host : Host) : Prop where
  template_eq : w.template = template
  limit_eq : w.limit = maxSize
  indexed : w.indexed = true
  watch : ∀ hook ∈ w.hooks, hook = .watch
  named : ∃ t k, Template.HasPlainYear t ∧ w.nextIndex = k + 1 ∧
    w.current = String.ofList (Template.candidate (Template.resolve template.toList t) k)
  size_eq : ∀ id, w.file.device = .file id → w.size = (w.file.promised host.disk id).length

variable {template : String} {maxSize : Nat} {w w' : Rotating} {host host' : Host}

theorem Measures.isCandidate (h : Measures template maxSize w host) :
    IsCandidate template w.current := by
  obtain ⟨t, k, ht, -, hcurrent⟩ := h.named
  exact ⟨t, k, ht, hcurrent⟩

theorem Measures.relyOnClock (h : Measures template maxSize w host) (works : Bool)
    (nextHour : Time.Moment) :
    Measures template maxSize { w with nextHour := nextHour } (host.relyOnClock works) :=
  ⟨h.template_eq, h.limit_eq, h.indexed, h.watch, h.named, h.size_eq⟩

/-- A file with another name is adopted with the size that it is going to have. -/
theorem adopted_size (hready : w.Ready host) (hw : ∀ hook ∈ w.hooks, hook = .watch)
    (hmoved : Moved w host w' host')
    (hsize : w'.size = (host.disk.contents w'.file.device).length)
    (hold : IsCandidate template w.current) (hnew : IsCandidate template w'.current)
    (hne : w.current ≠ w'.current) (hapart : Apart template host'.disk) (id : Nat)
    (hd : w'.file.device = .file id) : w'.size = (w'.file.promised host'.disk id).length := by
  have hother : w.file.device ≠ .file id := by
    intro hsame
    have holdLeads := (hready.leadsTo hw).mono (hmoved.nodes hw)
    have hnewLeads := hmoved.ready.leadsTo (by rwa [hmoved.hooks])
    rw [hsame] at holdLeads
    rw [hd] at hnewLeads
    exact hne (hapart _ _ id hold hnew holdLeads hnewLeads)
  rw [hsize, hd, hmoved.promised, Buffered.promised, Disk.share, if_neg hother, List.append_nil]

/-- Moving on to a file with another name measures what that file is going to hold. -/
theorem rotate_measures (hready : w.Ready host) (htemplate : w.template = template)
    (hlimit : w.limit = maxSize) (hindexed : w.indexed = true)
    (hw : ∀ hook ∈ w.hooks, hook = .watch) (hyear : Template.HasPlainYear host.localNow)
    (hold : IsCandidate template w.current)
    (h : w.rotate host = (.ok (), w', host')) (hr : host'.reports.length = host.reports.length)
    (hne : ∀ k, w.nextIndex ≤ k → w.current ≠
      String.ofList (Template.candidate (Template.resolve template.toList host.localNow) k))
    (hapart : Apart template host'.disk) :
    Measures template maxSize w' host' ∧ w'.size < maxSize := by
  obtain ⟨hadopts, hset, -, -⟩ := rotate_adopts h
  obtain ⟨k, hle, hnext, hcurrent⟩ := hadopts.named
  rw [resolved, htemplate] at hcurrent
  have hnamed : IsCandidate template w'.current := ⟨host.localNow, k, hyear, hcurrent⟩
  refine ⟨⟨hset.template.trans htemplate, hset.limit.trans hlimit, hset.indexed.trans hindexed,
    by rwa [hset.hooks], ⟨host.localNow, k, hyear, hnext, hcurrent⟩, ?_⟩, ?_⟩
  · exact adopted_size hready hw (rotate_ok hready h hr) hadopts.size_eq hold hnamed
      (hcurrent ▸ hne k hle) hapart
  · rw [← hlimit, ← hset.limit]
    exact hadopts.room (hset.indexed.trans hindexed)

/-! ## 2. Writing -/

/-- Looking at the size leaves room in the current file. A file that is moved on to has a higher
counter than the last one, or another date. -/
theorem rotateBySize_measures {bytes : Nat} (hindex : Template.hasIndex template.toList = true)
    (hmax : 0 < maxSize) (hready : w.Ready host) (hm : Measures template maxSize w host)
    (hyear : Template.HasPlainYear host.localNow)
    (h : w.rotateBySize bytes host = (.ok (), w', host'))
    (hr : host'.reports.length = host.reports.length) (hapart : Apart template host'.disk) :
    Measures template maxSize w' host' ∧ w'.size < maxSize := by
  obtain ⟨hroom, rfl, rfl⟩ | ⟨-, hrotate⟩ := rotateBySize_looks h
  · refine ⟨hm, ?_⟩
    rw [isFull, hm.limit_eq, Bool.and_eq_false_iff, decide_eq_false_iff_not,
      decide_eq_false_iff_not] at hroom
    omega
  · obtain ⟨t, k, ht, hnext, hcurrent⟩ := hm.named
    refine rotate_measures hready hm.template_eq hm.limit_eq hm.indexed hm.watch hyear
      hm.isCandidate hrotate hr ?_ hapart
    intro k' hle hsame
    rw [hcurrent] at hsame
    obtain ⟨-, hcounter⟩ :=
      Template.candidate_resolve_inj ht hyear (String.ofList_injective hsame)
    rw [hcounter hindex] at hnext
    omega

/-- Looking at the hour moves on only to a file with another name. -/
theorem rotateByHour_measures (hindex : Template.hasIndex template.toList = true)
    (hready : w.Ready host) (hm : Measures template maxSize w host) (hroom : w.size < maxSize)
    (hyear : Template.HasPlainYear host.localNow)
    (h : w.rotateByHour host = (.ok (), w', host'))
    (hr : host'.reports.length = host.reports.length) (hapart : Apart template host'.disk) :
    Measures template maxSize w' host' ∧ w'.size < maxSize := by
  obtain ⟨-, rfl, rfl⟩ | ⟨works, ⟨-, rfl, rfl⟩ | ⟨hother, hrotate⟩⟩ := rotateByHour_looks h
  · exact ⟨hm, hroom⟩
  · exact ⟨hm.relyOnClock works _, hroom⟩
  · obtain ⟨t, k, ht, hnext, hcurrent⟩ := hm.named
    have hclock := Moved.relyOnClock hready works (host.zone.nextHour host.now) 0
    refine rotate_measures hclock.ready hm.template_eq hm.limit_eq hm.indexed hm.watch hyear
      hm.isCandidate hrotate hr ?_ hapart
    intro k' _ hsame
    -- the file found would have the counter of the current one, and so be the one expected
    have hsame : w.current = String.ofList (Template.candidate
        (Template.resolve template.toList host.localNow) k') := hsame
    have hcandidates := hcurrent.symm.trans hsame
    obtain ⟨-, hcounter⟩ :=
      Template.candidate_resolve_inj ht hyear (String.ofList_injective hcandidates)
    refine hother ?_
    rw [expected, hnext, hcounter hindex, hsame, resolved, hm.template_eq]
    rfl

theorem append_measures {bytes : Bytes} (hready : w.Ready host)
    (hm : Measures template maxSize w host) (h : w.append bytes host = (.ok (), w', host')) :
    Measures template maxSize w' host' := by
  have hwrote := append_ok hready h
  obtain ⟨file, hwrite, rfl, -⟩ := append_cases h
  obtain ⟨-, hdevice, -⟩ := Buffered.write_ok hready.knows hwrite
  refine ⟨hm.template_eq, hm.limit_eq, hm.indexed, hm.watch, hm.named, ?_⟩
  intro id hd
  have hd : file.device = .file id := hd
  rw [hwrote.promised, List.length_append, Disk.share, if_pos hd,
    ← hm.size_eq id (hdevice.symm.trans hd)]

/-- A buffer is appended to a file that is below the limit, and counted. -/
theorem write_measures {bytes : Bytes} (hindex : Template.hasIndex template.toList = true)
    (hmax : 0 < maxSize) (hready : w.Ready host) (hm : Measures template maxSize w host)
    (hyear : Template.HasPlainYear host.localNow) (h : w.write bytes host = (.ok (), w', host'))
    (hr : host'.reports.length = host.reports.length) (hapart : Apart template host'.disk) :
    Measures template maxSize w' host' ∧ ∀ id, w'.file.device = .file id →
      (w.file.promised host.disk id).length < maxSize := by
  obtain ⟨w₁, host₁, w₂, host₂, h₁, hr₁, h₂, hr₂, h₃⟩ := write_steps h hr
  have hclock : Moved w host w host.readClock.2 :=
    .relyOnClock hready host.now.onClock w.nextHour w.nextIndex
  have hm₀ : Measures template maxSize w host.readClock.2 := hm.relyOnClock _ w.nextHour
  have hmoved₁ := rotateBySize_ok hclock.ready h₁ hr₁
  have hmoved₂ := rotateByHour_ok hmoved₁.ready h₂ hr₂
  have hwrote := append_ok hmoved₂.ready h₃
  have hwatch₁ : ∀ hook ∈ w₁.hooks, hook = .watch := by
    rw [hmoved₁.hooks]
    exact hm.watch
  have hwatch₂ : ∀ hook ∈ w₂.hooks, hook = .watch := by
    rw [hmoved₂.hooks]
    exact hwatch₁
  have hapart₂ : Apart template host₂.disk := hapart.mono (hwrote.nodes hwatch₂)
  have hapart₁ : Apart template host₁.disk := hapart₂.mono (hmoved₂.nodes hwatch₁)
  obtain ⟨hm₁, hroom₁⟩ := rotateBySize_measures hindex hmax hclock.ready hm₀ hyear h₁ hr₁ hapart₁
  obtain ⟨hm₂, hroom₂⟩ := rotateByHour_measures hindex hmoved₁.ready hm₁ hroom₁
    ((rotateBySize_clock h₁).localNow ▸ hyear) h₂ hr₂ hapart₂
  refine ⟨append_measures hmoved₂.ready hm₂ h₃, ?_⟩
  intro id hd
  obtain ⟨file, hwrite, rfl, -⟩ := append_cases h₃
  obtain ⟨-, hdevice, -⟩ := Buffered.write_ok hmoved₂.ready.knows hwrite
  have hd₂ : w₂.file.device = .file id := hdevice.symm.trans hd
  calc (w.file.promised host.disk id).length
      = (w₁.file.promised host₁.disk id).length := by rw [hmoved₁.promised]; rfl
    _ = (w₂.file.promised host₂.disk id).length := by rw [hmoved₂.promised]
    _ = w₂.size := (hm₂.size_eq id hd₂).symm
    _ < maxSize := hroom₂

/-! ## 3. Sessions -/

/-- Every buffer was written to a file that held fewer bytes than the limit then. -/
def WrittenBelow (limit : Nat) (start : Disk) (log : List Placement) : Prop :=
  ∀ before entry after, log = before ++ entry :: after → ∀ id, entry.device = .file id →
    (start.contents (.file id) ++ placed before id).length < limit

section
variable {limit : Nat} {start : Disk} {log : List Placement}

theorem WrittenBelow.nil : WrittenBelow limit start [] := by
  intro before entry after h
  simp at h

theorem WrittenBelow.concat {last : Placement} (h : WrittenBelow limit start log)
    (hlast : ∀ id, last.device = .file id →
      (start.contents (.file id) ++ placed log id).length < limit) :
    WrittenBelow limit start (log ++ [last]) := by
  intro before entry after hsplit id hd
  rcases List.eq_nil_or_concat after with rfl | ⟨init, final, rfl⟩
  · obtain ⟨rfl, hone⟩ := List.append_inj' hsplit rfl
    obtain rfl := (List.cons.inj hone).1
    exact hlast id hd
  · rw [List.concat_eq_append, ← List.cons_append, ← List.append_assoc] at hsplit
    exact h before entry init (List.append_inj' hsplit rfl).1 id hd

/-- A file that has reached the limit to begin with is not written to. -/
theorem WrittenBelow.untouched (h : WrittenBelow limit start log) {id : Nat}
    (hfull : limit ≤ (start.contents (.file id)).length) :
    ∀ entry ∈ log, entry.device ≠ .file id := by
  intro entry hmem hd
  obtain ⟨before, after, hsplit⟩ := List.append_of_mem hmem
  have hbelow := h before entry after hsplit id hd
  rw [List.length_append] at hbelow
  omega

theorem placed_of_forall_ne {id : Nat} (h : ∀ entry ∈ log, entry.device ≠ .file id) :
    placed log id = [] :=
  Classical.byContradiction fun hne =>
    have ⟨entry, hmem, hd⟩ := mem_of_placed hne
    h entry hmem hd

/-- A file exceeds the limit by less than the last buffer that was written to it. -/
theorem WrittenBelow.length_lt (h : WrittenBelow limit start log) {before after : List Placement}
    {entry : Placement} {id : Nat} (hsplit : log = before ++ entry :: after)
    (hd : entry.device = .file id) (hafter : ∀ later ∈ after, later.device ≠ .file id) :
    (start.contents (.file id) ++ placed log id).length < limit + entry.bytes.length := by
  have hbelow := h before entry after hsplit id hd
  have hone : placed (entry :: after) id = entry.bytes := by
    have htail : after.flatMap (fun entry => Disk.share entry.device entry.bytes id) = [] :=
      placed_of_forall_ne hafter
    rw [placed, List.flatMap_cons, htail, List.append_nil, Disk.share, if_pos hd]
  rw [hsplit, placed_append, hone, ← List.append_assoc, List.length_append]
  omega

end

/-- What holds at every time of a session in which files are kept apart. -/
structure Session.Measures (template : String) (maxSize : Nat) (start : Host) (s : Session) :
    Prop where
  writer : s.writer.Measures template maxSize s.host
  below : WrittenBelow maxSize start.disk s.log

variable {tee : Bool} {hooks : List Hook} {start : Host}

theorem open_measures (hindex : Template.hasIndex template.toList = true) (hmax : 0 < maxSize)
    (hw : ∀ hook ∈ hooks, hook = .watch) (hsound : host.disk.IsSound)
    (hyear : Template.HasPlainYear host.localNow)
    (h : Rotating.open template tee maxSize hooks host = (.ok w, host')) :
    Session.Measures template maxSize host ⟨w, host', []⟩ := by
  obtain ⟨hadopts, -, htemplate, hlimit, hindexed, hhooks, -⟩ := open_adopts h
  obtain ⟨k, -, hnext, hcurrent⟩ := hadopts.named
  refine ⟨⟨htemplate, hlimit.trans (limitFor_indexed hindex hmax), hindexed.trans hindex,
    by rwa [hhooks], ⟨host.localNow, k, hyear, hnext, hcurrent⟩, ?_⟩, .nil⟩
  intro id hd
  have hpromised := (open_holds hsound h).promised id
  rw [hadopts.size_eq, hd]
  exact congrArg List.length (hpromised.trans (List.append_nil _)).symm

/-- One step of a session. -/
theorem Session.perform_measures {s s' : Session} {op : Op}
    (hindex : Template.hasIndex template.toList = true) (hmax : 0 < maxSize)
    (hholds : s.Holds start tee hooks) (hs : s.Measures template maxSize start)
    (hyears : ∀ write ∈ Op.timed s.host.now [op],
      Template.HasPlainYear (s.host.zone.stamp write.1))
    (hapart : Apart template s'.host.disk) (h : s.perform? op = some s') :
    s'.Measures template maxSize start := by
  have hover (hop : op = .flush ∨ op = .sync) : s'.Measures template maxSize start := by
    obtain ⟨file, disk, hf, rfl⟩ := handOver_cases hop h
    obtain ⟨-, hdevice, -, -⟩ := Buffered.flush_ok hholds.ready.knows hf
    refine ⟨⟨hs.writer.template_eq, hs.writer.limit_eq, hs.writer.indexed, hs.writer.watch,
      hs.writer.named, fun id hd => ?_⟩, hs.below⟩
    have hd : file.device = .file id := hd
    rw [Buffered.flush_promised hholds.ready.knows hf]
    exact hs.writer.size_eq id (hdevice.symm.trans hd)
  cases op with
  | clock now =>
    cases h
    exact ⟨⟨hs.writer.template_eq, hs.writer.limit_eq, hs.writer.indexed, hs.writer.watch,
      hs.writer.named, hs.writer.size_eq⟩, hs.below⟩
  | flush => exact hover (.inl rfl)
  | sync => exact hover (.inr rfl)
  | write bytes =>
    obtain ⟨w, host, hwrite, hr, rfl⟩ := write_cases h
    have hyear : Template.HasPlainYear s.host.localNow :=
      hyears (s.host.now, bytes) List.mem_cons_self
    obtain ⟨hm, hbelow⟩ :=
      write_measures hindex hmax hholds.ready hs.writer hyear hwrite hr hapart
    refine ⟨hm, hs.below.concat ?_⟩
    intro id hd
    rw [← hholds.promised]
    exact hbelow id hd

/-- Any number of steps. -/
theorem Session.run_measures {s s' : Session} {ops : List Op}
    (hindex : Template.hasIndex template.toList = true) (hmax : 0 < maxSize)
    (hholds : s.Holds start tee hooks) (hs : s.Measures template maxSize start)
    (hyears : ∀ write ∈ Op.timed s.host.now ops,
      Template.HasPlainYear (s.host.zone.stamp write.1))
    (hapart : Apart template s'.host.disk) (h : s.run? ops = some s') :
    s'.Measures template maxSize start := by
  induction ops generalizing s with
  | nil =>
    obtain rfl := Option.some.inj h
    exact hs
  | cons op ops ih =>
    obtain ⟨s₁, hone, hrest⟩ := Option.bind_eq_some_iff.mp h
    obtain ⟨hzone, htimed⟩ := perform_clock hone
    rw [htimed ops] at hyears
    -- the names that lead apart in the end have done so all the time
    obtain ⟨-, hhooks⟩ := perform_widens hs.writer.watch hone
    have hwatch₁ : ∀ hook ∈ s₁.writer.hooks, hook = .watch := by
      rw [hhooks]
      exact hs.writer.watch
    have hapart₁ := hapart.mono (run_widens hwatch₁ hrest).nodes
    have hs₁ := perform_measures hindex hmax hholds hs
      (fun write hmem => hyears write (List.mem_append_left _ hmem)) hapart₁ hone
    refine ih (perform_holds hholds hone).1 hs₁ ?_ hrest
    intro write hmem
    rw [hzone]
    exact hyears write (List.mem_append_right _ hmem)

/-! ## 4. The files -/

/-- What a file holds once everything that waits has been handed over. -/
def Session.held (s : Session) (id : Nat) : Bytes :=
  (s.writer.file.flush s.host.disk).2.2.contents (.file id)

/-- At every time of a session without failures, in which different candidates are different files,
the size of the current file is what it is going to hold once everything is handed over. Every
buffer was written to a file that held fewer bytes than the limit, so no file exceeds the limit by
as much as the last buffer that was written to it, and files that had reached the limit to begin
with are as they were. -/
theorem session_stays_within_limit (template : String) (tee : Bool) (maxSize : Nat)
    (hooks : List Hook) (ops : List Op) (host host₁ : Host) (w : Rotating) (s : Session)
    (hindex : Template.hasIndex template.toList = true) (hmax : 0 < maxSize)
    (hw : ∀ hook ∈ hooks, hook = .watch) (hsound : host.disk.IsSound)
    (hyears : ∀ now ∈ host.now :: (Op.timed host.now ops).map (·.1),
      Template.HasPlainYear (host.zone.stamp now))
    (hopen : Rotating.open template tee maxSize hooks host = (.ok w, host₁))
    (hrun : Session.run? ⟨w, host₁, []⟩ ops = some s) (hapart : Apart template s.host.disk) :
    (∀ id, s.writer.file.device = .file id → s.writer.size = (s.held id).length) ∧
      (∀ id, s.held id = host.disk.contents (.file id) ++ placed s.log id) ∧
      WrittenBelow maxSize host.disk s.log ∧
      (∀ before entry after id, s.log = before ++ entry :: after → entry.device = .file id →
        (∀ later ∈ after, later.device ≠ .file id) →
        (s.held id).length < maxSize + entry.bytes.length) ∧
      ∀ id, maxSize ≤ (host.disk.contents (.file id)).length →
        s.held id = host.disk.contents (.file id) ∧ ∀ entry ∈ s.log, entry.device ≠ .file id := by
  obtain ⟨-, hclock, -⟩ := open_adopts hopen
  have hholds₁ := open_holds hsound hopen
  obtain ⟨hholds, -⟩ := Session.run_holds hholds₁ hrun
  have hmeasures : s.Measures template maxSize host := by
    refine Session.run_measures hindex hmax hholds₁
      (open_measures hindex hmax hw hsound (hyears _ List.mem_cons_self) hopen) ?_ hapart hrun
    intro write hmem
    have hmem : write ∈ Op.timed host₁.now ops := hmem
    rw [hclock.now] at hmem
    show Template.HasPlainYear (host₁.zone.stamp write.1)
    rw [hclock.zone]
    exact hyears _ (List.mem_cons_of_mem _ (List.mem_map_of_mem hmem))
  have hflushed (id : Nat) : s.held id = s.writer.file.promised s.host.disk id :=
    Buffered.flush_contents hholds.ready.knows id
  have hheld (id : Nat) : s.held id = host.disk.contents (.file id) ++ placed s.log id :=
    (hflushed id).trans (hholds.promised id)
  refine ⟨fun id hd => ?_, hheld, hmeasures.below, ?_, fun id hfull => ?_⟩
  · rw [hflushed]
    exact hmeasures.writer.size_eq id hd
  · intro before entry after id hsplit hd hafter
    rw [hheld]
    exact hmeasures.below.length_lt hsplit hd hafter
  · have huntouched := hmeasures.below.untouched hfull
    refine ⟨?_, huntouched⟩
    rw [hheld, placed_of_forall_ne huntouched, List.append_nil]

theorem isPlain_startedHost : startedHost.disk.IsPlain := by
  have hnodes {place : Place} {node : Node} (h : (place, node) ∈ startedHost.disk.nodes) :
      node = .folder ∨ node = .device .null ∨ node = .device .full ∨
        (place = ⟨.work, ["a-0-10.log"]⟩ ∧ node = .device (.file 0)) ∨
        (place = ⟨.work, ["a-1-10.log"]⟩ ∧ node = .device (.file 1)) := by
    simp only [startedHost, Host.start, Disk.empty, List.cons_append, List.nil_append,
      List.mem_cons, Prod.mk.injEq, List.not_mem_nil, or_false] at h
    rcases h with ⟨-, h⟩ | ⟨-, h⟩ | ⟨-, h⟩ | h | h
    · exact .inl h
    · exact .inr (.inl h)
    · exact .inr (.inr (.inl h))
    · exact .inr (.inr (.inr (.inl h)))
    · exact .inr (.inr (.inr (.inr h)))
  refine ⟨fun place id h => ?_, fun place target h => ?_, fun p q id hp hq => ?_⟩
  · show id < 2
    rcases hnodes h with h | h | h | ⟨-, h⟩ | ⟨-, h⟩ <;> cases h <;> decide
  · rcases hnodes h with h | h | h | ⟨-, h⟩ | ⟨-, h⟩ <;> cases h
  · rcases hnodes hp with h | h | h | ⟨rfl, h⟩ | ⟨rfl, h⟩ <;> cases h <;>
      rcases hnodes hq with h | h | h | ⟨rfl, h⟩ | ⟨rfl, h⟩ <;> cases h <;> rfl

theorem session_stays_within_limit_rotations :
    ∃ w host₁ s,
      Rotating.open "a-index-HH.log" true 10 [.watch] startedHost = (.ok w, host₁) ∧
      Session.run? ⟨w, host₁, []⟩ rotations = some s ∧ Apart "a-index-HH.log" s.host.disk ∧
      (∀ id, s.writer.file.device = .file id → s.writer.size = (s.held id).length) ∧
      WrittenBelow 10 startedHost.disk s.log ∧
      s.held 0 = startedHost.disk.contents (.file 0) := by
  have hsome : (session? "a-index-HH.log" true 10 [.watch] rotations .drop
      startedHost).isSome := by
    decide +kernel
  obtain ⟨⟨log, final⟩, h⟩ := Option.isSome_iff_exists.mp hsome
  obtain ⟨w, host₁, s, hopen, hrun, -, -⟩ := session_cases h
  have hw : ∀ hook ∈ [Hook.watch], hook = .watch := by decide
  have hplain := (Session.run_widens (s := ⟨w, host₁, []⟩) (open_watch hw hopen) hrun).plain
    ((open_widens hw hopen).plain isPlain_startedHost)
  have hapart : Apart "a-index-HH.log" s.host.disk := apart_of_flat hplain (by decide)
  obtain ⟨hsize, -, hbelow, -, hfull⟩ := session_stays_within_limit "a-index-HH.log" true 10
    [.watch] rotations startedHost host₁ w s (by decide) (by decide) hw
    isPlain_startedHost.sound (by decide) hopen hrun hapart
  exact ⟨w, host₁, s, hopen, hrun, hapart, hsize, hbelow, (hfull 0 (by decide)).1⟩

end Rotating

end Logbook
