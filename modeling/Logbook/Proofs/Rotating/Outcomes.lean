import Logbook.Proofs.Rotating.Following
import Logbook.Proofs.Rotating.Measuring

/-!
# What a write comes to

A write stays with the current file, or searches for another one. If the search fails, the write
fails and has moved nothing but the counter and, when an hour had begun, the moment from which the
name is looked at again. If it succeeds, the bytes are appended to the file that was found, whether
or not anything went wrong when the last one was given up.

Results:
1. `retire_contents`: giving up a file keeps its promise even if the device refuses.
2. `write_stays`, `write_fails`, `write_moves`: the three things that a write can come to.
3. `perform_performed`, `Reached.inOrder`: what one operation leaves of a sink, and what holds in
   all states of one that is used while others change the disk.
4. `write_succeeds`, `write_arrives`: when a write succeeds, and where its bytes are then.
-/

namespace Logbook

/-! ## 1. Promises and refusals -/

theorem Disk.append_refuses {disk : Disk} {d : Device} {bytes : Bytes} {e : IoError}
    (h : disk.append d bytes = .error e) : e = .refused .noSpace := by
  cases d with
  | file id => cases h
  | null => cases h
  | full =>
    rw [append] at h
    split at h
    · cases h
    · exact (Except.error.inj h).symm

namespace Buffered

variable {b b' : Buffered} {disk disk' : Disk} {e : IoError}

theorem flush_refuses (h : b.flush disk = (.error e, b', disk')) : e = .refused .noSpace := by
  unfold flush at h
  split at h
  · cases h
  · next ha =>
    cases h
    exact Disk.append_refuses ha

theorem accept_refuses {bytes : Bytes} (h : b.accept bytes disk = (.error e, b', disk')) :
    e = .refused .noSpace := by
  unfold accept at h
  split at h
  · split at h
    · cases h
    · next ha =>
      cases h
      exact Disk.append_refuses ha
  · cases h

/-- The only refusal is the one of the device without space. -/
theorem write_refuses {bytes : Bytes} (h : b.write bytes disk = (.error e, b', disk')) :
    e = .refused .noSpace := by
  unfold write at h
  split at h
  · exact accept_refuses h
  split at h
  · exact accept_refuses h
  · next hf =>
    cases h
    exact flush_refuses hf

/-- A refusal leaves everything as it was. -/
theorem flush_error (h : b.flush disk = (.error e, b', disk')) : b' = b ∧ disk' = disk := by
  unfold flush at h
  split at h
  · cases h
  · cases h
    exact ⟨rfl, rfl⟩

/-- Handing over settles nothing anew, even if the device refuses. -/
theorem flush_keeps_promise (hk : disk.Knows b.device) (id : Nat) :
    (b.flush disk).2.1.promised (b.flush disk).2.2 id = b.promised disk id := by
  rcases hf : b.flush disk with ⟨result, b', disk'⟩
  cases result with
  | ok _ => exact flush_promised hk hf id
  | error e =>
    obtain ⟨rfl, rfl⟩ := flush_error hf
    rfl

theorem sync_flushes (b : Buffered) (disk : Disk) : (b.sync disk).2 = (b.flush disk).2 := by
  unfold sync
  split
  · next hf => rw [hf]
  · rfl

/-- Only the device without space refuses bytes. -/
theorem write_succeeds (b : Buffered) (bytes : Bytes) (disk : Disk) (h : b.device ≠ .full) :
    (b.write bytes disk).1 = .ok () := by
  have happend (bytes : Bytes) (disk : Disk) : ∃ disk', disk.append b.device bytes = .ok disk' := by
    cases hd : b.device with
    | file id => exact ⟨_, rfl⟩
    | null => exact ⟨_, rfl⟩
    | full => exact absurd hd h
  have haccept (pending : Bytes) (disk : Disk) :
      (accept { b with pending := pending } bytes disk).1 = .ok () := by
    obtain ⟨disk', ha⟩ := happend bytes disk
    unfold accept
    split
    · dsimp only
      rw [ha]
    · rfl
  obtain ⟨disk', ha⟩ := happend b.pending disk
  unfold write
  split
  · exact haccept b.pending disk
  · rw [flush, ha]
    exact haccept [] disk'

end Buffered

/-- Relying on the clock twice is relying on it once. -/
theorem Host.relyOnClock_twice (host : Host) (a b : Bool) :
    (host.relyOnClock a).relyOnClock b = host.relyOnClock (a && b) := by
  simp [Host.relyOnClock, Bool.or_assoc]

namespace Rotating

variable {w w' : Rotating} {host host' : Host}

/-- A file that is given up holds what it was promised to hold, even if the device refuses. -/
theorem retire_contents (hk : host.disk.Knows w.file.device) (id : Nat) :
    (w.retire host).disk.contents (.file id) = w.file.promised host.disk id := by
  have hflush := w.file.sync_flushes host.disk
  have hknows : (w.file.flush host.disk).2.2.Knows (w.file.flush host.disk).2.1.device := by
    rw [Buffered.flush_device]
    exact (w.file.flush_keeps host.disk).knows hk
  have hdisk : (w.retire host).disk =
      ((w.file.sync host.disk).2.1.flush (w.file.sync host.disk).2.2).2.2 := by
    unfold retire
    dsimp only
    split <;> rfl
  rw [hdisk, hflush, Buffered.flush_contents hknows, Buffered.flush_keeps_promise hk]

/-! ## 2. Single writes -/

theorem searched_le (w : Rotating) (index : Nat) (host : Host) :
    index ≤ (w.searched index host).nextIndex :=
  searchFrom_le _ _ _ _ index host.disk

/-- What a search has found is the candidate before the counter it stopped at. -/
theorem searched_named {index : Nat} {found : Search} {next : Candidate}
    (hs : w.searched index host = found) (h : found.outcome = .ok next) :
    ∃ k, index ≤ k ∧ found.nextIndex = k + 1 ∧
      next.path = String.ofList (Template.candidate (resolved w.template host) k) := by
  obtain ⟨k, hle, hnext, hpath, -⟩ := search_named hs h
  exact ⟨k, hle, hnext, hpath⟩

/-- A sink has gone over to a file that a search has found, and every file holds what it was
promised to hold. -/
structure Resettled (w : Rotating) (host : Host) (found : Search) (next : Candidate)
    (w' : Rotating) (host' : Host) : Prop where
  settings : w.SameSettings w'
  nextIndex : w'.nextIndex = found.nextIndex
  file : w'.file = .ofDevice next.device
  current : w'.current = next.path
  clock : host.SameClock host'
  sound : host'.disk.IsSound
  knows : host'.disk.Knows w'.file.device
  contents : ∀ id, host'.disk.contents (.file id) = w.file.promised host.disk id

/-- Moving on, whatever is reported on the way. -/
theorem rotate_resettles (w : Rotating) (host : Host) (hsound : host.disk.IsSound)
    (hknows : host.disk.Knows w.file.device) {found : Search} {next : Candidate}
    (hs : w.searched w.nextIndex host = found) (hnext : found.outcome = .ok next) :
    ∃ w' host', w.rotate host = (.ok (), w', host') ∧
      Resettled w host found next w' host' := by
  obtain ⟨e, he, -⟩ | ⟨next', hnext', hr⟩ := w.rotate_cases host hs
  · rw [hnext] at he
    cases he
  obtain rfl := Except.ok.inj (hnext.symm.trans hnext')
  have hgrows : host.disk.Grows found.disk := hs ▸ w.searched_grows w.nextIndex host
  have hnew : found.disk.Knows next.device :=
    (search_ok hs hnext).offers.leadsTo.knows (hgrows.sound hsound)
  have hdisk : host.SameClock { host with disk := found.disk } := ⟨rfl, rfl⟩
  have hretired := retire_keeps { w with nextIndex := found.nextIndex }
    { host with disk := found.disk }
  have hhooks := runHooks_keeps w.hooks next.path (retire { w with nextIndex := found.nextIndex }
    { host with disk := found.disk })
  refine ⟨_, _, hr, ⟨rfl, rfl, rfl, rfl⟩, rfl, rfl, rfl,
    (hdisk.trans (retire_clock _ _)).trans (runHooks_clock _ _ _),
    hhooks.sound (hretired.sound (hgrows.sound hsound)), hhooks.knows (hretired.knows hnew),
    fun id => ?_⟩
  refine (hhooks.contents _).trans ((retire_contents (hgrows.knows hknows) id).trans ?_)
  rw [Buffered.promised, Buffered.promised, hgrows.contents]

/-- Looking at the hour while the name is still the right one. -/
theorem rotateByHour_quiet (w : Rotating) (host : Host) (h : w.isOutdated host = false) :
    ∃ nextHour works, w.rotateByHour host =
      (.ok (), { w with nextHour := nextHour }, host.relyOnClock works) := by
  have hstays : host = host.relyOnClock true := by simp [Host.relyOnClock]
  obtain hq | ⟨works, nextHour, hq | ⟨hother, -⟩⟩ := w.rotateByHour_cases host
  · exact ⟨w.nextHour, true, hq.trans (by rw [← hstays])⟩
  · exact ⟨nextHour, works, hq⟩
  · have hearly : ¬ w.nextHour.atOrBefore host.now = true := by
      intro hdue
      simp [isOutdated, hdue, hother] at h
    refine ⟨w.nextHour, true, ?_⟩
    rw [rotateByHour, if_neg hearly, ← hstays]

/-- The sink that searches for the first file of an hour. -/
def atNewHour (w : Rotating) (host : Host) : Rotating :=
  { w with nextHour := host.zone.nextHour host.now, nextIndex := 0 }

/-- Looking at the hour when the name has changed. -/
theorem rotateByHour_outdated (w : Rotating) (host : Host) (h : w.isOutdated host = true) :
    ∃ works, w.rotateByHour host = (w.atNewHour host).rotate (host.relyOnClock works) := by
  obtain ⟨hdue, hother⟩ : w.nextHour.atOrBefore host.now = true ∧ w.expected host ≠ w.current := by
    simpa [isOutdated] using h
  refine ⟨host.zone.hasNextHour host.now, ?_⟩
  rw [rotateByHour, if_pos hdue]
  exact if_neg hother

/-- A write with which the current file would be full moves on, and looks at the hour then. -/
theorem write_of_full {bytes : Bytes} (h : w.isFull bytes.length = true) :
    w.write bytes host =
      match w.rotate host.readClock.2 with
      | (.error e, w, host) => (.error (.wrapped e), w, host)
      | (.ok (), w, host) =>
        match w.rotateByHour host with
        | (.error e, w, host) => (.error (.wrapped e), w, host)
        | (.ok (), w, host) => w.append bytes host := by
  have hsize : w.rotateBySize bytes.length host.readClock.2 = w.rotate host.readClock.2 := if_pos h
  rw [← hsize]
  rfl

/-- A write for which the current file has room looks at the hour only. -/
theorem write_of_room {bytes : Bytes} (h : w.isFull bytes.length = false) :
    w.write bytes host =
      match w.rotateByHour host.readClock.2 with
      | (.error e, w, host) => (.error (.wrapped e), w, host)
      | (.ok (), w, host) => w.append bytes host := by
  have hsize : w.rotateBySize bytes.length host.readClock.2 = (.ok (), w, host.readClock.2) :=
    if_neg (by simp [h])
  simp only [write]
  split
  next hr => cases hsize.symm.trans hr
  next hr =>
    cases hsize.symm.trans hr
    rfl

/-- A write for which no other file is due appends to the current one. -/
theorem write_stays {bytes : Bytes} (h : w.due? bytes.length host = none) :
    ∃ nextHour works, w.write bytes host =
      append { w with nextHour := nextHour } bytes (host.relyOnClock works) := by
  obtain ⟨hroom, hdate⟩ := due?_none h
  obtain ⟨nextHour, works, hq⟩ := w.rotateByHour_quiet host.readClock.2 hdate
  refine ⟨nextHour, host.now.onClock && works, ?_⟩
  rw [write_of_room hroom, hq, ← Host.relyOnClock_twice]
  rfl

theorem rotate_fails (w : Rotating) (host : Host) {found : Search} {e : LogError}
    (hs : w.searched w.nextIndex host = found)
    (he : found.outcome = .error e) :
    w.rotate host =
      (.error e, { w with nextIndex := found.nextIndex }, { host with disk := found.disk }) := by
  obtain ⟨e', he', hr⟩ | ⟨next, hnext, -⟩ := w.rotate_cases host hs
  · rw [hr, Except.error.inj (he'.symm.trans he)]
  · rw [he] at hnext
    cases hnext

/-- A write that finds no other file fails. It has moved the counter to where the search stopped;
and the moment from which the name is looked at again, unless the current file was full. -/
theorem write_fails {bytes : Bytes} {first : Nat} {found : Search} {e : LogError}
    (h : w.due? bytes.length host = some first) (hs : w.searched first host = found)
    (he : found.outcome = .error e) :
    ∃ works, w.write bytes host = (.error (.wrapped e),
      { w with
        nextIndex := found.nextIndex
        nextHour := if w.isFull bytes.length then w.nextHour else host.zone.nextHour host.now },
      { host.relyOnClock works with disk := found.disk }) := by
  obtain ⟨hfull, rfl⟩ | ⟨hroom, hdate, rfl⟩ := due?_cases h
  · have hr := rotate_fails w host.readClock.2 hs he
    refine ⟨host.now.onClock, ?_⟩
    rw [write_of_full hfull, hr, if_pos hfull]
    rfl
  · obtain ⟨works, hq⟩ := w.rotateByHour_outdated host.readClock.2 hdate
    have hr := rotate_fails (w.atNewHour host.readClock.2) (host.readClock.2.relyOnClock works)
      hs he
    refine ⟨host.now.onClock && works, ?_⟩
    rw [write_of_room hroom, hq, hr, if_neg (by simp [hroom]), ← Host.relyOnClock_twice]
    rfl

theorem Resettled.hourLater {found : Search} {next : Candidate}
    (h : Resettled w host found next w' host') (nextHour : Time.Moment) (works : Bool) :
    Resettled w host found next { w' with nextHour := nextHour } (host'.relyOnClock works) :=
  ⟨⟨h.settings.template, h.settings.limit, h.settings.indexed, h.settings.hooks⟩, h.nextIndex,
    h.file, h.current, ⟨h.clock.zone, h.clock.now⟩, h.sound, h.knows, h.contents⟩

/-- A write that finds another file goes over to it and appends. -/
theorem write_moves {bytes : Bytes} {first : Nat} {found : Search} {next : Candidate}
    (hsound : host.disk.IsSound) (hknows : host.disk.Knows w.file.device)
    (h : w.due? bytes.length host = some first) (hs : w.searched first host = found)
    (hnext : found.outcome = .ok next) :
    ∃ w₁ host₁, Resettled w host found next w₁ host₁ ∧
      w.write bytes host = w₁.append bytes host₁ := by
  obtain ⟨hfull, rfl⟩ | ⟨hroom, hdate, rfl⟩ := due?_cases h
  · obtain ⟨w₁, host₁, hr, hgone⟩ := rotate_resettles w host.readClock.2 hsound hknows
      hs hnext
    -- the file that was found has the name of the hour
    obtain ⟨nextHour, works, hq⟩ := w₁.rotateByHour_quiet host₁ (rotate_not_outdated hr)
    have hlater := hgone.hourLater nextHour works
    refine ⟨_, _, ⟨hlater.settings, hlater.nextIndex, hlater.file, hlater.current,
      ⟨hlater.clock.zone, hlater.clock.now⟩, hlater.sound, hlater.knows, hlater.contents⟩, ?_⟩
    rw [write_of_full hfull, hr]
    dsimp only
    rw [hq]
  · obtain ⟨works, hq⟩ := w.rotateByHour_outdated host.readClock.2 hdate
    obtain ⟨w₁, host₁, hr, hgone⟩ := rotate_resettles (w.atNewHour host.readClock.2)
      (host.readClock.2.relyOnClock works) hsound hknows hs hnext
    refine ⟨w₁, host₁, ⟨⟨hgone.settings.template, hgone.settings.limit, hgone.settings.indexed,
      hgone.settings.hooks⟩, hgone.nextIndex, hgone.file, hgone.current,
      ⟨hgone.clock.zone, hgone.clock.now⟩, hgone.sound, hgone.knows, hgone.contents⟩, ?_⟩
    rw [write_of_room hroom, hq, hr]

/-! ## 3. Reachable states -/

/-- What appending leaves as it is, whether the device refuses or not. -/
structure Stays (w : Rotating) (host : Host) (w' : Rotating) (host' : Host) : Prop where
  settings : w.SameSettings w'
  current : w'.current = w.current
  device : w'.file.device = w.file.device
  nextIndex : w'.nextIndex = w.nextIndex
  clock : host.SameClock host'
  keeps : host.disk.Keeps host'.disk

theorem append_stays (w : Rotating) (bytes : Bytes) (host : Host) :
    Stays w host (w.append bytes host).2.1 (w.append bytes host).2.2 := by
  have hkeeps := w.file.write_keeps bytes host.disk
  have hdevice := w.file.write_device bytes host.disk
  unfold append
  split
  · next hw =>
    rw [hw] at hkeeps hdevice
    exact ⟨⟨rfl, rfl, rfl, rfl⟩, rfl, hdevice, rfl, ⟨rfl, rfl⟩, hkeeps⟩
  · next disk hw =>
    rw [hw] at hkeeps hdevice
    refine ⟨⟨rfl, rfl, rfl, rfl⟩, rfl, hdevice, rfl, ?_, ?_⟩
    · unfold Host.tee
      split <;> exact ⟨rfl, rfl⟩
    · rw [Host.tee_disk]
      exact hkeeps

/-- The first file of an hour is due and cannot be found. -/
def FailsAtHour (w : Rotating) (host : Host) : Op → Prop
  | .write bytes => w.isFull bytes.length = false ∧ w.isOutdated host = true ∧
      ∃ e, (w.searched 0 host).outcome = .error e
  | _ => False

/-- An operation has left a sink at its file, with a counter that goes back only if the first file
of an hour could not be found; or at a candidate for the present time, with the counter after it. -/
structure Performed (w : Rotating) (host : Host) (op : Op) (w' : Rotating) (host' : Host) :
    Prop where
  settings : w.SameSettings w'
  sound : host'.disk.IsSound
  knows : host'.disk.Knows w'.file.device
  clock : (∀ now, op ≠ .clock now) → host.SameClock host'
  file : w'.current = w.current ∧ (w.nextIndex ≤ w'.nextIndex ∨ w.FailsAtHour host op) ∨
    ∃ k, w'.nextIndex = k + 1 ∧
      w'.current = String.ofList (Template.candidate (resolved w.template host) k)

theorem SameSettings.trans {w₁ : Rotating} (h : w.SameSettings w₁) (h' : w₁.SameSettings w') :
    w.SameSettings w' :=
  ⟨h'.template.trans h.template, h'.limit.trans h.limit, h'.indexed.trans h.indexed,
    h'.hooks.trans h.hooks⟩

theorem write_performed (w : Rotating) (bytes : Bytes) (hsound : host.disk.IsSound)
    (hknows : host.disk.Knows w.file.device) :
    Performed w host (.write bytes) (w.write bytes host).2.1 (w.write bytes host).2.2 := by
  rcases hdue : w.due? bytes.length host with _ | first
  · obtain ⟨nextHour, works, hw⟩ := write_stays hdue
    have hstays := append_stays { w with nextHour := nextHour } bytes (host.relyOnClock works)
    rw [← hw] at hstays
    have hdevice : (w.write bytes host).2.1.file.device = w.file.device := hstays.device
    exact ⟨⟨hstays.settings.template, hstays.settings.limit, hstays.settings.indexed,
      hstays.settings.hooks⟩, hstays.keeps.sound hsound, hdevice ▸ hstays.keeps.knows hknows,
      fun _ => ⟨hstays.clock.zone, hstays.clock.now⟩,
      .inl ⟨hstays.current, .inl (Nat.le_of_eq hstays.nextIndex.symm)⟩⟩
  have hgrows := w.searched_grows first host
  have hle := w.searched_le first host
  generalize hs : w.searched first host = found at hgrows hle
  rcases hout : found.outcome with e | next
  · obtain ⟨works, hw⟩ := write_fails hdue hs hout
    rw [hw]
    refine ⟨⟨rfl, rfl, rfl, rfl⟩, hgrows.sound hsound, hgrows.knows hknows, fun _ => ⟨rfl, rfl⟩,
      .inl ⟨rfl, ?_⟩⟩
    obtain ⟨-, rfl⟩ | ⟨hroom, hdate, rfl⟩ := due?_cases hdue
    · exact .inl hle
    · exact .inr ⟨hroom, hdate, e, hs ▸ hout⟩
  · obtain ⟨w₁, host₁, hgone, hw⟩ := write_moves hsound hknows hdue hs hout
    have hstays := append_stays w₁ bytes host₁
    rw [← hw] at hstays
    obtain ⟨k, -, hindex, hpath⟩ := searched_named hs hout
    exact ⟨hgone.settings.trans hstays.settings, hstays.keeps.sound hgone.sound,
      hstays.device ▸ hstays.keeps.knows hgone.knows, fun _ => hgone.clock.trans hstays.clock,
      .inr ⟨k, hstays.nextIndex.trans (hgone.nextIndex.trans hindex),
        hstays.current.trans (hgone.current.trans hpath)⟩⟩

/-- What one operation does to a sink. -/
theorem perform_performed (op : Op) (hsound : host.disk.IsSound)
    (hknows : host.disk.Knows w.file.device) :
    Performed w host op (perform (w, host) op).1 (perform (w, host) op).2 := by
  have hover {file : Buffered} {disk : Disk} (hkeeps : host.disk.Keeps disk)
      (hdevice : file.device = w.file.device) :
      Performed w host op { w with file := file } { host with disk := disk } :=
    ⟨⟨rfl, rfl, rfl, rfl⟩, hkeeps.sound hsound, hdevice ▸ hkeeps.knows hknows, fun _ => ⟨rfl, rfl⟩,
      .inl ⟨rfl, .inl (Nat.le_refl _)⟩⟩
  cases op with
  | clock now =>
    exact ⟨⟨rfl, rfl, rfl, rfl⟩, hsound, hknows, fun hne => absurd rfl (hne now),
      .inl ⟨rfl, .inl (Nat.le_refl _)⟩⟩
  | write bytes => exact w.write_performed bytes hsound hknows
  | flush => exact hover (w.file.flush_keeps host.disk) (w.file.flush_device host.disk)
  | sync => exact hover (w.file.sync_keeps host.disk) (w.file.sync_device host.disk)

/-- The states of a sink that was opened with a template and a limit and used in the years from 0 to
9999. Any of its writes may have failed. -/
inductive Reached (template : String) (maxSize : Nat) : Rotating → Host → Prop
  | opened {tee : Bool} {hooks : List Hook} {w : Rotating} {host host' : Host} :
      host.disk.IsSound → Template.HasPlainYear host.localNow →
      Rotating.open template tee maxSize hooks host = (.ok w, host') →
      Reached template maxSize w host'
  | performed {w : Rotating} {host : Host} (op : Op) :
      Reached template maxSize w host →
      (∀ bytes, op = .write bytes → Template.HasPlainYear host.localNow) →
      Reached template maxSize (perform (w, host) op).1 (perform (w, host) op).2
  /-- Others change names and contents and set the clock, but no open file goes away. -/
  | elsewhere {w : Rotating} {host host' : Host} :
      Reached template maxSize w host → host'.disk.IsSound →
      host.disk.files.length ≤ host'.disk.files.length →
      Reached template maxSize w host'

/-- What holds in all of these states. -/
structure InOrder (template : String) (maxSize : Nat) (w : Rotating) (host : Host) : Prop where
  template_eq : w.template = template
  limit_eq : w.limit = limitFor template maxSize
  indexed_eq : w.indexed = Template.hasIndex template.toList
  named : IsCandidate template w.current
  sound : host.disk.IsSound
  knows : host.disk.Knows w.file.device

variable {template : String} {maxSize : Nat}

theorem Reached.inOrder (h : Reached template maxSize w host) :
    InOrder template maxSize w host := by
  induction h with
  | opened hsound hyear hopen =>
    obtain ⟨hadopts, -, htemplate, hlimit, hindexed, -, -⟩ := open_adopts hopen
    obtain ⟨k, -, -, hcurrent⟩ := hadopts.named
    have hready := (open_holds hsound hopen).ready
    exact ⟨htemplate, hlimit, hindexed, ⟨_, k, hyear, hcurrent⟩, hready.sound, hready.knows⟩
  | @performed w host op _ hyear ih =>
    have hstep := perform_performed op ih.sound ih.knows
    refine ⟨hstep.settings.template.trans ih.template_eq, hstep.settings.limit.trans ih.limit_eq,
      hstep.settings.indexed.trans ih.indexed_eq, ?_, hstep.sound, hstep.knows⟩
    obtain ⟨hsame, -⟩ | ⟨k, -, hcurrent⟩ := hstep.file
    · exact hsame ▸ ih.named
    · -- only a write adopts a file
      cases op with
      | write bytes =>
        refine ⟨_, k, hyear bytes rfl, hcurrent.trans ?_⟩
        rw [resolved, ih.template_eq]
      | clock now => exact ih.named
      | flush => exact ih.named
      | sync => exact ih.named
  | elsewhere _ hsound hfiles ih =>
    exact ⟨ih.template_eq, ih.limit_eq, ih.indexed_eq, ih.named, hsound,
      fun id hid => Nat.lt_of_lt_of_le (ih.knows id hid) hfiles⟩

/-- The years of one operation and of those after it. -/
theorem Reached.years (h : Reached template maxSize w host) {op : Op} {ops : List Op}
    (hyears : ∀ write ∈ Op.timed host.now (op :: ops),
      Template.HasPlainYear (host.zone.stamp write.1)) :
    (∀ bytes, op = .write bytes → Template.HasPlainYear host.localNow) ∧
      ∀ write ∈ Op.timed (perform (w, host) op).2.now ops,
        Template.HasPlainYear ((perform (w, host) op).2.zone.stamp write.1) := by
  cases op with
  | clock now => exact ⟨(fun _ hop => by cases hop), hyears⟩
  | flush => exact ⟨(fun _ hop => by cases hop), hyears⟩
  | sync => exact ⟨(fun _ hop => by cases hop), hyears⟩
  | write bytes =>
    have hstep := w.write_performed bytes h.inOrder.sound h.inOrder.knows
    have hclock : host.SameClock (w.write bytes host).2.2 := hstep.clock (by simp)
    refine ⟨fun _ _ => hyears (host.now, bytes) List.mem_cons_self, ?_⟩
    show ∀ write ∈ Op.timed (w.write bytes host).2.2.now ops,
      Template.HasPlainYear ((w.write bytes host).2.2.zone.stamp write.1)
    rw [hclock.now, hclock.zone]
    exact fun write hmem => hyears write (List.mem_cons_of_mem _ hmem)

/-- Any number of operations. -/
theorem Reached.run (h : Reached template maxSize w host) (ops : List Op)
    (hyears : ∀ write ∈ Op.timed host.now ops, Template.HasPlainYear (host.zone.stamp write.1)) :
    Reached template maxSize (ops.foldl perform (w, host)).1
      (ops.foldl perform (w, host)).2 := by
  induction ops generalizing w host with
  | nil => exact h
  | cons op ops ih =>
    obtain ⟨hyear, hlater⟩ := h.years hyears
    exact ih (h.performed op hyear) hlater

/-- Opens a sink and does one thing after the other, whether it succeeds or not. -/
def used? (template : String) (tee : Bool) (maxSize : Nat) (hooks : List Hook) (ops : List Op)
    (host : Host) : Option (Rotating × Host) :=
  match Rotating.open template tee maxSize hooks host with
  | (.error _, _) => none
  | (.ok w, host) => some (ops.foldl perform (w, host))

theorem Reached.used {tee : Bool} {hooks : List Hook} {ops : List Op} {start : Host}
    (hsound : start.disk.IsSound) (hyear : Template.HasPlainYear start.localNow)
    (hyears : ∀ write ∈ Op.timed start.now ops,
      Template.HasPlainYear (start.zone.stamp write.1))
    (h : used? template tee maxSize hooks ops start = some (w, host)) :
    Reached template maxSize w host := by
  unfold used? at h
  split at h
  · cases h
  next w₁ host₁ hopen =>
  have hclock := (open_adopts hopen).2.1
  rw [← hclock.now, ← hclock.zone] at hyears
  have hrun := (Reached.opened hsound hyear hopen).run ops hyears
  rw [Option.some.inj h] at hrun
  exact hrun

/-! ## 4. Bytes that arrive -/

/-- A sink at a file on a device with space takes bytes. -/
theorem append_succeeds (bytes : Bytes) (h : w.file.device ≠ .full) :
    ∃ w' host', w.append bytes host = (.ok (), w', host') := by
  have hok := w.file.write_succeeds bytes host.disk h
  rcases hw : w.file.write bytes host.disk with ⟨result, file, disk⟩
  rw [hw] at hok
  dsimp only at hok
  subst hok
  unfold append
  rw [hw]
  exact ⟨_, _, rfl⟩

/-- A write that finds a file on a device with space succeeds. -/
theorem write_succeeds {bytes : Bytes} {file : Logbook.Holding} (hsound : host.disk.IsSound)
    (hknows : host.disk.Knows w.file.device) (h : w.adopted? bytes.length host = some file)
    (hd : file.device ≠ .full) : ∃ w' host', w.write bytes host = (.ok (), w', host') := by
  obtain ⟨first, hdue, hfound⟩ := Option.bind_eq_some_iff.mp h
  generalize hs : w.searched first host = found
  have hfile : found.outcome.toOption.map Candidate.holding = some file := hs ▸ hfound
  rcases hout : found.outcome with e | next
  · rw [hout] at hfile
    cases hfile
  · rw [hout] at hfile
    obtain rfl := Option.some.inj hfile
    obtain ⟨w₁, host₁, hgone, hw⟩ := write_moves hsound hknows hdue hs hout
    rw [hw]
    exact append_succeeds bytes (by rw [hgone.file]; exact hd)

/-- A buffer that has been written is promised to the end of the file that is current then, and the
current file is the one that the write found, if another one was due. -/
theorem write_arrives {bytes : Bytes} (hsound : host.disk.IsSound)
    (hknows : host.disk.Knows w.file.device) (h : w.write bytes host = (.ok (), w', host')) :
    (∀ id, w'.file.promised host'.disk id =
        w.file.promised host.disk id ++ Disk.share w'.file.device bytes id) ∧
      ∀ first, w.due? bytes.length host = some first →
        ∃ next, (w.searched first host).outcome = .ok next ∧ w'.holding = next.holding := by
  rcases hdue : w.due? bytes.length host with _ | first
  · obtain ⟨nextHour, works, hw⟩ := write_stays hdue
    obtain ⟨file, hwrite, rfl, -⟩ := append_cases (hw.symm.trans h)
    obtain ⟨-, hdevice, hpromised⟩ := Buffered.write_ok hknows hwrite
    refine ⟨fun id => ?_, fun first hfirst => by cases hfirst⟩
    show file.promised host'.disk id = _ ++ Disk.share file.device bytes id
    rw [hpromised, hdevice]
  · generalize hs : w.searched first host = found
    rcases hout : found.outcome with e | next
    · obtain ⟨works, hw⟩ := write_fails hdue hs hout
      rw [hw] at h
      cases h
    · obtain ⟨w₁, host₁, hgone, hw⟩ := write_moves hsound hknows hdue hs hout
      obtain ⟨file, hwrite, rfl, -⟩ := append_cases (hw.symm.trans h)
      obtain ⟨-, hdevice, hpromised⟩ := Buffered.write_ok hgone.knows hwrite
      refine ⟨fun id => ?_, fun first' hfirst => ⟨next, ?_, ?_⟩⟩
      · show file.promised host'.disk id = _ ++ Disk.share file.device bytes id
        rw [hpromised, hdevice, hgone.file, Buffered.promised_ofDevice, hgone.contents]
      · rw [← Option.some.inj hfirst, hs, hout]
      · show Logbook.Holding.mk w₁.current file.device = _
        rw [hgone.current, hdevice, hgone.file]
        rfl

end Rotating

end Logbook
