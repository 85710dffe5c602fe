import Logbook.Proofs.Disk.Buffered
import Logbook.Proofs.Rotating.Searching

/-!
# Moving on to another file

Moving on opens the next file first and gives up the current one afterwards. Neither changes what
any file is going to hold, whichever file is adopted: a new one, an old one, or the one that was
current before.

Results:
1. `runHooks_keeps`: hooks change names only.
2. `retire_ok`: giving up a file makes its contents what they were promised to be.
3. `rotate_ok`, `rotateBySize_ok`, `rotateByHour_ok`: moving on keeps every promise.
-/

namespace Logbook

/-! ## 1. Hooks -/

/-- A host on which names may have changed, and failures may have been reported, but nothing has
been written. -/
structure Host.Keeps (host host' : Host) : Prop where
  files : host'.disk.files = host.disk.files
  sound : host.disk.IsSound → host'.disk.IsSound
  console : host'.console = host.console
  reports : host.reports.length ≤ host'.reports.length

theorem Host.Keeps.refl (host : Host) : host.Keeps host := ⟨rfl, id, rfl, Nat.le_refl _⟩

theorem Host.Keeps.trans {a b c : Host} (h : a.Keeps b) (h' : b.Keeps c) : a.Keeps c :=
  ⟨h'.files.trans h.files, fun hs => h'.sound (h.sound hs), h'.console.trans h.console,
    Nat.le_trans h.reports h'.reports⟩

theorem Host.Keeps.contents {host host' : Host} (h : host.Keeps host') (d : Device) :
    host'.disk.contents d = host.disk.contents d := by
  cases d with
  | null => rfl
  | full => rfl
  | file id =>
    show host'.disk.files.getD id [] = host.disk.files.getD id []
    rw [h.files]

theorem Host.Keeps.knows {host host' : Host} (h : host.Keeps host') {d : Device}
    (hd : host.disk.Knows d) : host'.disk.Knows d := by
  intro id hid
  rw [h.files]
  exact hd id hid

namespace Disk

theorem removeFile_keeps {disk disk' : Disk} {path : String}
    (h : disk.removeFile path = .ok disk') :
    disk'.files = disk.files ∧ (disk.IsSound → disk'.IsSound) := by
  simp only [removeFile, bind, Except.bind] at h
  split at h
  · cases h
  split at h
  · cases h
  split at h
  · cases h
  · cases h
  · split at h
    · cases h
    · cases h
      exact ⟨rfl, fun hs place id hmem => hs place id (List.mem_filter.mp hmem).1⟩

theorem makeLink_keeps {disk disk' : Disk} {target : Target} {text path : String}
    (h : disk.makeLink target text path = .ok disk') :
    disk'.files = disk.files ∧ (disk.IsSound → disk'.IsSound) := by
  simp only [makeLink, bind, Except.bind] at h
  split at h
  · cases h
  split at h
  · cases h
  split at h
  · cases h
  split at h
  · cases h
  split at h
  · split at h
    · cases h
    · cases h
      exact ⟨rfl, fun hs => hs.add _ (by simp)⟩
  · cases h

end Disk

theorem moveLink_keeps (path target : String) (host : Host) :
    host.Keeps (moveLink path target host) := by
  have hmake {disk disk' : Disk} {link : Target} {text : String}
      (hfiles : disk.files = host.disk.files) (hsound : host.disk.IsSound → disk.IsSound)
      (h : disk.makeLink link text path = .ok disk') : host.Keeps { host with disk := disk' } := by
    obtain ⟨hfiles', hsound'⟩ := Disk.makeLink_keeps h
    exact ⟨hfiles'.trans hfiles, fun hs => hsound' (hsound hs), rfl, Nat.le_refl _⟩
  cases hr : host.disk.removeFile path with
  | error e =>
    simp only [moveLink, hr]
    split
    · next h => exact hmake rfl id h
    · exact ⟨rfl, id, rfl, by simp [Host.report]⟩
  | ok disk =>
    obtain ⟨hfiles, hsound⟩ := Disk.removeFile_keeps hr
    simp only [moveLink, hr]
    split
    · next h => exact hmake hfiles hsound h
    · exact ⟨hfiles, hsound, rfl, by simp [Host.report]⟩

/-- Hooks may move names, and nothing else. -/
theorem runHooks_keeps (hooks : List Hook) (path : String) (host : Host) :
    host.Keeps (runHooks hooks path host) := by
  induction hooks generalizing host with
  | nil => exact .refl _
  | cons hook rest ih =>
    have hone : host.Keeps (hook.run path host) := by
      cases hook with
      | watch => exact ⟨rfl, id, rfl, Nat.le_refl _⟩
      | link name => exact moveLink_keeps name path host
    exact hone.trans (ih _)

/-- A watcher does not touch the disk. -/
theorem runHooks_watch {hooks : List Hook} (h : ∀ hook ∈ hooks, hook = .watch) (path : String)
    (host : Host) : (runHooks hooks path host).disk = host.disk := by
  induction hooks generalizing host with
  | nil => rfl
  | cons hook rest ih =>
    obtain rfl := h hook List.mem_cons_self
    exact ih (fun hook hmem => h hook (List.mem_cons_of_mem _ hmem)) _

/-! ## 2. Giving up a file -/

namespace Rotating

theorem retire_keeps (w : Rotating) (host : Host) : host.disk.Keeps (w.retire host).disk := by
  have hsync := w.file.sync_keeps host.disk
  unfold retire
  split
  next result file disk hs =>
  rw [hs] at hsync
  cases result <;> exact hsync.trans (file.flush_keeps disk)

/-- A file that is given up without a report holds what it was promised to hold. -/
theorem retire_ok {w : Rotating} {host : Host} (hk : host.disk.Knows w.file.device)
    (h : (w.retire host).reports.length = host.reports.length) :
    host.disk.Keeps (w.retire host).disk ∧ (w.retire host).console = host.console ∧
      ¬ w.file.Stuck ∧
      ∀ id, (w.retire host).disk.contents (.file id) = w.file.promised host.disk id := by
  rw [retire] at h ⊢
  cases hs : w.file.sync host.disk with
  | mk result rest =>
    obtain ⟨file, disk⟩ := rest
    cases result with
    | error e =>
      rw [hs] at h
      simp [Host.report] at h
    | ok _ =>
      have hf := Buffered.sync_ok hs
      obtain ⟨hkeeps, hdevice, hpending, hcontents⟩ := Buffered.flush_ok hk hf
      -- the file is closed after it was synced, when there is nothing left to hand over
      have hk' : disk.Knows file.device := hdevice ▸ hkeeps.knows hk
      have hagain : (file.flush disk).1 = .ok () := by
        rw [Buffered.flush, hpending]
        cases file.device <;> rfl
      obtain ⟨hkeeps', hcontents'⟩ := Buffered.close_ok hk' hagain
      refine ⟨hkeeps.trans hkeeps', rfl, fun hstuck => hstuck.flush_ne hf, fun id => ?_⟩
      exact (hcontents' id).trans (Buffered.flush_promised hk hf id)

theorem retire_reports (w : Rotating) (host : Host) :
    host.reports.length ≤ (w.retire host).reports.length := by
  rw [retire]
  cases hs : w.file.sync host.disk with
  | mk result rest =>
    cases result with
    | error e => simp [Host.report]
    | ok _ => exact Nat.le_refl _

/-! ## 3. Moving on -/

/-- The sink is in order: the disk is, and the current file is on it. Unless hooks move names about,
its path leads to it. -/
structure Ready (w : Rotating) (host : Host) : Prop where
  sound : host.disk.IsSound
  knows : host.disk.Knows w.file.device
  leadsTo : (∀ hook ∈ w.hooks, hook = .watch) → host.disk.LeadsTo w.current w.file.device

/-- A sink has moved on to another file, or it has not: no promise has changed. -/
structure Moved (w : Rotating) (host : Host) (w' : Rotating) (host' : Host) : Prop where
  ready : w'.Ready host'
  promised : ∀ id, w'.file.promised host'.disk id = w.file.promised host.disk id
  console : host'.console = host.console
  tee : w'.tee = w.tee
  hooks : w'.hooks = w.hooks
  nodes : (∀ hook ∈ w.hooks, hook = .watch) → host.disk.nodes <+: host'.disk.nodes
  stuck : w.file.Stuck → w'.file.Stuck

theorem Moved.refl {w : Rotating} {host : Host} (h : w.Ready host) : Moved w host w host :=
  ⟨h, fun _ => rfl, rfl, rfl, rfl, fun _ => List.prefix_rfl, id⟩

theorem Moved.trans {w w' w'' : Rotating} {host host' host'' : Host} (h : Moved w host w' host')
    (h' : Moved w' host' w'' host'') : Moved w host w'' host'' where
  ready := h'.ready
  promised id := (h'.promised id).trans (h.promised id)
  console := h'.console.trans h.console
  tee := h'.tee.trans h.tee
  hooks := h'.hooks.trans h.hooks
  nodes hw := (h.nodes hw).trans (h'.nodes (by rwa [h.hooks]))
  stuck hs := h'.stuck (h.stuck hs)

theorem adopt_reports (w : Rotating) (next : Candidate) (host : Host) :
    host.reports.length ≤ (w.retire host).reports.length ∧
      (w.retire host).reports.length ≤ (w.adopt next host).2.reports.length :=
  ⟨w.retire_reports host, (runHooks_keeps w.hooks next.path (w.retire host)).reports⟩

/-- A file that is open is adopted without a report: the last one is given up with its promise
kept. -/
theorem adopt_ok (w : Rotating) (host : Host) {next : Candidate} (hs : host.disk.IsSound)
    (hk : host.disk.Knows w.file.device) (hnext : next.IsOpen host.disk)
    (h : (w.adopt next host).2.reports.length = host.reports.length) :
    Moved w host (w.adopt next host).1 (w.adopt next host).2 := by
  -- a report of giving up the last file would still be there after the hooks
  obtain ⟨hle, hle'⟩ := w.adopt_reports next host
  obtain ⟨hkeeps, hconsole, hstuck, hcontents⟩ := retire_ok hk (by omega)
  have hhooks := runHooks_keeps w.hooks next.path (w.retire host)
  have hknown := (hnext.offers.leadsTo.knows hs)
  refine ⟨⟨hhooks.sound (hkeeps.sound hs), hhooks.knows (hkeeps.knows hknown), ?_⟩, ?_,
    hhooks.console.trans hconsole, rfl, rfl, ?_, fun hs => absurd hs hstuck⟩
  · intro hwatch
    show (runHooks w.hooks next.path (w.retire host)).disk.LeadsTo next.path next.device
    rw [runHooks_watch (show ∀ hook ∈ w.hooks, hook = .watch from hwatch)]
    exact hnext.offers.leadsTo.mono (hkeeps.nodes ▸ List.prefix_rfl)
  · intro id
    show (Buffered.ofDevice next.device).promised
      (runHooks w.hooks next.path (w.retire host)).disk id = _
    rw [Buffered.promised_ofDevice, hhooks.contents, hcontents]
  · intro hwatch
    have hnodes : (runHooks w.hooks next.path (w.retire host)).disk.nodes = host.disk.nodes := by
      rw [runHooks_watch hwatch, hkeeps.nodes]
    exact hnodes ▸ List.prefix_rfl

/-- What moving on comes to. -/
theorem rotate_cases (w : Rotating) (host : Host) {found : Search}
    (h : search (resolved w.template host) w.indexed w.limit w.nextIndex host.disk = found) :
    (∃ e, found.outcome = .error e ∧ w.rotate host =
      (.error e, { w with nextIndex := found.nextIndex }, { host with disk := found.disk })) ∨
    ∃ next, found.outcome = .ok next ∧ w.rotate host =
      (.ok (), adopt { w with nextIndex := found.nextIndex } next
        { host with disk := found.disk }) := by
  unfold rotate
  simp only [h]
  split
  · next e he => exact .inl ⟨e, he, rfl⟩
  · next next hnext => exact .inr ⟨next, hnext, rfl⟩

theorem rotate_reports (w : Rotating) (host : Host) :
    host.reports.length ≤ (w.rotate host).2.2.reports.length := by
  generalize hs : search (resolved w.template host) w.indexed w.limit w.nextIndex host.disk = found
  obtain ⟨e, -, he⟩ | ⟨next, -, hr⟩ := w.rotate_cases host hs
  · exact Nat.le_of_eq (by rw [he])
  · obtain ⟨hle, hle'⟩ := adopt_reports { w with nextIndex := found.nextIndex } next
      { host with disk := found.disk }
    rw [hr]
    exact Nat.le_trans hle hle'

/-- Moving on without a failure keeps every promise. -/
theorem rotate_ok {w w' : Rotating} {host host' : Host} (hready : w.Ready host)
    (h : w.rotate host = (.ok (), w', host')) (hr : host'.reports.length = host.reports.length) :
    Moved w host w' host' := by
  have hgrows := search_grows (resolved w.template host) w.indexed w.limit w.nextIndex host.disk
  generalize hs : search (resolved w.template host) w.indexed w.limit w.nextIndex host.disk = found
    at hgrows
  obtain ⟨e, -, he⟩ | ⟨next, hnext, ho⟩ := w.rotate_cases host hs
  · rw [he] at h
    cases h
  rw [ho] at h
  have hmoved := adopt_ok { w with nextIndex := found.nextIndex } { host with disk := found.disk }
    (hgrows.sound hready.sound) (hgrows.knows hready.knows) (search_ok hs hnext)
  have ha := Prod.mk.inj h
  rw [ha.2] at hmoved
  have hall := hmoved hr
  refine ⟨hall.ready, fun id => (hall.promised id).trans ?_, hall.console, hall.tee, hall.hooks,
    fun hw => hgrows.nodes.trans (hall.nodes hw), hall.stuck⟩
  rw [Buffered.promised, Buffered.promised, hgrows.contents]

/-- The clock may have been found to fail, which changes nothing else. -/
theorem Moved.relyOnClock {w : Rotating} {host : Host} (h : w.Ready host) (works : Bool)
    (nextHour : Time.Moment) (nextIndex : Nat) :
    Moved w host { w with nextHour := nextHour, nextIndex := nextIndex }
      (host.relyOnClock works) where
  ready := ⟨h.sound, h.knows, h.leadsTo⟩
  promised _ := rfl
  console := rfl
  tee := rfl
  hooks := rfl
  nodes _ := List.prefix_rfl
  stuck := id

theorem rotateBySize_reports (w : Rotating) (bytes : Nat) (host : Host) :
    host.reports.length ≤ (w.rotateBySize bytes host).2.2.reports.length := by
  unfold rotateBySize
  split
  · exact w.rotate_reports host
  · exact Nat.le_refl _

theorem rotateBySize_ok {w w' : Rotating} {host host' : Host} {bytes : Nat}
    (hready : w.Ready host) (h : w.rotateBySize bytes host = (.ok (), w', host'))
    (hr : host'.reports.length = host.reports.length) : Moved w host w' host' := by
  unfold rotateBySize at h
  split at h
  · exact rotate_ok hready h hr
  · cases h
    exact .refl hready

/-- What looking at the hour comes to: nothing, a new hour in which the name stays, or moving on
because it does not. -/
theorem rotateByHour_cases (w : Rotating) (host : Host) :
    w.rotateByHour host = (.ok (), w, host) ∨
      ∃ works nextHour,
        w.rotateByHour host = (.ok (), { w with nextHour := nextHour }, host.relyOnClock works) ∨
          w.expected host ≠ w.current ∧ w.rotateByHour host =
            { w with nextHour := nextHour, nextIndex := 0 }.rotate (host.relyOnClock works) := by
  simp only [rotateByHour]
  split
  · refine .inr ⟨host.zone.hasNextHour host.now, host.zone.nextHour host.now, ?_⟩
    split
    · exact .inl rfl
    · next hother => exact .inr ⟨hother, rfl⟩
  · exact .inl rfl

theorem rotateByHour_reports (w : Rotating) (host : Host) :
    host.reports.length ≤ (w.rotateByHour host).2.2.reports.length := by
  obtain h | ⟨works, nextHour, h | ⟨-, h⟩⟩ := w.rotateByHour_cases host
  · exact Nat.le_of_eq (by rw [h])
  · exact Nat.le_of_eq (by rw [h]; rfl)
  · rw [h]
    exact rotate_reports _ (host.relyOnClock works)

theorem rotateByHour_ok {w w' : Rotating} {host host' : Host} (hready : w.Ready host)
    (h : w.rotateByHour host = (.ok (), w', host'))
    (hr : host'.reports.length = host.reports.length) : Moved w host w' host' := by
  obtain hc | ⟨works, nextHour, hc | ⟨-, hc⟩⟩ := w.rotateByHour_cases host
  · rw [hc] at h
    cases h
    exact .refl hready
  · rw [hc] at h
    cases h
    exact .relyOnClock hready works nextHour w.nextIndex
  · rw [hc] at h
    have hclock := Moved.relyOnClock hready works nextHour 0
    exact hclock.trans (rotate_ok hclock.ready h hr)

end Rotating

end Logbook
