import Logbook.Proofs.Rotating.Conservation

/-!
# What is adopted

Opening a sink and moving on adopt a candidate for the present time: one whose counter is not below
the one that the search started from, and whose size is what it held before the last file was given
up. Neither changes the clock, nor do writing and handing over.

Results:
1. `search_named`: what a search has found is the candidate before the counter it stopped at.
2. `open_adopts`, `rotate_found`, `rotate_adopts`: what is adopted when a sink is opened and when it
   moves on.
3. `rotateBySize_looks`, `rotateByHour_looks`: when a sink moves on, and when it does not.
4. `perform_clock`: only the clock itself sets the clock.
-/

namespace Logbook

/-- The clock shows the same time in the same zone. -/
structure Host.SameClock (host host' : Host) : Prop where
  zone : host'.zone = host.zone
  now : host'.now = host.now

namespace Host.SameClock

theorem refl (host : Host) : host.SameClock host := ⟨rfl, rfl⟩

theorem trans {a b c : Host} (h : a.SameClock b) (h' : b.SameClock c) : a.SameClock c :=
  ⟨h'.zone.trans h.zone, h'.now.trans h.now⟩

theorem localNow {host host' : Host} (h : host.SameClock host') :
    host'.localNow = host.localNow := by
  rw [Host.localNow, Host.localNow, h.zone, h.now]

end Host.SameClock

theorem moveLink_clock (path target : String) (host : Host) :
    host.SameClock (moveLink path target host) := by
  unfold moveLink
  dsimp only
  split <;> exact ⟨rfl, rfl⟩

theorem runHooks_clock (hooks : List Hook) (path : String) (host : Host) :
    host.SameClock (runHooks hooks path host) := by
  induction hooks generalizing host with
  | nil => exact .refl _
  | cons hook rest ih =>
    have hone : host.SameClock (hook.run path host) := by
      cases hook with
      | watch => exact ⟨rfl, rfl⟩
      | link name => exact moveLink_clock name path host
    exact hone.trans (ih _)

/-! ## 1. Searching -/

/-- What a search has found is the candidate before the counter it stopped at, and below the limit
if there is a counter. -/
theorem search_named {resolved : List Char} {indexed : Bool} {limit index : Nat} {disk : Disk}
    {found : Search} {next : Candidate} (hs : search resolved indexed limit index disk = found)
    (h : found.outcome = .ok next) :
    ∃ k, index ≤ k ∧ found.nextIndex = k + 1 ∧
      next.path = String.ofList (Template.candidate resolved k) ∧
      (indexed = true → next.size < limit) := by
  cases indexed with
  | true =>
    obtain ⟨k, hle, hnext, hpath, hsize, -⟩ := search_first hs h
    exact ⟨k, hle, hnext, hpath, fun _ => hsize⟩
  | false =>
    -- without a counter the first candidate is taken
    subst hs
    rw [search, searchFrom] at h ⊢
    split at h
    · cases h
    next file disk' ho =>
    rw [if_pos (by simp)] at h ⊢
    cases h
    exact ⟨index, Nat.le_refl _, rfl, (openCandidate_ok ho).1, fun hfalse => by cases hfalse⟩

namespace Rotating

/-! ## 2. Adopting -/

/-- A sink that has just adopted a candidate for a resolved template, found from the counter `first`
on. The disk is the one before the last file was given up. -/
structure Adopts (resolved : List Char) (first : Nat) (disk : Disk) (w : Rotating) : Prop where
  named : ∃ k, first ≤ k ∧ w.nextIndex = k + 1 ∧
    w.current = String.ofList (Template.candidate resolved k)
  size_eq : w.size = (disk.contents w.file.device).length
  room : w.indexed = true → w.size < w.limit

/-- What of a sink is not changed by moving on. -/
structure SameSettings (w w' : Rotating) : Prop where
  template : w'.template = w.template
  limit : w'.limit = w.limit
  indexed : w'.indexed = w.indexed
  hooks : w'.hooks = w.hooks

variable {w w' : Rotating} {host host' : Host}

theorem search_adopts {resolved : List Char} {first : Nat} {disk : Disk} {found : Search}
    {next : Candidate} (hs : search resolved w.indexed w.limit first disk = found)
    (h : found.outcome = .ok next) (hindex : w.nextIndex = found.nextIndex)
    (hfile : w.file = .ofDevice next.device) (hsize : w.size = next.size)
    (hcurrent : w.current = next.path) : Adopts resolved first disk w := by
  have hgrows := search_grows resolved w.indexed w.limit first disk
  rw [hs] at hgrows
  obtain ⟨k, hle, hnext, hpath, hroom⟩ := search_named hs h
  refine ⟨⟨k, hle, hindex.trans hnext, hcurrent.trans hpath⟩, ?_, ?_⟩
  · rw [hsize, hfile, (search_ok hs h).size_eq]
    exact congrArg List.length (hgrows.contents _)
  · intro hindexed
    exact hsize ▸ hroom hindexed

/-- A sink that is opened adopts a candidate for the present time. -/
theorem open_adopts {template : String} {tee : Bool} {maxSize : Nat} {hooks : List Hook}
    (h : Rotating.open template tee maxSize hooks host = (.ok w, host')) :
    Adopts (resolved template host) 0 host.disk w ∧ host.SameClock host' ∧
      w.template = template ∧ w.limit = limitFor template maxSize ∧
      w.indexed = Template.hasIndex template.toList ∧ w.hooks = hooks ∧
      w.nextHour = host.zone.nextHour host.now := by
  generalize hs : search (resolved template host) (Template.hasIndex template.toList)
    (limitFor template maxSize) 0 host.disk = found
  obtain ⟨next, works, hnext, rfl, rfl⟩ := open_cases hs h
  have hclock : host.SameClock { host.relyOnClock works with disk := found.disk } := ⟨rfl, rfl⟩
  exact ⟨search_adopts hs hnext rfl rfl rfl rfl, hclock.trans (runHooks_clock _ _ _), rfl, rfl,
    rfl, rfl, rfl⟩

/-- A sink that is opened with watchers alone has no other hooks. -/
theorem open_watch {template : String} {tee : Bool} {maxSize : Nat} {hooks : List Hook}
    (hw : ∀ hook ∈ hooks, hook = .watch)
    (h : Rotating.open template tee maxSize hooks host = (.ok w, host')) :
    ∀ hook ∈ w.hooks, hook = .watch := by
  obtain ⟨-, -, -, -, -, hhooks, -⟩ := open_adopts h
  rwa [hhooks]

theorem retire_clock (w : Rotating) (host : Host) : host.SameClock (w.retire host) := by
  unfold retire
  dsimp only
  split <;> exact ⟨rfl, rfl⟩

/-- A sink has gone over to the file that a search has found. -/
structure GoneOver (w : Rotating) (host : Host) (found : Search) (next : Candidate)
    (w' : Rotating) (host' : Host) : Prop where
  settings : w.SameSettings w'
  nextHour : w'.nextHour = w.nextHour
  nextIndex : w'.nextIndex = found.nextIndex
  file : w'.file = .ofDevice next.device
  size : w'.size = next.size
  current : w'.current = next.path
  clock : host.SameClock host'
  keeps : (∀ hook ∈ w.hooks, hook = .watch) → found.disk.Keeps host'.disk

/-- What moving on comes to when it succeeds. -/
theorem rotate_found (h : w.rotate host = (.ok (), w', host')) :
    ∃ found next,
      search (resolved w.template host) w.indexed w.limit w.nextIndex host.disk = found ∧
      found.outcome = .ok next ∧ GoneOver w host found next w' host' := by
  generalize hs : search (resolved w.template host) w.indexed w.limit w.nextIndex host.disk = found
  obtain ⟨e, -, he⟩ | ⟨next, hnext, ha⟩ := w.rotate_cases host hs
  · rw [he] at h
    cases h
  rw [ha] at h
  cases h
  have hdisk : host.SameClock { host with disk := found.disk } := ⟨rfl, rfl⟩
  refine ⟨found, next, rfl, hnext, ⟨rfl, rfl, rfl, rfl⟩, rfl, rfl, rfl, rfl, rfl,
    (hdisk.trans (retire_clock _ _)).trans (runHooks_clock _ _ _), fun hw => ?_⟩
  show found.disk.Keeps (runHooks w.hooks next.path _).disk
  rw [runHooks_watch hw]
  exact retire_keeps { w with nextIndex := found.nextIndex } { host with disk := found.disk }

/-- A sink that moves on adopts a candidate for the present time. -/
theorem rotate_adopts (h : w.rotate host = (.ok (), w', host')) :
    Adopts (resolved w.template host) w.nextIndex host.disk w' ∧ w.SameSettings w' ∧
      w'.nextHour = w.nextHour ∧ host.SameClock host' := by
  obtain ⟨found, next, hs, hnext, hgone⟩ := rotate_found h
  rw [← hgone.settings.indexed, ← hgone.settings.limit] at hs
  exact ⟨search_adopts hs hnext hgone.nextIndex hgone.file hgone.size hgone.current,
    hgone.settings, hgone.nextHour, hgone.clock⟩

/-! ## 3. When a sink moves on -/

/-- What looking at the size comes to. -/
theorem rotateBySize_looks {bytes : Nat} (h : w.rotateBySize bytes host = (.ok (), w', host')) :
    w.isFull bytes = false ∧ w' = w ∧ host' = host ∨
      w.isFull bytes = true ∧ w.rotate host = (.ok (), w', host') := by
  unfold rotateBySize at h
  split at h
  · next hfull => exact .inr ⟨hfull, h⟩
  · next hroom =>
    cases h
    exact .inl ⟨Bool.eq_false_iff.mpr hroom, rfl, rfl⟩

/-- What looking at the hour comes to. -/
theorem rotateByHour_looks (h : w.rotateByHour host = (.ok (), w', host')) :
    w.nextHour.atOrBefore host.now = false ∧ w' = w ∧ host' = host ∨
      ∃ works, w.expected host = w.current ∧
          w' = { w with nextHour := host.zone.nextHour host.now } ∧
          host' = host.relyOnClock works ∨
        w.expected host ≠ w.current ∧
          { w with nextHour := host.zone.nextHour host.now, nextIndex := 0 }.rotate
            (host.relyOnClock works) = (.ok (), w', host') := by
  unfold rotateByHour at h
  split at h
  · next hdue =>
    refine .inr ⟨host.zone.hasNextHour host.now, ?_⟩
    dsimp only [Host.nextHour] at h
    split at h
    · next hsame =>
      cases h
      exact .inl ⟨hsame, rfl, rfl⟩
    · next hother => exact .inr ⟨hother, h⟩
  · next hearly =>
    cases h
    exact .inl ⟨Bool.eq_false_iff.mpr hearly, rfl, rfl⟩

/-- What appending comes to. -/
theorem append_cases {bytes : Bytes} (h : w.append bytes host = (.ok (), w', host')) :
    ∃ file, w.file.write bytes host.disk = (.ok (), file, host'.disk) ∧
      w' = { w with file := file, size := w.size + bytes.length } ∧ host.SameClock host' := by
  unfold append at h
  split at h
  · cases h
  next file disk hw =>
  cases h
  refine ⟨file, ?_, rfl, ?_⟩
  · rw [Host.tee_disk, hw]
  · unfold Host.tee
    split <;> exact ⟨rfl, rfl⟩

/-- The steps of a write that succeeds without a report, none of which reports anything. -/
theorem write_steps {bytes : Bytes} (h : w.write bytes host = (.ok (), w', host'))
    (hr : host'.reports.length = host.reports.length) :
    ∃ w₁ host₁ w₂ host₂,
      w.rotateBySize bytes.length host.readClock.2 = (.ok (), w₁, host₁) ∧
      host₁.reports.length = host.reports.length ∧
      w₁.rotateByHour host₁ = (.ok (), w₂, host₂) ∧
      host₂.reports.length = host₁.reports.length ∧
      w₂.append bytes host₂ = (.ok (), w', host') := by
  obtain ⟨w₁, host₁, w₂, host₂, h₁, h₂, h₃⟩ := write_cases h
  have hle₁ := rotateBySize_reports w bytes.length host.readClock.2
  have hle₂ := rotateByHour_reports w₁ host₁
  rw [h₁] at hle₁
  rw [h₂] at hle₂
  rw [append_reports h₃] at hr
  have hread : host.readClock.2.reports = host.reports := rfl
  rw [hread] at hle₁
  -- reports are never taken back, so without one in the end there was none on the way
  exact ⟨w₁, host₁, w₂, host₂, h₁, Nat.le_antisymm (hr ▸ hle₂) hle₁, h₂,
    Nat.le_antisymm (hr ▸ hle₁) hle₂, h₃⟩

/-! ## 4. The clock in a session -/

/-- The moments at which buffers are written, from the moment `now` on. -/
def Op.timed (now : Time.Moment) : List Op → List (Time.Moment × Bytes)
  | [] => []
  | .clock now :: ops => Op.timed now ops
  | .write bytes :: ops => (now, bytes) :: Op.timed now ops
  | _ :: ops => Op.timed now ops

theorem rotateBySize_clock {bytes : Nat} (h : w.rotateBySize bytes host = (.ok (), w', host')) :
    host.SameClock host' := by
  obtain ⟨-, -, rfl⟩ | ⟨-, hr⟩ := rotateBySize_looks h
  · exact .refl _
  · exact (rotate_adopts hr).2.2.2

theorem rotateByHour_clock (h : w.rotateByHour host = (.ok (), w', host')) :
    host.SameClock host' := by
  obtain ⟨-, -, rfl⟩ | ⟨works, ⟨-, -, rfl⟩ | ⟨-, hr⟩⟩ := rotateByHour_looks h
  · exact .refl _
  · exact ⟨rfl, rfl⟩
  · have hrely : host.SameClock (host.relyOnClock works) := ⟨rfl, rfl⟩
    exact hrely.trans (rotate_adopts hr).2.2.2

theorem write_clock {bytes : Bytes} (h : w.write bytes host = (.ok (), w', host')) :
    host.SameClock host' := by
  obtain ⟨w₁, host₁, w₂, host₂, h₁, h₂, h₃⟩ := write_cases h
  have hread : host.SameClock host.readClock.2 := ⟨rfl, rfl⟩
  obtain ⟨-, -, -, hclock⟩ := append_cases h₃
  exact ((hread.trans (rotateBySize_clock h₁)).trans (rotateByHour_clock h₂)).trans hclock

/-- Only the clock itself sets the clock, and nothing changes the zone. -/
theorem perform_clock {s s' : Session} {op : Op} (h : s.perform? op = some s') :
    s'.host.zone = s.host.zone ∧
      ∀ ops, Op.timed s.host.now (op :: ops) =
        Op.timed s.host.now [op] ++ Op.timed s'.host.now ops := by
  have hover (hop : op = .flush ∨ op = .sync) : s.host.SameClock s'.host := by
    obtain ⟨file, disk, -, rfl⟩ := Session.handOver_cases hop h
    exact ⟨rfl, rfl⟩
  cases op with
  | clock now =>
    cases h
    exact ⟨rfl, fun _ => rfl⟩
  | write bytes =>
    obtain ⟨w, host, hw, -, rfl⟩ := Session.write_cases h
    have hclock := write_clock hw
    exact ⟨hclock.zone, fun _ => by rw [hclock.now]; rfl⟩
  | flush => exact ⟨(hover (.inl rfl)).zone, fun _ => by rw [(hover (.inl rfl)).now]; rfl⟩
  | sync => exact ⟨(hover (.inr rfl)).zone, fun _ => by rw [(hover (.inr rfl)).now]; rfl⟩

end Rotating

end Logbook
