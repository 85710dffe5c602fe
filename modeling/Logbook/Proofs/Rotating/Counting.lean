import Logbook.Proofs.Disk.Places
import Logbook.Proofs.Rotating.Conservation
import Logbook.Proofs.Template.Candidates

/-!
# Counting through the files

Without date tokens a sink never starts its counter anew. Its current file is the one of the last
counter, and the files of all counters before it are there.

Results:
1. `search_numbered`: the files that a search comes across are those of the counters that it goes
   through.
2. `rotate_counts`, `write_counts`: moving on and writing keep the count.
3. `Session.run_counts`: what holds after any number of operations.
-/

namespace Logbook

theorem Disk.Keeps.plain {disk disk' : Disk} (h : disk.Keeps disk') (hp : disk.IsPlain) :
    disk'.IsPlain :=
  ⟨h.sound hp.sound, fun place target => by rw [h.nodes]; exact hp.noLink place target,
    fun p q id => by rw [h.nodes]; exact hp.single p q id⟩

namespace Rotating

/-- The sink counts through the files of a template: it is at the file of the last counter, and the
candidates up to it are there. No link leads from one to another. -/
structure Counts (template : String) (maxSize : Nat) (w : Rotating) (host : Host) : Prop where
  template_eq : w.template = template
  limit_eq : w.limit = maxSize
  indexed : w.indexed = true
  watch : ∀ hook ∈ w.hooks, hook = .watch
  plain : host.disk.IsPlain
  current : ∃ n, w.nextIndex = n + 1 ∧ w.current = numbered n template
  offered : ∀ i < w.nextIndex, ∃ d, host.disk.Offers (numbered i template) d

section
variable {template : String} {maxSize : Nat}

/-! ## 1. Searching -/

theorem resolved_undated (h : Template.hasDateTokens template.toList = false) (host : Host) :
    resolved template host = template.toList :=
  Template.resolve_undated h _

/-- A search comes across the files of the counters that it goes through, and adopts the one of the
last of them. -/
theorem search_numbered {index : Nat} {disk : Disk} {next : Candidate} {found : Search}
    (hs : search template.toList true maxSize index disk = found)
    (h : found.outcome = .ok next) :
    ∃ n, index ≤ n ∧ found.nextIndex = n + 1 ∧ next.path = numbered n template ∧
      ∀ i, index ≤ i → i ≤ n → ∃ d, found.disk.Offers (numbered i template) d := by
  obtain ⟨n, hle, hnext, hpath, -, hpassed⟩ := search_first hs h
  refine ⟨n, hle, hnext, hpath, fun i hi hin => ?_⟩
  rcases Nat.eq_or_lt_of_le hin with rfl | hlt
  · have hoffers := (search_ok hs h).offers
    rw [hpath] at hoffers
    exact ⟨_, hoffers⟩
  · obtain ⟨d, hd, -⟩ := hpassed i hi hlt
    exact ⟨d, hd⟩

/-! ## 2. Moving on and writing -/

variable {w w' : Rotating} {host host' : Host}

/-- The count does not depend on what has been written. -/
theorem Counts.keeps (h : Counts template maxSize w host) (host' : Host)
    (hk : host.disk.Keeps host'.disk) (file : Buffered) (size : Nat) (nextHour : Time.Moment) :
    Counts template maxSize { w with file := file, size := size, nextHour := nextHour } host' where
  template_eq := h.template_eq
  limit_eq := h.limit_eq
  indexed := h.indexed
  watch := h.watch
  plain := hk.plain h.plain
  current := h.current
  offered i hi := (h.offered i hi).imp fun _ hd => hd.mono (hk.nodes ▸ List.prefix_rfl)

theorem rotate_counts (hdate : Template.hasDateTokens template.toList = false)
    (h : Counts template maxSize w host) (hr : w.rotate host = (.ok (), w', host')) :
    Counts template maxSize w' host' ∧ w.nextIndex ≤ w'.nextIndex := by
  have hgrows := search_grows template.toList true maxSize w.nextIndex host.disk
  generalize hs : search template.toList true maxSize w.nextIndex host.disk = found at hgrows
  have hfound : search (resolved w.template host) w.indexed w.limit w.nextIndex host.disk =
      found := by
    rw [h.template_eq, h.indexed, h.limit_eq, resolved_undated hdate, hs]
  obtain ⟨e, -, he⟩ | ⟨next, hnext, ha⟩ := w.rotate_cases host hfound
  · rw [he] at hr
    cases hr
  rw [ha] at hr
  cases hr
  obtain ⟨n, hle, hindex, hpath, hoffered⟩ := search_numbered hs hnext
  -- the files are handed over and the watcher is told, which leaves all names as they are
  have hkeeps : found.disk.Keeps (runHooks w.hooks next.path
      (retire { w with nextIndex := found.nextIndex } { host with disk := found.disk })).disk := by
    rw [runHooks_watch h.watch]
    exact retire_keeps { w with nextIndex := found.nextIndex } { host with disk := found.disk }
  have hcounts : Counts template maxSize
      { w with nextIndex := found.nextIndex, current := next.path }
      { host with disk := found.disk } := by
    refine ⟨h.template_eq, h.limit_eq, h.indexed, h.watch, hgrows.plain h.plain,
      ⟨n, hindex, hpath⟩, fun i hi => ?_⟩
    have hi : i < n + 1 := hindex ▸ hi
    rcases Nat.lt_or_ge i w.nextIndex with hold | hnew
    · exact (h.offered i hold).imp fun _ hd => hd.mono hgrows.nodes
    · exact hoffered i hnew (Nat.le_of_lt_succ hi)
  refine ⟨hcounts.keeps _ hkeeps _ _ _, ?_⟩
  show w.nextIndex ≤ found.nextIndex
  rw [hindex]
  exact Nat.le_succ_of_le hle

theorem rotateBySize_counts {bytes : Nat}
    (hdate : Template.hasDateTokens template.toList = false)
    (h : Counts template maxSize w host)
    (hr : w.rotateBySize bytes host = (.ok (), w', host')) :
    Counts template maxSize w' host' ∧ w.nextIndex ≤ w'.nextIndex := by
  unfold rotateBySize at hr
  split at hr
  · exact rotate_counts hdate h hr
  · cases hr
    exact ⟨h, Nat.le_refl _⟩

/-- The name stays with every hour, so the counter is not started anew. -/
theorem rotateByHour_counts (hdate : Template.hasDateTokens template.toList = false)
    (h : Counts template maxSize w host) (hr : w.rotateByHour host = (.ok (), w', host')) :
    Counts template maxSize w' host' ∧ w'.nextIndex = w.nextIndex := by
  obtain hc | ⟨works, nextHour, hc | ⟨hother, -⟩⟩ := w.rotateByHour_cases host
  · rw [hc] at hr
    cases hr
    exact ⟨h, rfl⟩
  · rw [hc] at hr
    cases hr
    exact ⟨h.keeps (host.relyOnClock works) (.refl host.disk) w.file w.size nextHour, rfl⟩
  · obtain ⟨n, hnext, hcurrent⟩ := h.current
    refine absurd ?_ hother
    rw [expected, h.template_eq, resolved_undated hdate, hnext, hcurrent]
    rfl

theorem append_counts {bytes : Bytes} (h : Counts template maxSize w host)
    (hr : w.append bytes host = (.ok (), w', host')) :
    Counts template maxSize w' host' ∧ w'.nextIndex = w.nextIndex := by
  have hkeeps := w.file.write_keeps bytes host.disk
  unfold append at hr
  split at hr
  · cases hr
  next file disk hw =>
  rw [hw] at hkeeps
  cases hr
  have hdisk := Host.tee_disk { host with disk := disk } w.tee bytes
  exact ⟨h.keeps _ (hdisk ▸ hkeeps) file (w.size + bytes.length) w.nextHour, rfl⟩

theorem write_counts {bytes : Bytes} (hdate : Template.hasDateTokens template.toList = false)
    (h : Counts template maxSize w host) (hr : w.write bytes host = (.ok (), w', host')) :
    Counts template maxSize w' host' ∧ w.nextIndex ≤ w'.nextIndex := by
  obtain ⟨w₁, host₁, w₂, host₂, h₁, h₂, h₃⟩ := write_cases hr
  have hclock : Counts template maxSize w host.readClock.2 :=
    h.keeps host.readClock.2 (.refl host.disk) w.file w.size w.nextHour
  obtain ⟨hc₁, hle₁⟩ := rotateBySize_counts hdate hclock h₁
  obtain ⟨hc₂, heq₂⟩ := rotateByHour_counts hdate hc₁ h₂
  obtain ⟨hc₃, heq₃⟩ := append_counts hc₂ h₃
  refine ⟨hc₃, ?_⟩
  rw [heq₃, heq₂]
  exact hle₁

/-! ## 3. Sessions -/

/-- What holds at every time of a session whose template has no date tokens. -/
structure Session.Counts (template : String) (maxSize : Nat) (s : Session) : Prop where
  writer : s.writer.Counts template maxSize s.host
  logged : ∀ entry ∈ s.log, ∃ i < s.writer.nextIndex, entry.path = numbered i template

theorem limitFor_indexed (hindex : Template.hasIndex template.toList = true)
    (hmax : 0 < maxSize) : limitFor template maxSize = maxSize := by
  simp [limitFor, hindex, hmax]

theorem open_counts {tee : Bool} {hooks : List Hook}
    (hdate : Template.hasDateTokens template.toList = false)
    (hindex : Template.hasIndex template.toList = true) (hmax : 0 < maxSize)
    (hw : ∀ hook ∈ hooks, hook = .watch) (hplain : host.disk.IsPlain)
    (h : Rotating.open template tee maxSize hooks host = (.ok w, host')) :
    Session.Counts template maxSize ⟨w, host', []⟩ := by
  have hgrows := search_grows template.toList true maxSize 0 host.disk
  generalize hs : search template.toList true maxSize 0 host.disk = found at hgrows
  have hfound : search (resolved template host) (Template.hasIndex template.toList)
      (limitFor template maxSize) 0 host.disk = found := by
    rw [hindex, limitFor_indexed hindex hmax, resolved_undated hdate, hs]
  obtain ⟨next, works, hnext, rfl, rfl⟩ := open_cases hfound h
  obtain ⟨n, -, hcount, hpath, hoffered⟩ := search_numbered hs hnext
  refine ⟨⟨rfl, limitFor_indexed hindex hmax, hindex, hw, ?_, ⟨n, hcount, hpath⟩, fun i hi => ?_⟩,
    fun entry hmem => by cases hmem⟩
  · rw [runHooks_watch hw]
    exact hgrows.plain hplain
  · have hi : i < n + 1 := hcount ▸ hi
    rw [runHooks_watch hw]
    exact hoffered i (Nat.zero_le _) (Nat.le_of_lt_succ hi)

theorem Session.perform_counts {s s' : Session} {op : Op}
    (hdate : Template.hasDateTokens template.toList = false)
    (hs : s.Counts template maxSize) (h : s.perform? op = some s') :
    s'.Counts template maxSize := by
  have hover (hop : op = .flush ∨ op = .sync) : s'.Counts template maxSize := by
    obtain ⟨file, disk, hf, rfl⟩ := handOver_cases hop h
    have hkeeps := s.writer.file.flush_keeps s.host.disk
    rw [hf] at hkeeps
    exact ⟨hs.writer.keeps { s.host with disk := disk } hkeeps file s.writer.size
      s.writer.nextHour, hs.logged⟩
  cases op with
  | clock now =>
    cases h
    exact ⟨hs.writer.keeps { s.host with now := now } (.refl s.host.disk) s.writer.file
      s.writer.size s.writer.nextHour, hs.logged⟩
  | flush => exact hover (.inl rfl)
  | sync => exact hover (.inr rfl)
  | write bytes =>
    obtain ⟨w, host, hw, -, rfl⟩ := write_cases h
    obtain ⟨hcounts, hle⟩ := write_counts hdate hs.writer hw
    -- the counter only grows, so the earlier files stay below it
    refine ⟨hcounts, fun entry hmem => ?_⟩
    rcases List.mem_append.mp hmem with hold | hone
    · obtain ⟨i, hi, hpath⟩ := hs.logged entry hold
      exact ⟨i, Nat.lt_of_lt_of_le hi hle, hpath⟩
    · obtain rfl := List.mem_singleton.mp hone
      obtain ⟨n, hn, hcurrent⟩ := hcounts.current
      exact ⟨n, hn ▸ Nat.lt_succ_self n, hcurrent⟩

/-- Any number of steps. -/
theorem Session.run_counts {s s' : Session} {ops : List Op}
    (hdate : Template.hasDateTokens template.toList = false)
    (hs : s.Counts template maxSize) (h : s.run? ops = some s') : s'.Counts template maxSize := by
  induction ops generalizing s with
  | nil =>
    obtain rfl := Option.some.inj h
    exact hs
  | cons op ops ih =>
    obtain ⟨s₁, hone, hrest⟩ := Option.bind_eq_some_iff.mp h
    exact ih (Session.perform_counts hdate hs hone) hrest

end

end Rotating

end Logbook
