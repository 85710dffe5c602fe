import Logbook.Proofs.Disk.Linking
import Logbook.Proofs.Rotating.Adopting

/-!
# Following the current file

Hooks are run when a file is adopted, and at no other time. A write adopts one file at most: if it
moves on because the current file is full, the new one already has the name that the hour asks for.

Results:
1. `runHooks_adopted`: hooks tell each watcher the path once.
2. `write_turn`: a write adopts the file that is due, if any is and can be found, and does nothing
   else that a watcher or a link would notice.
3. `perform_turn`, `run_follows`: what watchers have been told after any number of operations, some
   of which may have failed.
-/

namespace Logbook

/-! ## 1. What hooks notice -/

/-- Names may have been added, but no watcher has been told anything. -/
structure Host.Adds (host host' : Host) : Prop where
  nodes : host.disk.nodes <+: host'.disk.nodes
  home : host'.home = host.home
  adopted : host'.adopted = host.adopted

namespace Host.Adds

theorem refl (host : Host) : host.Adds host := ⟨List.prefix_rfl, rfl, rfl⟩

theorem trans {a b c : Host} (h : a.Adds b) (h' : b.Adds c) : a.Adds c :=
  ⟨h.nodes.trans h'.nodes, h'.home.trans h.home, h'.adopted.trans h.adopted⟩

/-- A disk to which names have been added. -/
theorem grown (host : Host) {disk : Disk} (h : host.disk.nodes <+: disk.nodes) :
    host.Adds { host with disk := disk } := ⟨h, rfl, rfl⟩

theorem kept (host : Host) {disk : Disk} (h : host.disk.Keeps disk) :
    host.Adds { host with disk := disk } := grown host (h.nodes ▸ List.prefix_rfl)

theorem tee (host : Host) (wanted : Bool) (bytes : Bytes) : host.Adds (host.tee wanted bytes) := by
  unfold Host.tee
  split <;> exact ⟨List.prefix_rfl, rfl, rfl⟩

end Host.Adds

theorem moveLink_adopted (name path : String) (host : Host) :
    (moveLink name path host).adopted = host.adopted := by
  unfold moveLink
  dsimp only
  split <;> rfl

/-- Every watcher is told the path, and told it once. -/
theorem runHooks_adopted (hooks : List Hook) (path : String) (host : Host) :
    (runHooks hooks path host).adopted =
      host.adopted ++ List.replicate (hooks.count .watch) path := by
  induction hooks generalizing host with
  | nil => exact (List.append_nil _).symm
  | cons hook rest ih =>
    show (runHooks rest path (hook.run path host)).adopted = _
    rw [ih]
    cases hook with
    | watch =>
      rw [List.count_cons_self, List.replicate_succ, Hook.run, List.append_assoc]
      rfl
    | link name => rw [List.count_cons_of_ne (by simp), Hook.run, moveLink_adopted]

/-! ## 2. What a write adopts -/

/-- A file as a sink holds it: the path under which it was opened, and what was opened. -/
structure Holding where
  path : String
  device : Device
  deriving DecidableEq

def Candidate.holding (c : Candidate) : Holding := ⟨c.path, c.device⟩

/-- Runs the hooks for a file that has been adopted, if any has. -/
def announce (hooks : List Hook) (file? : Option Holding) (host : Host) : Host :=
  match file? with
  | none => host
  | some file => runHooks hooks file.path host

namespace Rotating

def holding (w : Rotating) : Holding := ⟨w.current, w.file.device⟩

/-- The search for another file from a counter on. -/
def searched (w : Rotating) (index : Nat) (host : Host) : Search :=
  search (resolved w.template host) w.indexed w.limit index host.disk

/-- The file that a search from a counter on comes to, if it succeeds. -/
def found? (w : Rotating) (index : Nat) (host : Host) : Option Holding :=
  (w.searched index host).outcome.toOption.map Candidate.holding

/-- Whether an hour has begun in which the current file has another name. -/
def isOutdated (w : Rotating) (host : Host) : Bool :=
  w.nextHour.atOrBefore host.now && w.expected host != w.current

/-- The counter from which a write of `bytes` bytes searches for another file: the next one if the
current file is full, or else the first one if an hour has begun in which it has another name. -/
def due? (w : Rotating) (bytes : Nat) (host : Host) : Option Nat :=
  if w.isFull bytes then some w.nextIndex else if w.isOutdated host then some 0 else none

/-- The file that a write of `bytes` bytes adopts: the one that the search finds, if one is due. -/
def adopted? (w : Rotating) (bytes : Nat) (host : Host) : Option Holding :=
  (w.due? bytes host).bind fun first => w.found? first host

/-- A sink has adopted a file, and its hooks have been run once for it; or it has adopted none, and
its hooks have not been run. -/
structure Turn (w : Rotating) (host : Host) (file? : Option Holding) (w' : Rotating)
    (host' : Host) : Prop where
  hooks : w'.hooks = w.hooks
  holding : w'.holding = file?.getD w.holding
  told : ∃ before, host.Adds before ∧ (announce w.hooks file? before).Adds host'

variable {w w₁ w' : Rotating} {host host₁ host' : Host} {file? : Option Holding}

theorem searched_grows (w : Rotating) (index : Nat) (host : Host) :
    host.disk.Grows (w.searched index host).disk :=
  search_grows _ _ _ index host.disk

theorem due?_full {bytes : Nat} (h : w.isFull bytes = true) :
    w.due? bytes host = some w.nextIndex := by
  rw [due?, if_pos h]

theorem due?_outdated {bytes : Nat} (hfull : w.isFull bytes = false)
    (h : w.isOutdated host = true) : w.due? bytes host = some 0 := by
  rw [due?, if_neg (by simp [hfull]), if_pos h]

theorem due?_none {bytes : Nat} (h : w.due? bytes host = none) :
    w.isFull bytes = false ∧ w.isOutdated host = false := by
  unfold due? at h
  split at h
  · cases h
  next hfull =>
  split at h
  · cases h
  next hdate => exact ⟨Bool.eq_false_iff.mpr hfull, Bool.eq_false_iff.mpr hdate⟩

/-- A write is due for the first file of an hour only if the current file has room. -/
theorem due?_cases {bytes first : Nat} (h : w.due? bytes host = some first) :
    w.isFull bytes = true ∧ first = w.nextIndex ∨
      w.isFull bytes = false ∧ w.isOutdated host = true ∧ first = 0 := by
  unfold due? at h
  split at h
  · next hfull => exact .inl ⟨hfull, (Option.some.inj h).symm⟩
  next hroom =>
  split at h
  · next hdate => exact .inr ⟨Bool.eq_false_iff.mpr hroom, hdate, (Option.some.inj h).symm⟩
  · cases h

/-- While the current file has room, only the hour matters. -/
theorem adopted?_of_room {bytes : Nat} (h : w.isFull bytes = false) :
    w.adopted? bytes host = if w.isOutdated host then w.found? 0 host else none := by
  rw [adopted?, due?, h, if_neg Bool.false_ne_true]
  split
  · rw [Option.bind_some]
  · rw [Option.bind_none]

theorem Turn.stays (h : host.Adds host') (hhooks : w'.hooks = w.hooks)
    (hholding : w'.holding = w.holding) : Turn w host none w' host' :=
  ⟨hhooks, hholding, host, .refl host, h⟩

theorem Turn.after (h : Turn w host none w₁ host₁) (h' : Turn w₁ host₁ file? w' host') :
    Turn w host file? w' host' := by
  obtain ⟨before, hbefore, hadds⟩ := h.told
  obtain ⟨before', hbefore', hadds'⟩ := h'.told
  refine ⟨h'.hooks.trans h.hooks, h'.holding.trans ?_, before', ?_, h.hooks ▸ hadds'⟩
  · rw [h.holding]
    rfl
  · exact (hbefore.trans hadds).trans hbefore'

theorem Turn.before (h : Turn w host file? w₁ host₁) (h' : Turn w₁ host₁ none w' host') :
    Turn w host file? w' host' := by
  obtain ⟨before, hbefore, hadds⟩ := h.told
  obtain ⟨before', hbefore', hadds'⟩ := h'.told
  exact ⟨h'.hooks.trans h.hooks, h'.holding.trans h.holding, before, hbefore,
    (hadds.trans hbefore').trans hadds'⟩

theorem retire_adds (w : Rotating) (host : Host) : host.Adds (w.retire host) := by
  have hnodes : host.disk.nodes <+: (w.retire host).disk.nodes :=
    (w.retire_keeps host).nodes ▸ List.prefix_rfl
  refine ⟨hnodes, ?_, ?_⟩
  · unfold retire
    dsimp only
    split <;> rfl
  · unfold retire
    dsimp only
    split <;> rfl

theorem rotate_turn (w : Rotating) (host : Host) :
    Turn w host (w.found? w.nextIndex host) (w.rotate host).2.1 (w.rotate host).2.2 := by
  have hgrows := w.searched_grows w.nextIndex host
  generalize hs : w.searched w.nextIndex host = found at hgrows
  have hsearched := Host.Adds.grown host hgrows.nodes
  obtain ⟨e, he, hr⟩ | ⟨next, hnext, hr⟩ := w.rotate_cases host hs
  · rw [hr, found?, hs, he]
    exact .stays hsearched rfl rfl
  · rw [hr, found?, hs, hnext]
    exact ⟨rfl, rfl, _, hsearched.trans (retire_adds _ _), .refl _⟩

theorem rotateByHour_turn (w : Rotating) (host : Host) :
    Turn w host (if w.isOutdated host then w.found? 0 host else none) (w.rotateByHour host).2.1
      (w.rotateByHour host).2.2 := by
  have hclock (works : Bool) (nextHour : Time.Moment) (nextIndex : Nat) :
      Turn w host none { w with nextHour := nextHour, nextIndex := nextIndex }
        (host.relyOnClock works) :=
    .stays ⟨List.prefix_rfl, rfl, rfl⟩ rfl rfl
  unfold rotateByHour isOutdated
  by_cases hdue : w.nextHour.atOrBefore host.now = true
  · by_cases hsame : w.expected host = w.current
    · have hsame' : { w with nextHour := host.nextHour.1 }.expected host.nextHour.2 =
        w.current := hsame
      rw [if_pos hdue, if_neg (by simp [hsame])]
      dsimp only
      rw [if_pos hsame']
      exact hclock _ _ w.nextIndex
    · have hother : ¬ { w with nextHour := host.nextHour.1 }.expected host.nextHour.2 =
        w.current := hsame
      rw [if_pos hdue, if_pos (by simp [hdue, hsame])]
      dsimp only
      rw [if_neg hother]
      have hturn := rotate_turn { w with nextHour := host.nextHour.1, nextIndex := 0 }
        host.nextHour.2
      have hfound : found? { w with nextHour := host.nextHour.1, nextIndex := 0 } 0
        host.nextHour.2 = w.found? 0 host := rfl
      rw [hfound] at hturn
      exact (hclock _ _ 0).after hturn
  · rw [if_neg hdue, if_neg (by simp [hdue])]
    exact .stays (.refl host) rfl rfl

theorem append_turn (w : Rotating) (bytes : Bytes) (host : Host) :
    Turn w host none (w.append bytes host).2.1 (w.append bytes host).2.2 := by
  have hkeeps := Host.Adds.kept host (w.file.write_keeps bytes host.disk)
  have hdevice := w.file.write_device bytes host.disk
  unfold append
  split
  · next hw =>
    rw [hw] at hkeeps hdevice
    exact .stays hkeeps rfl (by rw [holding, holding, hdevice])
  · next hw =>
    rw [hw] at hkeeps hdevice
    exact .stays (hkeeps.trans (.tee _ _ _)) rfl (by rw [holding, holding, hdevice])

/-- A sink that has just moved on has the name that the hour asks for. -/
theorem rotate_not_outdated (h : w.rotate host = (.ok (), w', host')) :
    w'.isOutdated host' = false := by
  obtain ⟨⟨⟨k, -, hnext, hcurrent⟩, -, -⟩, hsettings, -, hclock⟩ := rotate_adopts h
  have hexpected : w'.expected host' = w'.current := by
    rw [expected, hnext, hcurrent, resolved, resolved, hsettings.template, hclock.localNow,
      Nat.add_sub_cancel]
  rw [isOutdated, hexpected, bne_self_eq_false, Bool.and_false]

/-- What is left of a write after a look at the size: a look at the hour, and the bytes. -/
theorem write_turn_rest {bytes : Bytes}
    (h : w.rotateBySize bytes.length host.readClock.2 = (.ok (), w₁, host₁)) :
    Turn w₁ host₁ (if w₁.isOutdated host₁ then w₁.found? 0 host₁ else none)
      (w.write bytes host).2.1 (w.write bytes host).2.2 := by
  have hhour := rotateByHour_turn w₁ host₁
  unfold write
  simp only [h]
  rcases hr : w₁.rotateByHour host₁ with ⟨result, w₂, host₂⟩
  rw [hr] at hhour
  cases result with
  | error e => exact hhour
  | ok _ => exact hhour.before (append_turn w₂ bytes host₂)

/-- A write adopts the file that is due, if any is and can be found. -/
theorem write_turn (w : Rotating) (bytes : Bytes) (host : Host) :
    Turn w host (w.adopted? bytes.length host) (w.write bytes host).2.1
      (w.write bytes host).2.2 := by
  have hclock : Turn w host none w host.readClock.2 := .stays ⟨List.prefix_rfl, rfl, rfl⟩ rfl rfl
  refine hclock.after ?_
  by_cases hfull : w.isFull bytes.length = true
  · have hrotate := rotate_turn w host.readClock.2
    have hsize : w.rotateBySize bytes.length host.readClock.2 = w.rotate host.readClock.2 :=
      if_pos hfull
    rw [adopted?, due?_full hfull, Option.bind_some]
    rcases hr : w.rotate host.readClock.2 with ⟨result, w₁, host₁⟩
    rw [hr] at hrotate hsize
    cases result with
    | error e =>
      unfold write
      simp only [hsize]
      exact hrotate
    -- the file that was adopted has the name of the hour, so the write stays with it
    | ok _ =>
      have hrest := write_turn_rest hsize
      rw [if_neg (by simp [rotate_not_outdated hr])] at hrest
      exact hrotate.before hrest
  · have hsize : w.rotateBySize bytes.length host.readClock.2 = (.ok (), w, host.readClock.2) :=
      if_neg hfull
    rw [adopted?_of_room (Bool.eq_false_iff.mpr hfull)]
    exact write_turn_rest hsize

/-- A sink that is opened runs its hooks once, for the file that it adopts. -/
theorem open_told {template : String} {tee : Bool} {maxSize : Nat} {hooks : List Hook}
    (h : Rotating.open template tee maxSize hooks host = (.ok w, host')) :
    w.hooks = hooks ∧ ∃ before, host.Adds before ∧ host' = runHooks hooks w.current before := by
  have hgrows := search_grows (resolved template host) (Template.hasIndex template.toList)
    (limitFor template maxSize) 0 host.disk
  generalize hs : search (resolved template host) (Template.hasIndex template.toList)
    (limitFor template maxSize) 0 host.disk = found at hgrows
  obtain ⟨next, works, -, rfl, rfl⟩ := open_cases hs h
  have hadds : host.Adds { host.relyOnClock works with disk := found.disk } :=
    ⟨hgrows.nodes, rfl, rfl⟩
  exact ⟨rfl, _, hadds, rfl⟩

/-! ## 3. Runs -/

/-- Does one thing, whether it succeeds or not. -/
def perform (s : Rotating × Host) : Op → Rotating × Host
  | .clock now => (s.1, { s.2 with now := now })
  | .write bytes => (s.1.write bytes s.2).2
  | .flush =>
    let (_, file, disk) := s.1.file.flush s.2.disk
    ({ s.1 with file := file }, { s.2 with disk := disk })
  | .sync =>
    let (_, file, disk) := s.1.file.sync s.2.disk
    ({ s.1 with file := file }, { s.2 with disk := disk })

/-- The file that an operation adopts; only writes adopt any. -/
def adoptedBy? (s : Rotating × Host) : Op → Option Holding
  | .write bytes => s.1.adopted? bytes.length s.2
  | _ => none

/-- The files that are adopted one after the other. -/
def adoptions (s : Rotating × Host) : List Op → List Holding
  | [] => []
  | op :: ops => (adoptedBy? s op).toList ++ adoptions (perform s op) ops

theorem perform_turn (s : Rotating × Host) (op : Op) :
    Turn s.1 s.2 (adoptedBy? s op) (perform s op).1 (perform s op).2 := by
  obtain ⟨w, host⟩ := s
  cases op with
  | clock now => exact .stays ⟨List.prefix_rfl, rfl, rfl⟩ rfl rfl
  | write bytes => exact write_turn w bytes host
  | flush =>
    refine .stays (.kept host (w.file.flush_keeps host.disk)) rfl ?_
    exact congrArg (Holding.mk w.current) (w.file.flush_device host.disk)
  | sync =>
    refine .stays (.kept host (w.file.sync_keeps host.disk)) rfl ?_
    exact congrArg (Holding.mk w.current) (w.file.sync_device host.disk)

/-- What watchers are told when `count` of them are told the path of every file. -/
def toldPaths (count : Nat) (files : List Holding) : List String :=
  files.flatMap fun file => List.replicate count file.path

theorem Turn.adopted (h : Turn w host file? w' host') :
    host'.adopted = host.adopted ++ toldPaths (w.hooks.count .watch) file?.toList := by
  obtain ⟨before, hbefore, hadds⟩ := h.told
  rw [hadds.adopted]
  cases file? with
  | none => simpa [announce, toldPaths] using hbefore.adopted
  | some file => simp [announce, toldPaths, runHooks_adopted, hbefore.adopted]

/-- In any run the watchers are told the adopted files in their order, and the last one of these is
the current one. -/
theorem run_follows (s : Rotating × Host) (ops : List Op) :
    (ops.foldl perform s).2.adopted =
        s.2.adopted ++ toldPaths (s.1.hooks.count .watch) (adoptions s ops) ∧
      (s.1.holding :: adoptions s ops).getLast? = some (ops.foldl perform s).1.holding := by
  induction ops generalizing s with
  | nil => exact ⟨(List.append_nil _).symm, rfl⟩
  | cons op ops ih =>
    have hturn := perform_turn s op
    obtain ⟨htold, hlast⟩ := ih (perform s op)
    rw [List.foldl_cons, adoptions]
    constructor
    · rw [htold, hturn.adopted, hturn.hooks]
      simp [toldPaths]
    · rw [← hlast, hturn.holding]
      cases adoptedBy? s op <;> rfl

end Rotating

end Logbook
