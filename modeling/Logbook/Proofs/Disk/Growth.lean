import Logbook.Disk.Files

/-!
# Growing disks

Opening files and making folders only adds names and empty files: whatever a path led to, it still
leads to, and no byte of any file changes.

Results:
1. `Grows.contents`: the files of a disk keep their bytes while it grows.
2. `walk_mono`: a path that leads to something leads to it when names are added.
3. `walk_add`: a path that ended at a free place leads to what is put there.
4. `openAppend_grows`, `openAppend_leadsTo`, `makeFolders_grows`: what opening and making do.
5. `openAppend_makes`, `makeFolders_files`: which files they make.
-/

namespace Logbook

namespace Disk

/-! ## 1. Growth -/

/-- Folders have been added to a disk, and files with nothing in them. -/
inductive Grows (disk : Disk) : Disk → Prop
  | refl : Grows disk disk
  | folder {disk' : Disk} (place : Place) : Grows disk disk' → Grows disk (disk'.add place .folder)
  | file {disk' : Disk} (place : Place) : Grows disk disk' → Grows disk (disk'.addFile place).2

theorem Grows.trans {a b c : Disk} (h : a.Grows b) (h' : b.Grows c) : a.Grows c := by
  induction h' with
  | refl => exact h
  | folder place _ ih => exact ih.folder place
  | file place _ ih => exact ih.file place

theorem Grows.nodes {disk disk' : Disk} (h : disk.Grows disk') : disk.nodes <+: disk'.nodes := by
  induction h with
  | refl => exact List.prefix_rfl
  | folder place _ ih => exact ih.trans (List.prefix_append _ _)
  | file place _ ih => exact ih.trans (List.prefix_append _ _)

theorem Grows.files {disk disk' : Disk} (h : disk.Grows disk') :
    ∃ k, disk'.files = disk.files ++ List.replicate k [] := by
  induction h with
  | refl => exact ⟨0, (List.append_nil _).symm⟩
  | folder place _ ih => exact ih
  | @file disk' place _ ih =>
    obtain ⟨k, hk⟩ := ih
    refine ⟨k + 1, ?_⟩
    show disk'.files ++ [[]] = _
    rw [hk, List.append_assoc, List.replicate_succ']

theorem Grows.contents {disk disk' : Disk} (h : disk.Grows disk') (d : Device) :
    disk'.contents d = disk.contents d := by
  obtain ⟨k, hk⟩ := h.files
  cases d with
  | null => rfl
  | full => rfl
  | file id =>
    show disk'.files.getD id [] = disk.files.getD id []
    rw [hk, List.getD_eq_getElem?_getD, List.getD_eq_getElem?_getD]
    by_cases hid : id < disk.files.length
    · rw [List.getElem?_append_left hid]
    · rw [List.getElem?_append_right (by omega), List.getElem?_replicate,
        List.getElem?_eq_none (by omega)]
      split <;> rfl

/-- What has been added to a disk are folders and names of new files. -/
theorem Grows.added {disk disk' : Disk} (h : disk.Grows disk') :
    ∀ entry ∈ disk'.nodes, entry ∈ disk.nodes ∨ entry.2 = .folder ∨
      ∃ id, entry.2 = .device (.file id) ∧ disk.files.length ≤ id := by
  induction h with
  | refl => exact fun entry hmem => .inl hmem
  | folder place _ ih =>
    intro entry hmem
    rcases List.mem_append.mp hmem with hold | hnew
    · exact ih entry hold
    · obtain rfl := List.mem_singleton.mp hnew
      exact .inr (.inl rfl)
  | @file disk' place hgrows ih =>
    intro entry hmem
    rcases List.mem_append.mp hmem with hold | hnew
    · exact ih entry hold
    · obtain rfl := List.mem_singleton.mp hnew
      obtain ⟨k, hk⟩ := hgrows.files
      refine .inr (.inr ⟨_, rfl, ?_⟩)
      rw [hk, List.length_append]
      exact Nat.le_add_right _ _

/-- Every name of a file stands for a file that there is. -/
def IsSound (disk : Disk) : Prop :=
  ∀ place id, (place, Node.device (.file id)) ∈ disk.nodes → id < disk.files.length

theorem isSound_empty : empty.IsSound := by
  intro place id h
  simp [empty] at h

theorem IsSound.add {disk : Disk} (h : disk.IsSound) (p : Place) {node : Node}
    (hn : ∀ d, node ≠ .device d) : (disk.add p node).IsSound := by
  intro place id hmem
  rcases List.mem_append.mp hmem with hold | hnew
  · exact h place id hold
  · simp only [List.mem_singleton, Prod.mk.injEq] at hnew
    exact absurd hnew.2.symm (hn _)

theorem IsSound.addFile {disk : Disk} (h : disk.IsSound) (p : Place) :
    (disk.addFile p).2.IsSound := by
  intro place id hmem
  have hlen : (disk.addFile p).2.files.length = disk.files.length + 1 := by simp [Disk.addFile]
  rw [hlen]
  rcases List.mem_append.mp hmem with hold | hnew
  · exact Nat.lt_succ_of_lt (h place id hold)
  · simp only [List.mem_singleton, Prod.mk.injEq, Node.device.injEq, Device.file.injEq] at hnew
    omega

theorem Grows.sound {disk disk' : Disk} (h : disk.Grows disk') (hs : disk.IsSound) :
    disk'.IsSound := by
  induction h with
  | refl => exact hs
  | folder place _ ih => exact ih.add place (by simp)
  | file place _ ih => exact ih.addFile place

/-- A file that there is. -/
def Knows (disk : Disk) (d : Device) : Prop := ∀ id, d = .file id → id < disk.files.length

theorem Grows.knows {disk disk' : Disk} (h : disk.Grows disk') {d : Device} (hd : disk.Knows d) :
    disk'.Knows d := by
  obtain ⟨k, hk⟩ := h.files
  intro id hid
  rw [hk, List.length_append]
  exact Nat.lt_of_lt_of_le (hd id hid) (Nat.le_add_right _ _)

/-! ## 2. Walks on a growing disk -/

/-- Whatever stands at a place of the one disk stands there on the other. -/
def Within (disk disk' : Disk) : Prop :=
  ∀ p node, disk.node? p = some node → disk'.node? p = some node

theorem Within.refl (disk : Disk) : disk.Within disk := fun _ _ => id

/-- What stood on a disk stands there when names are added. -/
theorem within_of_nodes {disk disk' : Disk} (h : disk.nodes <+: disk'.nodes) :
    disk.Within disk' := by
  intro p node hp
  obtain ⟨more, hmore⟩ := h
  rw [node?] at hp ⊢
  split at hp
  · next hroot => rwa [if_pos hroot]
  · next hroot => rw [if_neg hroot, ← hmore, List.lookup_append, hp, Option.some_or]

/-- The folders and links of the one disk, through which walks go, stand on the other. -/
def Passes (disk disk' : Disk) : Prop :=
  ∀ p node, (∀ d, node ≠ .device d) → disk.node? p = some node → disk'.node? p = some node

theorem Within.passes {disk disk' : Disk} (h : disk.Within disk') : disk.Passes disk' :=
  fun p node _ => h p node

theorem enter_mono {disk disk' : Disk} (h : disk.Passes disk') {leg : Leg Place}
    (hleg : ∀ r, leg ≠ .refused r) (names : List String) (p : Place)
    (hp : disk.enter p names = leg) : disk'.enter p names = leg := by
  induction names generalizing p with
  | nil => exact hp
  | cons name rest ih =>
    rw [enter] at hp ⊢
    split at hp
    · next hup =>
      rw [if_pos hup]
      exact ih _ hp
    next hup =>
    split at hp
    · exact absurd hp.symm (hleg _)
    next hlong =>
    rw [if_neg hup, if_neg hlong]
    cases hn : disk.node? (p.child name) with
    | none =>
      rw [hn] at hp
      exact absurd hp.symm (hleg _)
    | some node =>
      rw [hn] at hp
      cases node with
      | folder =>
        rw [h _ _ (by simp) hn]
        exact ih _ hp
      | device d => exact absurd hp.symm (hleg _)
      | link target =>
        rw [h _ _ (by simp) hn]
        exact hp

theorem finish_mono {disk disk' : Disk} (h : disk.Within disk') {purpose : Purpose}
    {p : Place} {name : String} {slash : Bool} {leg : Leg Stop}
    (hleg : ∀ r, leg ≠ .refused r) (hfree : ∀ q, leg ≠ .done (.free q))
    (hp : disk.finish purpose p name slash = leg) : disk'.finish purpose p name slash = leg := by
  rw [finish] at hp ⊢
  split at hp
  · exact absurd hp.symm (hleg _)
  next hslash =>
  split at hp
  · exact absurd hp.symm (hleg _)
  next hlong =>
  rw [if_neg hslash, if_neg hlong]
  cases hn : disk.node? (p.child name) with
  | none =>
    rw [hn] at hp
    exact absurd hp.symm (hfree _)
  | some node =>
    rw [hn] at hp
    rw [h _ _ hn]
    exact hp

/-- A walk through the same folders and links on another disk, perhaps for another purpose, ends
where its last step ends. -/
theorem walkFrom_transfer {disk disk' : Disk} (h : disk.Passes disk')
    {purpose purpose' : Purpose} {stop : Stop} {Ends : Stop → Prop}
    (hfolder : ∀ q, stop = .node q .folder → Ends stop)
    (hfinish : ∀ p name slash, disk.finish purpose p name slash = .done stop →
      ∃ stop', disk'.finish purpose' p name slash = .done stop' ∧ Ends stop')
    (hlink : ∀ p name slash target rest, disk.finish purpose p name slash = .link target rest →
      disk'.finish purpose' p name slash = .link target rest ∨
        ∃ stop', disk'.finish purpose' p name slash = .done stop' ∧ Ends stop')
    (links : Nat) (p : Place) (path : Path) (hp : disk.walkFrom purpose links p path = .ok stop) :
    ∃ stop', disk'.walkFrom purpose' links p path = .ok stop' ∧ Ends stop' := by
  -- on the links that are left: both walks follow the same ones, and each starts a shorter walk
  induction links using Nat.strongRecOn generalizing p path with
  | ind links ih =>
    rw [walkFrom.eq_def] at hp ⊢
    dsimp only at hp ⊢
    cases he : disk.enter p path.folders with
    | refused r => simp [he] at hp
    | link target rest =>
      rw [enter_mono h (by simp) _ _ he]
      cases links with
      | zero => simp [he] at hp
      | succ links =>
        simp only [he] at hp ⊢
        exact ih links (Nat.lt_succ_self _) _ _ hp
    | done q =>
      rw [enter_mono h (by simp) _ _ he]
      simp only [he] at hp ⊢
      cases hl : path.last? with
      | none =>
        simp only [hl] at hp
        obtain rfl := Except.ok.inj hp
        exact ⟨_, rfl, hfolder q rfl⟩
      | some name =>
        simp only [hl] at hp ⊢
        cases hf : disk.finish purpose q name path.slash with
        | refused r => simp [hf] at hp
        | link target rest =>
          obtain hf' | ⟨stop', hf', hends⟩ := hlink _ _ _ _ _ hf
          · rw [hf']
            cases links with
            | zero => simp [hf] at hp
            | succ links =>
              simp only [hf] at hp ⊢
              exact ih links (Nat.lt_succ_self _) _ _ hp
          · rw [hf']
            exact ⟨stop', rfl, hends⟩
        | done last =>
          simp only [hf] at hp
          obtain rfl := Except.ok.inj hp
          obtain ⟨stop', hf', hends⟩ := hfinish q name path.slash hf
          rw [hf']
          exact ⟨stop', rfl, hends⟩

/-- A walk for the same purpose on a disk where everything still stands. -/
theorem walk_grown {disk disk' : Disk} (h : disk.Within disk') {purpose : Purpose}
    {stop stop' : Stop} (hfolder : ∀ q, stop = .node q .folder → stop' = stop)
    (hfinish : ∀ p name slash, disk.finish purpose p name slash = .done stop →
      disk'.finish purpose p name slash = .done stop')
    {path : Path} (hp : disk.walk purpose path = .ok stop) :
    disk'.walk purpose path = .ok stop' := by
  obtain ⟨_, hw, rfl⟩ := walkFrom_transfer h.passes hfolder
    (fun p name slash hf => ⟨stop', hfinish p name slash hf, rfl⟩)
    (fun _ _ _ _ _ hf => .inl (finish_mono h (by simp) (by simp) hf)) _ _ _ hp
  exact hw

/-- A walk for another purpose on the same disk. -/
theorem walk_for {disk : Disk} {purpose purpose' : Purpose} {stop : Stop}
    (hfinish : ∀ p name slash, disk.finish purpose p name slash = .done stop →
      disk.finish purpose' p name slash = .done stop)
    (hlink : ∀ p name slash target rest, disk.finish purpose p name slash = .link target rest →
      disk.finish purpose' p name slash = .link target rest)
    {path : Path} (hp : disk.walk purpose path = .ok stop) :
    disk.walk purpose' path = .ok stop := by
  obtain ⟨_, hw, rfl⟩ := walkFrom_transfer (Within.refl disk).passes (fun _ _ => rfl)
    (fun p name slash hf => ⟨stop, hfinish p name slash hf, rfl⟩)
    (fun _ _ _ _ _ hf => .inl (hlink _ _ _ _ _ hf)) _ _ _ hp
  exact hw

/-- What a path leads to, it leads to when names are added. -/
theorem walk_mono {disk disk' : Disk} (h : disk.nodes <+: disk'.nodes) {purpose : Purpose}
    {path : Path} {place : Place} {node : Node}
    (hp : disk.walk purpose path = .ok (.node place node)) :
    disk'.walk purpose path = .ok (.node place node) :=
  walk_grown (within_of_nodes h) (fun _ _ => rfl)
    (fun _ _ _ => finish_mono (within_of_nodes h) (by simp) (by simp)) hp

/-! ## 3. Filling a free place -/

theorem finish_free {disk : Disk} {purpose : Purpose} {p q : Place} {name : String} {slash : Bool}
    (h : disk.finish purpose p name slash = .done (.free q)) :
    q = p.child name ∧ disk.node? q = none := by
  unfold finish at h
  split at h
  · cases h
  split at h
  · cases h
  cases hn : disk.node? (p.child name) with
  | none =>
    rw [hn] at h
    cases h
    exact ⟨rfl, hn⟩
  | some node =>
    rw [hn] at h
    cases node with
    | folder => cases h
    | device d =>
      dsimp only at h
      split at h <;> cases h
    | link target =>
      dsimp only at h
      split at h <;> cases h

theorem node?_add {disk : Disk} {p : Place} {name : String} (node : Node)
    (h : disk.node? (p.child name) = none) :
    (disk.add (p.child name) node).node? (p.child name) = some node := by
  have hne : ¬ (p.child name).names.isEmpty = true := by simp [Place.child]
  rw [node?, if_neg hne] at h ⊢
  rw [add, List.lookup_append, h, Option.none_or, List.lookup_cons_self]

/-- What can be put at a free place that was found for a purpose, and is found there again. -/
def Purpose.Fits (purpose : Purpose) (node : Node) : Prop :=
  node = .folder ∨ ∃ d, node = .device d ∧ purpose ≠ .content

theorem finish_add {disk : Disk} {purpose : Purpose} {p q : Place} {name : String} {slash : Bool}
    {node : Node} (hfits : purpose.Fits node)
    (h : disk.finish purpose p name slash = .done (.free q)) :
    (disk.add q node).finish purpose p name slash = .done (.node q node) := by
  obtain ⟨rfl, hfree⟩ := finish_free h
  rw [finish] at h ⊢
  split at h
  · cases h
  next hslash =>
  split at h
  · cases h
  next hlong =>
  rw [if_neg hslash, if_neg hlong, node?_add node hfree]
  rcases hfits with rfl | ⟨d, rfl, hpurpose⟩
  · rfl
  · simp [hpurpose]

/-- A path that ended at a free place leads to what is put there. -/
theorem walk_add {disk : Disk} {purpose : Purpose} {path : Path} {q : Place} {node : Node}
    (hfits : purpose.Fits node) (hp : disk.walk purpose path = .ok (.free q)) :
    (disk.add q node).walk purpose path = .ok (.node q node) :=
  walk_grown (within_of_nodes (List.prefix_append _ _)) (fun _ h => by cases h)
    (fun _ _ _ => finish_add hfits) hp

/-! ## 4. Opening and making -/

/-- Opening finds a device or makes a file at a free place. -/
theorem openAppend_cases {disk disk' : Disk} {path : String} {d : Device}
    (h : disk.openAppend path = .ok (d, disk')) :
    ∃ p place, checkText path = .ok p ∧
      (disk.walk .create p = .ok (.node place (.device d)) ∧ disk' = disk ∨
        disk.walk .create p = .ok (.free place) ∧ disk.addFile place = (d, disk')) := by
  simp only [openAppend, bind, Except.bind] at h
  cases hc : checkText path with
  | error e => simp [hc] at h
  | ok p =>
    simp only [hc] at h
    cases hw : disk.walk .create p with
    | error r => simp [hw, Refusal.lift] at h
    | ok stop =>
      simp only [hw, Refusal.lift] at h
      cases stop with
      | free place => exact ⟨p, place, rfl, .inr ⟨hw, Except.ok.inj h⟩⟩
      | node place node =>
        cases node with
        | folder => cases h
        | link target => cases h
        | device d' =>
          cases h
          exact ⟨p, place, rfl, .inl ⟨hw, rfl⟩⟩

/-- The path, opened for appending, leads to a device. -/
def LeadsTo (disk : Disk) (path : String) (d : Device) : Prop :=
  ∃ p place, checkText path = .ok p ∧ disk.walk .create p = .ok (.node place (.device d))

theorem LeadsTo.unique {disk : Disk} {path : String} {d d' : Device} (h : disk.LeadsTo path d)
    (h' : disk.LeadsTo path d') : d = d' := by
  obtain ⟨p, place, hc, hw⟩ := h
  obtain ⟨p', place', hc', hw'⟩ := h'
  rw [hc] at hc'
  obtain rfl := Except.ok.inj hc'
  rw [hw] at hw'
  exact Node.device.inj (Stop.node.inj (Except.ok.inj hw')).2

theorem LeadsTo.mono {disk disk' : Disk} (h : disk.nodes <+: disk'.nodes) {path : String}
    {d : Device} (hd : disk.LeadsTo path d) : disk'.LeadsTo path d := by
  obtain ⟨p, place, hc, hw⟩ := hd
  exact ⟨p, place, hc, walk_mono h hw⟩

theorem openAppend_grows {disk disk' : Disk} {path : String} {d : Device}
    (h : disk.openAppend path = .ok (d, disk')) : disk.Grows disk' := by
  obtain ⟨p, place, -, ⟨-, rfl⟩ | ⟨-, hadd⟩⟩ := openAppend_cases h
  · exact .refl
  · obtain rfl : (disk.addFile place).2 = disk' := by rw [hadd]
    exact .file place .refl

theorem openAppend_leadsTo {disk disk' : Disk} {path : String} {d : Device}
    (h : disk.openAppend path = .ok (d, disk')) : disk'.LeadsTo path d := by
  obtain ⟨p, place, hc, ⟨hw, rfl⟩ | ⟨hw, hadd⟩⟩ := openAppend_cases h
  · exact ⟨p, place, hc, hw⟩
  · obtain ⟨rfl, rfl⟩ := Prod.mk.inj hadd
    have hfits : Purpose.create.Fits (.device (.file disk.files.length)) :=
      .inr ⟨_, rfl, by decide⟩
    have hadded : (disk.add place (.device (.file disk.files.length))).nodes <+:
        (disk.addFile place).2.nodes := List.prefix_rfl
    exact ⟨p, place, hc, walk_mono hadded (walk_add hfits hw)⟩

/-- A walk ends where some last step ends: otherwise it could end anywhere. -/
theorem walk_finish {disk : Disk} {purpose : Purpose} {path : Path} {stop : Stop}
    (hne : ∀ q, stop ≠ .node q .folder) (hp : disk.walk purpose path = .ok stop) :
    ∃ p name slash, disk.finish purpose p name slash = .done stop := by
  -- if no last step ended there, the walk could be shown to end at any other place
  refine Classical.byContradiction fun hno => ?_
  have hother : disk.walk purpose path = .ok (.node ⟨.work, []⟩ .folder) :=
    walk_grown (.refl disk) (fun q hq => absurd hq (hne q))
      (fun p name slash hf => absurd ⟨p, name, slash, hf⟩ hno) hp
  rw [hother] at hp
  exact hne _ (Except.ok.inj hp).symm

theorem finish_device {disk : Disk} {purpose : Purpose} {p q : Place} {name : String} {slash : Bool}
    {d : Device} (h : disk.finish purpose p name slash = .done (.node q (.device d))) :
    q = p.child name ∧ disk.node? q = some (.device d) := by
  unfold finish at h
  split at h
  · cases h
  split at h
  · cases h
  cases hn : disk.node? (p.child name) with
  | none => simp [hn] at h
  | some node =>
    rw [hn] at h
    cases node with
    | folder => cases h
    | device d' =>
      dsimp only at h
      split at h
      · cases h
      · cases h
        exact ⟨rfl, hn⟩
    | link target =>
      dsimp only at h
      split at h <;> cases h

theorem mem_of_node? {disk : Disk} {p : Place} {node : Node} (hne : node ≠ .folder)
    (h : disk.node? p = some node) : (p, node) ∈ disk.nodes := by
  unfold node? at h
  split at h
  · exact absurd (Option.some.inj h).symm hne
  · obtain ⟨l, r, hl, -⟩ := List.lookup_eq_some_iff.mp h
    rw [hl]
    exact List.mem_append_right _ List.mem_cons_self

theorem IsSound.knows {disk : Disk} (h : disk.IsSound) {p : Place} {d : Device}
    (hn : disk.node? p = some (.device d)) : disk.Knows d := by
  rintro id rfl
  exact h p id (mem_of_node? (by simp) hn)

theorem LeadsTo.knows {disk : Disk} {path : String} {d : Device} (h : disk.LeadsTo path d)
    (hs : disk.IsSound) : disk.Knows d := by
  obtain ⟨p, place, -, hw⟩ := h
  obtain ⟨q, name, slash, hf⟩ := walk_finish (by simp) hw
  exact hs.knows (finish_device hf).2

/-- Making a folder puts it at a free place. -/
theorem makeFolder_cases {disk disk' : Disk} {path : String}
    (h : disk.makeFolder path = .ok disk') :
    ∃ p place, checkText path = .ok p ∧ disk.walk .entry p = .ok (.free place) ∧
      disk' = disk.add place .folder := by
  simp only [makeFolder, bind, Except.bind] at h
  cases hc : checkText path with
  | error e => simp [hc] at h
  | ok p =>
    simp only [hc] at h
    cases hw : disk.walk .entry p with
    | error r => simp [hw, Refusal.lift] at h
    | ok stop =>
      simp only [hw, Refusal.lift] at h
      cases stop with
      | free place => exact ⟨p, place, rfl, hw, (Except.ok.inj h).symm⟩
      | node place node => cases h

/-- Making folders adds to a disk, whether it fails or not. -/
theorem makeEach_grows (disk : Disk) (paths : List String) :
    disk.Grows (disk.makeEach paths).2 := by
  have hone {disk disk' : Disk} {path : String} (h : disk.makeFolder path = .ok disk') :
      disk.Grows disk' := by
    obtain ⟨p, place, -, -, rfl⟩ := makeFolder_cases h
    exact .folder place .refl
  induction paths generalizing disk with
  | nil => exact .refl
  | cons path outer ih =>
    unfold makeEach
    split
    · next h => exact hone h
    split
    · have houter := ih disk
      split
      · next h => rwa [h] at houter
      next h =>
      rw [h] at houter
      split
      · next h' => exact houter.trans (hone h')
      · exact houter
    · exact .refl

theorem makeFolders_grows (disk : Disk) (path : String) : disk.Grows (disk.makeFolders path).2 :=
  makeEach_grows disk _

/-- Making folders makes no files, whether it fails or not. -/
theorem makeEach_files (disk : Disk) (paths : List String) :
    (disk.makeEach paths).2.files = disk.files := by
  have hone {disk disk' : Disk} {path : String} (h : disk.makeFolder path = .ok disk') :
      disk'.files = disk.files := by
    obtain ⟨p, place, -, -, rfl⟩ := makeFolder_cases h
    rfl
  induction paths generalizing disk with
  | nil => rfl
  | cons path outer ih =>
    unfold makeEach
    split
    · next h => exact hone h
    split
    · have houter := ih disk
      split
      · next h => rwa [h] at houter
      next h =>
      rw [h] at houter
      split
      · next h' => exact (hone h').trans houter
      · exact houter
    · rfl

theorem makeFolders_files (disk : Disk) (path : String) :
    (disk.makeFolders path).2.files = disk.files :=
  makeEach_files disk _

/-- A file that has been made by opening a path is the one that the path leads to. -/
theorem openAppend_makes {disk disk' : Disk} {path : String} {d : Device}
    (h : disk.openAppend path = .ok (d, disk')) {id : Nat} (hold : disk.files.length ≤ id)
    (hnew : id < disk'.files.length) : disk'.LeadsTo path (.file id) := by
  have hleads := openAppend_leadsTo h
  obtain ⟨p, place, -, ⟨-, rfl⟩ | ⟨-, hadd⟩⟩ := openAppend_cases h
  · omega
  · obtain ⟨rfl, rfl⟩ := Prod.mk.inj hadd
    have hlength : id < (disk.files ++ [[]]).length := hnew
    rw [List.length_append, List.length_singleton] at hlength
    obtain rfl : id = disk.files.length := Nat.le_antisymm (Nat.le_of_lt_succ hlength) hold
    exact hleads

end Disk

end Logbook
