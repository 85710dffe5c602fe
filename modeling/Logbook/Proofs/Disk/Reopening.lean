import Logbook.Proofs.Disk.Growth

/-!
# Opening and making again

What has been opened is opened again, what has been written to a path can be read there, and folders
that have been made need not be made again. None of this changes the disk.

Results:
1. `LeadsTo.openAppend`, `LeadsTo.read`: a path that leads to a device is opened and read without a
   change to the disk.
2. `makeFolders_isFolder`: folders are there when they have been made.
3. `makeFolders_again`: folders that are there are made without a change to the disk.
-/

namespace Logbook

namespace Disk

variable {disk disk' : Disk} {path : String} {d : Device}

/-! ## 1. Devices -/

theorem finish_create {p : Place} {name : String} {slash : Bool} {leg : Leg Stop}
    (hleg : ∀ r, leg ≠ .refused r) (h : disk.finish .create p name slash = leg) :
    disk.finish .content p name slash = leg := by
  cases slash with
  | false => exact h
  | true => exact absurd h.symm (hleg _)

theorem LeadsTo.openAppend (h : disk.LeadsTo path d) : disk.openAppend path = .ok (d, disk) := by
  obtain ⟨p, place, hc, hw⟩ := h
  simp only [Disk.openAppend, hc, hw, bind, Except.bind, Refusal.lift]
  rfl

/-- What is at the end of a path can be read there. -/
theorem LeadsTo.read (h : disk.LeadsTo path d) : disk.read path = .ok (disk.contents d) := by
  obtain ⟨p, place, hc, hw⟩ := h
  have hw' : disk.walk .content p = .ok (.node place (.device d)) :=
    walk_for (fun _ _ _ => finish_create (by simp)) (fun _ _ _ _ _ => finish_create (by simp)) hw
  simp only [Disk.read, hc, hw', bind, Except.bind, Refusal.lift]
  rfl

/-! ## 2. Folders -/

theorem isFolder_iff : disk.isFolder path = true ↔
    ∃ p q, checkText path = .ok p ∧ disk.walk .content p = .ok (.node q .folder) := by
  rw [isFolder]
  constructor
  · intro h
    split at h
    · cases h
    next p hc =>
    split at h
    · next q hw => exact ⟨p, q, hc, hw⟩
    · cases h
  · rintro ⟨p, q, hc, hw⟩
    rw [hc]
    dsimp only
    rw [hw]

theorem isFolder_mono (h : disk.nodes <+: disk'.nodes) (hf : disk.isFolder path = true) :
    disk'.isFolder path = true := by
  obtain ⟨p, q, hc, hw⟩ := isFolder_iff.mp hf
  exact isFolder_iff.mpr ⟨p, q, hc, walk_mono h hw⟩

theorem finish_folder {purpose purpose' : Purpose} {p q : Place} {name : String} {slash : Bool}
    (hpurpose : purpose' ≠ .create)
    (h : disk.finish purpose p name slash = .done (.node q .folder)) :
    disk.finish purpose' p name slash = .done (.node q .folder) := by
  rw [finish] at h ⊢
  split at h
  · cases h
  split at h
  · cases h
  next hlong =>
  rw [if_neg (by simp [hpurpose]), if_neg hlong]
  split at h
  · cases h
  · exact h
  · split at h <;> cases h
  · split at h <;> cases h

/-- A link that is followed for one purpose is meant itself as an entry. -/
theorem finish_link {purpose : Purpose} {p : Place} {name : String} {slash : Bool}
    {target : Target} {rest : List String}
    (h : disk.finish purpose p name slash = .link target rest) :
    purpose ≠ .entry ∧
      disk.finish .entry p name slash = .done (.node (p.child name) (.link target)) := by
  rw [finish] at h ⊢
  split at h
  · cases h
  split at h
  · cases h
  next hlong =>
  rw [if_neg (by simp), if_neg hlong]
  split at h
  · cases h
  · cases h
  · split at h <;> cases h
  · split at h
    · cases h
    · next hpurpose =>
      cases h
      exact ⟨hpurpose, rfl⟩

/-- A folder that has been made is there. -/
theorem makeFolder_isFolder (h : disk.makeFolder path = .ok disk') :
    disk'.isFolder path = true := by
  obtain ⟨p, place, hc, hw, rfl⟩ := makeFolder_cases h
  have hadd : (disk.add place .folder).walk .entry p = .ok (.node place .folder) :=
    walk_add (.inl rfl) hw
  have hcontent : (disk.add place .folder).walk .content p = .ok (.node place .folder) :=
    walk_for (fun _ _ _ => finish_folder (by decide))
      (fun _ _ _ _ _ hf => absurd rfl (finish_link hf).1) hadd
  exact isFolder_iff.mpr ⟨p, place, hc, hcontent⟩

/-- A name that leads to a folder cannot be made a folder, since it exists. -/
theorem makeFolder_of_isFolder (h : disk.isFolder path = true) :
    disk.makeFolder path = .error (.refused .exists) := by
  obtain ⟨p, q, hc, hw⟩ := isFolder_iff.mp h
  -- as an entry the name stops at the folder, or at a link to it: it is taken in both cases
  obtain ⟨_, hentry, place, node, rfl⟩ : ∃ stop, disk.walk .entry p = .ok stop ∧
      ∃ place node, stop = .node place node :=
    walkFrom_transfer (Within.refl disk).passes (fun _ _ => ⟨_, _, rfl⟩)
      (fun _ _ _ hf => ⟨_, finish_folder (by decide) hf, _, _, rfl⟩)
      (fun _ _ _ _ _ hf => .inr ⟨_, (finish_link hf).2, _, _, rfl⟩) _ _ _ hw
  simp only [makeFolder, hc, hentry, bind, Except.bind, Refusal.lift]
  rfl

theorem makeEach_isFolder {outer : List String}
    (h : disk.makeEach (path :: outer) = (.ok (), disk')) : disk'.isFolder path = true := by
  -- a folder that could not be made counts as made when it is there all the same
  have hstands {disk : Disk} {e : IoError}
      (h : (if disk.isFolder path then (.ok () : Except IoError Unit) else .error e, disk) =
        (.ok (), disk')) : disk'.isFolder path = true := by
    obtain ⟨hresult, rfl⟩ := Prod.mk.inj h
    split at hresult
    · next hf => exact hf
    · cases hresult
  unfold makeEach at h
  split at h
  · next hmade =>
    cases h
    exact makeFolder_isFolder hmade
  split at h
  · split at h
    · cases h
    split at h
    · next hmade =>
      cases h
      exact makeFolder_isFolder hmade
    · exact hstands h
  · exact hstands h

theorem makeEach_again {outer : List String} (h : disk.isFolder path = true) :
    disk.makeEach (path :: outer) = (.ok (), disk) := by
  rw [makeEach, makeFolder_of_isFolder h]
  dsimp only
  rw [if_neg (by decide), if_pos h]

theorem ancestors_cons {path : List Char} (h : path ≠ []) :
    ∃ outer, ancestors path = path :: outer := by
  cases path with
  | nil => exact absurd rfl h
  | cons c s => exact ⟨_, rfl⟩

/-- Folders are there when they have been made. -/
theorem makeFolders_isFolder (hne : path.toList ≠ [])
    (h : disk.makeFolders path = (.ok (), disk')) : disk'.isFolder path = true := by
  obtain ⟨outer, ho⟩ := ancestors_cons hne
  rw [makeFolders, ho, List.map_cons, String.ofList_toList] at h
  exact makeEach_isFolder h

/-- Folders that are there are not made again. -/
theorem makeFolders_again (hne : path.toList ≠ []) (h : disk.isFolder path = true) :
    disk.makeFolders path = (.ok (), disk) := by
  obtain ⟨outer, ho⟩ := ancestors_cons hne
  rw [makeFolders, ho, List.map_cons, String.ofList_toList]
  exact makeEach_again h

end Disk

end Logbook
