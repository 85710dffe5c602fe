import Logbook.Proofs.Disk.Growth

/-!
# Where paths lead without links

On a disk without links a path leads where its names say: a name goes one folder down, two dots go
one folder up. Which place that is can be read off the path alone.

Results:
1. `Place.through_rename`: names that are renamed lead to the renamed place.
2. `Grows.plain`: a disk without links grows without links.
3. `LeadsTo.place`: a path that leads to a device has it at the place that its names say.
4. `LeadsTo.same_place`, `LeadsTo.same_device`: two paths lead to one file if and only if their
   names say one place.
-/

namespace Logbook

/-! ## 1. Places by names -/

/-- Where names lead when no name stands for a link. -/
def Place.through (p : Place) : List String → Place
  | [] => p
  | name :: rest => if name = ".." then p.parent.through rest else (p.child name).through rest

/-- The place with other names on the way. -/
def Place.rename (f : String → String) (p : Place) : Place := { p with names := p.names.map f }

/-- The place of the last name of a path when no name stands for a link. -/
def Path.place? (path : Path) : Option Place :=
  path.last?.map
    ((Place.mk (if path.absolute then .system else .work) []).through path.folders).child

variable {f : String → String}

theorem Place.child_rename (p : Place) (name : String) :
    (p.rename f).child (f name) = (p.child name).rename f := by
  simp [child, rename]

theorem Place.parent_rename (p : Place) : (p.rename f).parent = p.parent.rename f := by
  obtain ⟨root, names⟩ := p
  cases names with
  | nil => rfl
  | cons name rest => simp [parent, rename, List.map_dropLast]

/-- Names that are renamed lead to the renamed place, if two dots alone are renamed to two dots. -/
theorem Place.through_rename (hf : ∀ name, f name = ".." ↔ name = "..") (p : Place)
    (names : List String) : (p.rename f).through (names.map f) = (p.through names).rename f := by
  induction names generalizing p with
  | nil => rfl
  | cons name rest ih =>
    rw [List.map_cons, through, through]
    by_cases hup : name = ".."
    · rw [if_pos hup, if_pos ((hf name).mpr hup), parent_rename, ih]
    · rw [if_neg hup, if_neg (fun h => hup ((hf name).mp h)), child_rename, ih]

namespace Disk

/-! ## 2. Disks without links -/

/-- There are no links, and no file has two names. -/
structure IsPlain (disk : Disk) : Prop where
  sound : disk.IsSound
  noLink : ∀ place target, (place, Node.link target) ∉ disk.nodes
  single : ∀ p q id, (p, Node.device (.file id)) ∈ disk.nodes →
    (q, Node.device (.file id)) ∈ disk.nodes → p = q

theorem isPlain_empty : empty.IsPlain :=
  ⟨isSound_empty, by simp [empty], by simp [empty]⟩

theorem IsPlain.addFolder {disk : Disk} (h : disk.IsPlain) (place : Place) :
    (disk.add place .folder).IsPlain := by
  refine ⟨h.sound.add place (by simp), fun p target hmem => ?_, fun p q id hp hq => ?_⟩
  · rcases List.mem_append.mp hmem with hold | hnew
    · exact h.noLink p target hold
    · simp at hnew
  · have hold {r : Place} (hr : (r, Node.device (.file id)) ∈ (disk.add place .folder).nodes) :
        (r, Node.device (.file id)) ∈ disk.nodes :=
      (List.mem_append.mp hr).resolve_right (by simp)
    exact h.single p q id (hold hp) (hold hq)

theorem IsPlain.addFile {disk : Disk} (h : disk.IsPlain) (place : Place) :
    (disk.addFile place).2.IsPlain := by
  refine ⟨h.sound.addFile place, fun p target hmem => ?_, fun p q id hp hq => ?_⟩
  · rcases List.mem_append.mp hmem with hold | hnew
    · exact h.noLink p target hold
    · simp at hnew
  · rcases List.mem_append.mp hp with hp | hp <;> rcases List.mem_append.mp hq with hq | hq
    · exact h.single p q id hp hq
    -- the number of the new file is none of those that there were
    · have hlt := h.sound p id hp
      simp only [List.mem_singleton, Prod.mk.injEq, Node.device.injEq, Device.file.injEq] at hq
      omega
    · have hlt := h.sound q id hq
      simp only [List.mem_singleton, Prod.mk.injEq, Node.device.injEq, Device.file.injEq] at hp
      omega
    · simp only [List.mem_singleton, Prod.mk.injEq] at hp hq
      exact hp.1.trans hq.1.symm

theorem Grows.plain {disk disk' : Disk} (h : disk.Grows disk') (hp : disk.IsPlain) :
    disk'.IsPlain := by
  induction h with
  | refl => exact hp
  | folder place _ ih => exact ih.addFolder place
  | file place _ ih => exact ih.addFile place

/-! ## 3. Walks without links -/

/-- What is reached through folders alone is reached by name. -/
theorem enter_done {disk : Disk} {p q : Place} {names : List String}
    (h : disk.enter p names = .done q) : q = p.through names := by
  induction names generalizing p with
  | nil =>
    cases h
    rfl
  | cons name rest ih =>
    rw [enter] at h
    unfold Place.through
    split at h
    · next hup =>
      rw [if_pos hup]
      exact ih h
    next hup =>
    rw [if_neg hup]
    split at h
    · cases h
    split at h
    · cases h
    · exact ih h
    · cases h
    · cases h

variable {disk : Disk}

theorem IsPlain.node?_ne (h : disk.IsPlain) (p : Place) (target : Target) :
    disk.node? p ≠ some (.link target) := fun hn =>
  h.noLink p target (mem_of_node? (by simp) hn)

theorem IsPlain.enter_ne (h : disk.IsPlain) (p : Place) (names : List String) (target : Target)
    (rest : List String) : disk.enter p names ≠ .link target rest := by
  induction names generalizing p with
  | nil => simp [enter]
  | cons name more ih =>
    unfold enter
    split
    · exact ih _
    split
    · simp
    split
    · simp
    · exact ih _
    · simp
    · next t hn => exact absurd hn (h.node?_ne _ t)

/-- A path that leads to a device on a disk without links has it where its names say. -/
theorem IsPlain.walk_place (h : disk.IsPlain) {path : Path} {place : Place} {d : Device}
    (hw : disk.walk .create path = .ok (.node place (.device d))) :
    path.place? = some place ∧ disk.node? place = some (.device d) := by
  rw [walk, walkFrom.eq_def] at hw
  dsimp only at hw
  split at hw
  · cases hw
  · next he => exact absurd he (h.enter_ne _ _ _ _)
  next p he =>
  split at hw
  · cases hw
  next name hname =>
  split at hw
  · cases hw
  · next hf =>
    cases hw
    obtain ⟨rfl, hnode⟩ := finish_device hf
    rw [Path.place?, hname, enter_done he]
    exact ⟨rfl, enter_done he ▸ hnode⟩
  -- without links the last name is no link either
  · next target rest hf =>
    unfold finish at hf
    split at hf
    · cases hf
    split at hf
    · cases hf
    split at hf
    · cases hf
    · cases hf
    · cases hf
    · next t hn => exact absurd hn (h.node?_ne _ t)

theorem checkText_ok {s : String} {p : Path} (h : checkText s = .ok p) : p = .ofText s := by
  unfold checkText at h
  split at h
  · cases h
  split at h
  · cases h
  split at h
  · cases h
  · exact (Except.ok.inj h).symm

theorem LeadsTo.place {path : String} {d : Device} (h : disk.LeadsTo path d)
    (hp : disk.IsPlain) :
    ∃ place, (Path.ofText path).place? = some place ∧ disk.node? place = some (.device d) := by
  obtain ⟨p, place, hc, hw⟩ := h
  obtain rfl := checkText_ok hc
  exact ⟨place, hp.walk_place hw⟩

/-- Two paths that lead to one file have names that say one place. -/
theorem LeadsTo.same_place {path path' : String} {id : Nat} (h : disk.LeadsTo path (.file id))
    (h' : disk.LeadsTo path' (.file id)) (hp : disk.IsPlain) :
    (Path.ofText path).place? = (Path.ofText path').place? := by
  obtain ⟨place, hplace, hnode⟩ := h.place hp
  obtain ⟨place', hplace', hnode'⟩ := h'.place hp
  rw [hplace, hplace', hp.single place place' id (mem_of_node? (by simp) hnode)
    (mem_of_node? (by simp) hnode')]

/-- Two paths with names that say one place lead to one device. -/
theorem LeadsTo.same_device {path path' : String} {d d' : Device} (h : disk.LeadsTo path d)
    (h' : disk.LeadsTo path' d') (hp : disk.IsPlain)
    (hsame : (Path.ofText path).place? = (Path.ofText path').place?) : d = d' := by
  obtain ⟨place, hplace, hnode⟩ := h.place hp
  obtain ⟨place', hplace', hnode'⟩ := h'.place hp
  rw [hplace, hplace'] at hsame
  rw [Option.some.inj hsame, hnode'] at hnode
  exact (Node.device.inj (Option.some.inj hnode)).symm

end Disk

end Logbook
