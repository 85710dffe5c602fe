import Logbook.Proofs.Disk.Growth
import Logbook.Disk.Buffered

/-!
# Buffered files keep their promise

What a file is going to hold once a buffer has handed everything over is settled when the buffer
takes the bytes: handing over later changes nothing about it.

Results:
1. `append_ok`: a device takes bytes at its end, and no other file changes.
2. `Buffered.flush_ok`: handing over makes the contents of all files what they were promised to be.
3. `Buffered.write_ok`: taking bytes promises them to the end of one file.
4. `Buffered.Stuck.write`: bytes for the device without space wait for ever.
5. `Buffered.close_ok`: giving up a buffer is handing over.
-/

namespace Logbook

/-! ## 1. Devices -/

/-- No name has been added or removed, and no file. -/
structure Disk.Keeps (disk disk' : Disk) : Prop where
  nodes : disk'.nodes = disk.nodes
  length : disk'.files.length = disk.files.length

namespace Disk

theorem Keeps.refl (disk : Disk) : disk.Keeps disk := ⟨rfl, rfl⟩

theorem Keeps.trans {a b c : Disk} (h : a.Keeps b) (h' : b.Keeps c) : a.Keeps c :=
  ⟨h'.nodes.trans h.nodes, h'.length.trans h.length⟩

theorem Keeps.sound {disk disk' : Disk} (h : disk.Keeps disk') (hs : disk.IsSound) :
    disk'.IsSound := by
  intro place id hmem
  rw [h.nodes] at hmem
  rw [h.length]
  exact hs place id hmem

theorem Keeps.knows {disk disk' : Disk} (h : disk.Keeps disk') {d : Device} (hd : disk.Knows d) :
    disk'.Knows d := by
  intro id hid
  rw [h.length]
  exact hd id hid

/-- The part of `bytes` that goes to a file when they are given to a device. -/
def share (d : Device) (bytes : Bytes) (id : Nat) : Bytes := if d = .file id then bytes else []

theorem share_nil (d : Device) (id : Nat) : share d [] id = [] := ite_self []

theorem share_append (d : Device) (a b : Bytes) (id : Nat) :
    share d (a ++ b) id = share d a id ++ share d b id := by
  rw [share, share, share]
  split <;> rfl

theorem append_keeps {disk disk' : Disk} {d : Device} {bytes : Bytes}
    (h : disk.append d bytes = .ok disk') : disk.Keeps disk' := by
  cases d with
  | null =>
    cases h
    exact .refl _
  | full =>
    rw [append] at h
    split at h
    · cases h
      exact .refl _
    · cases h
  | file id =>
    cases h
    exact ⟨rfl, List.length_modify ..⟩

theorem append_ok {disk disk' : Disk} {d : Device} {bytes : Bytes} (hk : disk.Knows d)
    (h : disk.append d bytes = .ok disk') :
    disk.Keeps disk' ∧
      ∀ id, disk'.contents (.file id) = disk.contents (.file id) ++ share d bytes id := by
  refine ⟨append_keeps h, fun id => ?_⟩
  cases d with
  | null =>
    cases h
    exact (List.append_nil _).symm
  | full =>
    rw [append] at h
    split at h
    · cases h
      exact (List.append_nil _).symm
    · cases h
  | file target =>
    cases h
    have hlt := hk target rfl
    show (disk.files.modify target (· ++ bytes)).getD id [] = disk.files.getD id [] ++ _
    rw [share, List.getD_eq_getElem?_getD, List.getElem?_modify, List.getD_eq_getElem?_getD]
    by_cases hid : target = id
    · subst hid
      simp [List.getElem?_eq_getElem hlt]
    · simp [hid]

end Disk

/-! ## 2. Handing over -/

namespace Buffered

/-- What a file is going to hold. -/
def promised (b : Buffered) (disk : Disk) (id : Nat) : Bytes :=
  disk.contents (.file id) ++ Disk.share b.device b.pending id

theorem promised_ofDevice (d : Device) (disk : Disk) (id : Nat) :
    (ofDevice d).promised disk id = disk.contents (.file id) := by
  rw [promised, ofDevice, Disk.share_nil, List.append_nil]

variable {b b' : Buffered} {disk disk' : Disk}

theorem flush_keeps (b : Buffered) (disk : Disk) : disk.Keeps (b.flush disk).2.2 := by
  unfold flush
  split
  · next ha => exact Disk.append_keeps ha
  · exact .refl _

theorem flush_ok (hk : disk.Knows b.device) (h : b.flush disk = (.ok (), b', disk')) :
    disk.Keeps disk' ∧ b'.device = b.device ∧ b'.pending = [] ∧
      ∀ id, disk'.contents (.file id) = b.promised disk id := by
  unfold flush at h
  split at h
  · next disk'' ha =>
    cases h
    obtain ⟨hkeeps, hcontents⟩ := Disk.append_ok hk ha
    exact ⟨hkeeps, rfl, rfl, hcontents⟩
  · cases h

/-- After handing over nothing waits, so the promise is the contents. -/
theorem flush_promised (hk : disk.Knows b.device) (h : b.flush disk = (.ok (), b', disk'))
    (id : Nat) : b'.promised disk' id = b.promised disk id := by
  obtain ⟨-, -, hp, hcontents⟩ := flush_ok hk h
  rw [promised, hp, Disk.share_nil, List.append_nil, hcontents]

theorem sync_ok (h : b.sync disk = (.ok (), b', disk')) : b.flush disk = (.ok (), b', disk') := by
  unfold sync at h
  split at h
  · next hf =>
    obtain ⟨-, h⟩ := Prod.mk.inj h
    rw [hf, ← h]
  · exact h

theorem sync_keeps (b : Buffered) (disk : Disk) : disk.Keeps (b.sync disk).2.2 := by
  have hkeeps := b.flush_keeps disk
  unfold sync
  split
  · next hf => rwa [hf] at hkeeps
  · exact hkeeps

/-! ## 3. Taking bytes -/

theorem accept_keeps (b : Buffered) (bytes : Bytes) (disk : Disk) :
    disk.Keeps (b.accept bytes disk).2.2 := by
  unfold accept
  split
  · split
    · next ha => exact Disk.append_keeps ha
    · exact .refl _
  · exact .refl _

theorem write_keeps (b : Buffered) (bytes : Bytes) (disk : Disk) :
    disk.Keeps (b.write bytes disk).2.2 := by
  have hkeeps := b.flush_keeps disk
  unfold write
  split
  · exact b.accept_keeps bytes disk
  split
  · next hf =>
    rw [hf] at hkeeps
    exact hkeeps.trans (accept_keeps _ bytes _)
  · next hf => rwa [hf] at hkeeps

theorem flush_device (b : Buffered) (disk : Disk) : (b.flush disk).2.1.device = b.device := by
  unfold flush
  split <;> rfl

theorem sync_device (b : Buffered) (disk : Disk) : (b.sync disk).2.1.device = b.device := by
  have hdevice := b.flush_device disk
  unfold sync
  split
  · next hf => rwa [hf] at hdevice
  · exact hdevice

theorem accept_device (b : Buffered) (bytes : Bytes) (disk : Disk) :
    (b.accept bytes disk).2.1.device = b.device := by
  unfold accept
  split
  · split <;> rfl
  · rfl

/-- A buffer belongs to one device, whether it takes bytes or not. -/
theorem write_device (b : Buffered) (bytes : Bytes) (disk : Disk) :
    (b.write bytes disk).2.1.device = b.device := by
  have hdevice := b.flush_device disk
  unfold write
  split
  · exact b.accept_device bytes disk
  split
  · next hf =>
    rw [hf] at hdevice
    exact (accept_device _ bytes _).trans hdevice
  · next hf => rwa [hf] at hdevice

theorem accept_ok {bytes : Bytes} (hk : disk.Knows b.device)
    (hfits : b.pending = [] ∨ bytes.length < capacity)
    (h : b.accept bytes disk = (.ok (), b', disk')) :
    disk.Keeps disk' ∧ b'.device = b.device ∧
      ∀ id, b'.promised disk' id = b.promised disk id ++ Disk.share b.device bytes id := by
  unfold accept at h
  split at h
  · next hbig =>
    split at h
    · next disk'' ha =>
      cases h
      obtain ⟨hkeeps, hcontents⟩ := Disk.append_ok hk ha
      have hp : b.pending = [] := hfits.resolve_right (Nat.not_lt_of_le hbig)
      refine ⟨hkeeps, rfl, fun id => ?_⟩
      rw [promised, promised, hp, Disk.share_nil, List.append_nil, List.append_nil, hcontents]
    · cases h
  · cases h
    refine ⟨.refl _, rfl, fun id => ?_⟩
    rw [promised, promised, Disk.share_append, List.append_assoc]

/-- Taking bytes promises them to the end of the file that the buffer belongs to. -/
theorem write_ok {bytes : Bytes} (hk : disk.Knows b.device)
    (h : b.write bytes disk = (.ok (), b', disk')) :
    disk.Keeps disk' ∧ b'.device = b.device ∧
      ∀ id, b'.promised disk' id = b.promised disk id ++ Disk.share b.device bytes id := by
  unfold write at h
  split at h
  · next hle =>
    refine accept_ok hk ?_ h
    rcases Nat.eq_zero_or_pos b.pending.length with hz | hpos
    · exact .inl (List.length_eq_zero_iff.mp hz)
    · exact .inr (by omega)
  · split at h
    · next b'' disk'' hf =>
      obtain ⟨hkeeps, hdevice, hp, -⟩ := flush_ok hk hf
      have hk' : disk''.Knows b''.device := hdevice ▸ hkeeps.knows hk
      obtain ⟨hkeeps', hdevice', hpromised⟩ := accept_ok hk' (.inl hp) h
      refine ⟨hkeeps.trans hkeeps', hdevice'.trans hdevice, fun id => ?_⟩
      rw [hpromised, flush_promised hk hf, hdevice]
    · cases h

/-! ## 4. Without space -/

/-- Bytes wait for the device that has no space. -/
def Stuck (b : Buffered) : Prop := b.device = .full ∧ b.pending ≠ []

theorem Stuck.flush_ne (h : b.Stuck) : b.flush disk ≠ (.ok (), b', disk') := by
  rw [flush, h.1, Disk.append, if_neg (by simp [h.2])]
  simp

theorem accept_full {bytes : Bytes} (hd : b.device = .full)
    (h : b.accept bytes disk = (.ok (), b', disk')) :
    b'.device = .full ∧ (b.pending ≠ [] ∨ bytes ≠ [] → b'.pending ≠ []) := by
  unfold accept at h
  split at h
  · next hbig =>
    have hne : ¬ bytes.isEmpty = true := by
      rw [List.isEmpty_iff]
      rintro rfl
      exact absurd hbig (by decide)
    rw [hd, Disk.append, if_neg hne] at h
    cases h
  · cases h
    refine ⟨hd, fun hor he => ?_⟩
    obtain ⟨hp, hb⟩ := List.append_eq_nil_iff.mp he
    exact hor.elim (fun hne => hne hp) (fun hne => hne hb)

theorem write_full {bytes : Bytes} (hd : b.device = .full)
    (h : b.write bytes disk = (.ok (), b', disk')) :
    b'.device = .full ∧ (b.pending ≠ [] ∨ bytes ≠ [] → b'.pending ≠ []) := by
  unfold write at h
  split at h
  · exact accept_full hd h
  · split at h
    · next b'' disk'' hf =>
      have hp : b.pending = [] := Classical.byContradiction fun hne => Stuck.flush_ne ⟨hd, hne⟩ hf
      have hk : disk.Knows b.device := by simp [Disk.Knows, hd]
      obtain ⟨-, hdevice, -, -⟩ := flush_ok hk hf
      obtain ⟨hd', hor⟩ := accept_full (hdevice.trans hd) h
      exact ⟨hd', fun ho => hor (.inr (ho.resolve_left (fun hne => hne hp)))⟩
    · cases h

/-- What waits for the device without space goes on waiting. -/
theorem Stuck.write {bytes : Bytes} (hs : b.Stuck) (h : b.write bytes disk = (.ok (), b', disk')) :
    b'.Stuck := by
  obtain ⟨hd, hor⟩ := write_full hs.1 h
  exact ⟨hd, hor (.inl hs.2)⟩

/-! ## 5. Giving up -/

/-- A buffer whose bytes are handed over is given up with its promise kept. -/
theorem close_ok (hk : disk.Knows b.device) (h : (b.flush disk).1 = .ok ()) :
    disk.Keeps (b.close disk) ∧
      ∀ id, (b.close disk).contents (.file id) = b.promised disk id := by
  have hf : b.flush disk = (.ok (), (b.flush disk).2.1, b.close disk) := by rw [← h, close]
  obtain ⟨hkeeps, -, -, hcontents⟩ := flush_ok hk hf
  exact ⟨hkeeps, hcontents⟩

end Buffered

end Logbook
