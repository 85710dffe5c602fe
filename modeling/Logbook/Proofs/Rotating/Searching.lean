import Logbook.Proofs.Disk.Reopening
import Logbook.Sink.Rotating

/-!
# Searching for the next file

A search makes folders and empty files, and nothing else. It passes over the candidates that have
reached the limit and stops at the first one that has not.

Results:
1. `Disk.Offers.open`: a candidate that is there is opened without a change to the disk.
2. `search_grows`: what a search does to the disk.
3. `search_ok`: what has been found is open, and its path leads to it.
4. `search_first`: every candidate before the one that was found has reached the limit.
5. `search_offered`: among candidates that are there, the first one below the limit is found.
6. `search_makes`: every file that a search makes is one of the candidates that it went through.
-/

namespace Logbook

/-! ## 1. Candidates that are there -/

/-- The candidate at a path is there, and so is the folder in which it lies. -/
structure Disk.Offers (disk : Disk) (path : String) (d : Device) : Prop where
  leadsTo : disk.LeadsTo path d
  folder : ∀ parent, parentText? path.toList = some parent → parent ≠ [] →
    disk.isFolder (String.ofList parent) = true

theorem Disk.Offers.mono {disk disk' : Disk} (h : disk.nodes <+: disk'.nodes) {path : String}
    {d : Device} (hd : disk.Offers path d) : disk'.Offers path d :=
  ⟨hd.leadsTo.mono h, fun parent hp hne => Disk.isFolder_mono h (hd.folder parent hp hne)⟩

theorem makeParent_folder {path : String} {disk disk' : Disk}
    (h : makeParent path disk = (.ok (), disk')) (parent : List Char)
    (hp : parentText? path.toList = some parent) (hne : parent ≠ []) :
    disk'.isFolder (String.ofList parent) = true := by
  rw [makeParent, hp] at h
  split at h
  · next hnone => cases hnone
  · next hempty => exact absurd (Option.some.inj hempty) hne
  next parent' _ hsome =>
  obtain rfl := Option.some.inj hsome
  dsimp only at h
  split at h
  · next hmade =>
    cases h
    exact Disk.makeFolders_isFolder (by simpa using hne) hmade
  · cases h

theorem makeParent_again {path : String} {disk : Disk}
    (h : ∀ parent, parentText? path.toList = some parent → parent ≠ [] →
      disk.isFolder (String.ofList parent) = true) : makeParent path disk = (.ok (), disk) := by
  unfold makeParent
  split
  · rfl
  · rfl
  next parent hne hsome =>
  have hne : parent ≠ [] := hne
  dsimp only
  rw [Disk.makeFolders_again (by simpa using hne) (h parent hsome hne)]

/-- A candidate that is there is opened without a change to the disk. -/
theorem Disk.Offers.open {path : String} {disk : Disk} {d : Device} (h : disk.Offers path d) :
    openCandidate path disk = (.ok ⟨d, path, (disk.contents d).length⟩, disk) := by
  rw [openCandidate, makeParent_again h.folder]
  dsimp only
  rw [h.leadsTo.openAppend]

/-- The file at a path has reached a limit. -/
def Disk.IsFull (disk : Disk) (limit : Nat) (path : String) : Prop :=
  ∃ bytes, disk.read path = .ok bytes ∧ limit ≤ bytes.length

theorem Disk.LeadsTo.isFull_iff {disk : Disk} {path : String} {d : Device}
    (h : disk.LeadsTo path d) (limit : Nat) :
    disk.IsFull limit path ↔ limit ≤ (disk.contents d).length := by
  constructor
  · rintro ⟨bytes, hread, hle⟩
    rw [h.read] at hread
    exact Except.ok.inj hread ▸ hle
  · exact fun hle => ⟨_, h.read, hle⟩

/-! ## 2. What a search does to the disk -/

theorem makeParent_grows (path : String) (disk : Disk) : disk.Grows (makeParent path disk).2 := by
  unfold makeParent
  split
  · exact .refl
  · exact .refl
  · next parent _ _ =>
    have hgrows := disk.makeFolders_grows (String.ofList parent)
    dsimp only
    split <;> (next h => rwa [h] at hgrows)

/-- Opening a candidate adds to a disk, whether it fails or not. -/
theorem openCandidate_grows (path : String) (disk : Disk) :
    disk.Grows (openCandidate path disk).2 := by
  have hparent := makeParent_grows path disk
  unfold openCandidate
  split
  · next h => rwa [h] at hparent
  next h =>
  rw [h] at hparent
  split
  · next ho => exact hparent.trans (Disk.openAppend_grows ho)
  · exact hparent

theorem searchFrom_grows (resolved : List Char) (indexed : Bool) (limit tries index : Nat)
    (disk : Disk) : disk.Grows (searchFrom resolved indexed limit tries index disk).disk := by
  induction tries generalizing index disk with
  | zero => exact .refl
  | succ tries ih =>
    have hone := openCandidate_grows (String.ofList (Template.candidate resolved index)) disk
    unfold searchFrom
    split
    · next h => rwa [h] at hone
    next found disk' h =>
    rw [h] at hone
    split
    · exact hone
    · exact hone.trans (ih (index + 1) disk')

theorem search_grows (resolved : List Char) (indexed : Bool) (limit index : Nat) (disk : Disk) :
    disk.Grows (search resolved indexed limit index disk).disk :=
  searchFrom_grows resolved indexed limit _ index disk

/-! ## 3. What is found -/

/-- A candidate that is open: it is there, and it has the size that was measured. -/
structure Candidate.IsOpen (c : Candidate) (disk : Disk) : Prop where
  offers : disk.Offers c.path c.device
  size_eq : c.size = (disk.contents c.device).length

theorem openCandidate_ok {path : String} {disk disk' : Disk} {found : Candidate}
    (h : openCandidate path disk = (.ok found, disk')) :
    found.path = path ∧ found.IsOpen disk' := by
  unfold openCandidate at h
  split at h
  · cases h
  next hparent =>
  split at h
  · next ho =>
    cases h
    have hnodes := (Disk.openAppend_grows ho).nodes
    exact ⟨rfl, ⟨Disk.openAppend_leadsTo ho, fun parent hp hne =>
      Disk.isFolder_mono hnodes (makeParent_folder hparent parent hp hne)⟩, rfl⟩
  · cases h

theorem searchFrom_ok {resolved : List Char} {indexed : Bool} {limit tries index : Nat}
    {disk : Disk} {found : Candidate}
    (h : (searchFrom resolved indexed limit tries index disk).outcome = .ok found) :
    found.IsOpen (searchFrom resolved indexed limit tries index disk).disk := by
  induction tries generalizing index disk with
  | zero => cases h
  | succ tries ih =>
    rw [searchFrom] at h ⊢
    split at h
    · cases h
    next ho =>
    split at h
    · next hsmall =>
      rw [if_pos hsmall]
      cases h
      exact (openCandidate_ok ho).2
    · next hbig =>
      rw [if_neg hbig]
      exact ih h

theorem search_ok {resolved : List Char} {indexed : Bool} {limit index : Nat} {disk : Disk}
    {found : Search} {next : Candidate} (hs : search resolved indexed limit index disk = found)
    (h : found.outcome = .ok next) : next.IsOpen found.disk := by
  subst hs
  exact searchFrom_ok h

/-! ## 4. The first candidate below the limit -/

/-- The candidates from one counter up to another are there and have reached the limit. -/
def PassedOver (disk : Disk) (resolved : List Char) (limit first last : Nat) : Prop :=
  ∀ i, first ≤ i → i < last → ∃ d,
    disk.Offers (String.ofList (Template.candidate resolved i)) d ∧
      limit ≤ (disk.contents d).length

theorem searchFrom_first {resolved : List Char} {limit tries index : Nat} {disk : Disk}
    {found : Candidate}
    (h : (searchFrom resolved true limit tries index disk).outcome = .ok found) :
    ∃ k, index ≤ k ∧ (searchFrom resolved true limit tries index disk).nextIndex = k + 1 ∧
      found.path = String.ofList (Template.candidate resolved k) ∧ found.size < limit ∧
      PassedOver (searchFrom resolved true limit tries index disk).disk resolved limit index k := by
  induction tries generalizing index disk with
  | zero => cases h
  | succ tries ih =>
    rw [searchFrom] at h ⊢
    split at h
    · cases h
    next found' disk' ho =>
    obtain ⟨hpath, hopen⟩ := openCandidate_ok ho
    split at h
    · next hsmall =>
      rw [if_pos hsmall]
      cases h
      exact ⟨index, Nat.le_refl _, rfl, hpath, by simpa using hsmall,
        fun i hle hlt => absurd hle (Nat.not_le_of_lt hlt)⟩
    · next hbig =>
      rw [if_neg hbig]
      obtain ⟨k, hle, hnext, hpathk, hlt, hpassed⟩ := ih h
      refine ⟨k, Nat.le_of_succ_le hle, hnext, hpathk, hlt, fun i hi hik => ?_⟩
      rcases Nat.eq_or_lt_of_le hi with rfl | hi
      · -- the candidate that was too large stays so while the search goes on
        have hgrows := searchFrom_grows resolved true limit tries (index + 1) disk'
        refine ⟨found'.device, hpath ▸ hopen.offers.mono hgrows.nodes, ?_⟩
        rw [hgrows.contents, ← hopen.size_eq]
        simpa using hbig
      · exact hpassed i hi hik

/-- A search stops at the first candidate below the limit. -/
theorem search_first {resolved : List Char} {limit index : Nat} {disk : Disk} {found : Search}
    {next : Candidate} (hs : search resolved true limit index disk = found)
    (h : found.outcome = .ok next) :
    ∃ k, index ≤ k ∧ found.nextIndex = k + 1 ∧
      next.path = String.ofList (Template.candidate resolved k) ∧ next.size < limit ∧
      PassedOver found.disk resolved limit index k := by
  subst hs
  exact searchFrom_first h

theorem searchFrom_offered {resolved : List Char} {limit tries index k : Nat} {disk : Disk}
    {d : Device} (hle : index ≤ k) (htries : k < index + tries)
    (hpassed : PassedOver disk resolved limit index k)
    (hk : disk.Offers (String.ofList (Template.candidate resolved k)) d)
    (hlt : (disk.contents d).length < limit) :
    (searchFrom resolved true limit tries index disk).outcome =
      .ok ⟨d, String.ofList (Template.candidate resolved k), (disk.contents d).length⟩ := by
  -- what is offered is opened as it is, so the disk stays the same throughout the search
  induction tries generalizing index with
  | zero => exact absurd hle (Nat.not_le_of_lt htries)
  | succ tries ih =>
    rw [searchFrom]
    rcases Nat.eq_or_lt_of_le hle with rfl | hi
    · rw [hk.open]
      dsimp only
      rw [if_pos (by simp [hlt])]
    · obtain ⟨d', hd', hbig⟩ := hpassed index (Nat.le_refl _) hi
      rw [hd'.open]
      dsimp only
      rw [if_neg (by simp [hbig])]
      exact ih hi (by omega) fun i hi => hpassed i (Nat.le_of_succ_le hi)

/-- Among candidates that are there, the first one below the limit is found. -/
theorem search_offered {resolved : List Char} {limit k : Nat} {disk : Disk} {d : Device}
    (htries : k ≤ disk.nodes.length) (hpassed : PassedOver disk resolved limit 0 k)
    (hk : disk.Offers (String.ofList (Template.candidate resolved k)) d)
    (hlt : (disk.contents d).length < limit) :
    (search resolved true limit 0 disk).outcome =
      .ok ⟨d, String.ofList (Template.candidate resolved k), (disk.contents d).length⟩ :=
  searchFrom_offered (Nat.zero_le _) (by omega) hpassed hk hlt

/-! ## 5. Files that are made -/

theorem makeParent_files (path : String) (disk : Disk) :
    (makeParent path disk).2.files = disk.files := by
  unfold makeParent
  split
  · rfl
  · rfl
  · next parent _ _ =>
    have hfiles := disk.makeFolders_files (String.ofList parent)
    dsimp only
    split <;> (next h => rwa [h] at hfiles)

/-- A file that has been made by opening a candidate is that candidate. -/
theorem openCandidate_makes (path : String) {disk : Disk} {id : Nat}
    (hold : disk.files.length ≤ id) (hnew : id < (openCandidate path disk).2.files.length) :
    (openCandidate path disk).2.LeadsTo path (.file id) := by
  have hfiles := congrArg List.length (makeParent_files path disk)
  unfold openCandidate at hnew ⊢
  split at hnew
  · next h =>
    rw [h] at hfiles
    dsimp only at hfiles hnew
    omega
  next h =>
  rw [h] at hfiles
  split at hnew
  · next ho => exact Disk.openAppend_makes ho (Nat.le_trans (Nat.le_of_eq hfiles) hold) hnew
  · dsimp only at hfiles hnew
    omega

theorem searchFrom_le (resolved : List Char) (indexed : Bool) (limit tries index : Nat)
    (disk : Disk) : index ≤ (searchFrom resolved indexed limit tries index disk).nextIndex := by
  induction tries generalizing index disk with
  | zero => exact Nat.le_refl _
  | succ tries ih =>
    unfold searchFrom
    split
    · exact Nat.le_refl _
    next disk' _ =>
    split
    · exact Nat.le_succ _
    · exact Nat.le_of_succ_le (ih (index + 1) disk')

theorem searchFrom_makes {resolved : List Char} {indexed : Bool} {limit tries index id : Nat}
    {disk : Disk} {found : Candidate}
    (h : (searchFrom resolved indexed limit tries index disk).outcome = .ok found)
    (hold : disk.files.length ≤ id)
    (hnew : id < (searchFrom resolved indexed limit tries index disk).disk.files.length) :
    ∃ i, index ≤ i ∧ i < (searchFrom resolved indexed limit tries index disk).nextIndex ∧
      (searchFrom resolved indexed limit tries index disk).disk.LeadsTo
        (String.ofList (Template.candidate resolved i)) (.file id) := by
  induction tries generalizing index disk with
  | zero => cases h
  | succ tries ih =>
    have hone := openCandidate_makes (String.ofList (Template.candidate resolved index)) hold
    rw [searchFrom] at h hnew ⊢
    split at h
    · cases h
    next found' disk' ho =>
    rw [ho] at hone hnew
    dsimp only at hone hnew
    split at h
    · next hsmall =>
      rw [if_pos hsmall] at hnew ⊢
      exact ⟨index, Nat.le_refl _, Nat.lt_succ_self _, hone hnew⟩
    · next hbig =>
      rw [if_neg hbig] at hnew ⊢
      rcases Nat.lt_or_ge id disk'.files.length with hmade | hlater
      · have hgrows := searchFrom_grows resolved indexed limit tries (index + 1) disk'
        exact ⟨index, Nat.le_refl _, searchFrom_le resolved indexed limit tries (index + 1) disk',
          (hone hmade).mono hgrows.nodes⟩
      · obtain ⟨i, hle, hlt, hleads⟩ := ih h hlater hnew
        exact ⟨i, Nat.le_of_succ_le hle, hlt, hleads⟩

/-- Every file that a search makes is one of the candidates that it went through. -/
theorem search_makes {resolved : List Char} {indexed : Bool} {limit index id : Nat} {disk : Disk}
    {found : Search} {next : Candidate} (hs : search resolved indexed limit index disk = found)
    (h : found.outcome = .ok next) (hold : disk.files.length ≤ id)
    (hnew : id < found.disk.files.length) :
    ∃ i, index ≤ i ∧ i < found.nextIndex ∧
      found.disk.LeadsTo (String.ofList (Template.candidate resolved i)) (.file id) := by
  subst hs
  exact searchFrom_makes h hold hnew

end Logbook
