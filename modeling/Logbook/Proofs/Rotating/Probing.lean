import Logbook.Proofs.Disk.Parents
import Logbook.Proofs.Rotating.Apart
import Mathlib.Data.List.Dedup
import Mathlib.Data.List.Perm.Subperm

/-!
# A search that ends

A sink that moves on tries one candidate after the other, without a bound on their number, until one
is below the limit. What makes an end of it is that the candidates that are passed over are files
that there were before, that they are different files, and that there are only so many files. Where
candidates lead to one file there need not be an end, and a candidate that was missing can turn out
to be such a file when the folder for it has been made.

Results:
1. `searchFrom_of_probes`: the search with a bound on its tries is the search without one.
2. `Searchable.hasSize`: a candidate is found with the size that it had when the search started.
3. `Searchable.le_fullFiles`: a search comes no further than there are full files.
4. `Searchable.ends`: a search ends.
5. `HasFolders.searchable`: where the folders of candidates are there, making them plays no part.
6. `rotate_adopts_first`: what it comes to, and after how many tries.
-/

namespace Logbook

/-! ## 1. Searching without a bound -/

/-- A search for a candidate below the limit that goes on for as long as it takes, with the number
of its tries. -/
inductive Probes (name : List Char) (limit : Nat) : Nat → Disk → Nat → Search → Prop
  | fails {index : Nat} {disk disk' : Disk} {e : LogError} :
      openCandidate (String.ofList (Template.candidate name index)) disk = (.error e, disk') →
      Probes name limit index disk 1 ⟨.error e, index, disk'⟩
  | adopts {index : Nat} {disk disk' : Disk} {found : Candidate} :
      openCandidate (String.ofList (Template.candidate name index)) disk = (.ok found, disk') →
      found.size < limit →
      Probes name limit index disk 1 ⟨.ok found, index + 1, disk'⟩
  | passes {index tries : Nat} {disk disk' : Disk} {found : Candidate} {result : Search} :
      openCandidate (String.ofList (Template.candidate name index)) disk = (.ok found, disk') →
      limit ≤ found.size →
      Probes name limit (index + 1) disk' tries result →
      Probes name limit index disk (tries + 1) result

variable {name : List Char} {limit first index tries : Nat} {disk disk' : Disk} {result : Search}

/-- With as many tries as it takes, the bound on them makes no difference. -/
theorem searchFrom_of_probes (h : Probes name limit index disk tries result) {bound : Nat}
    (hbound : tries ≤ bound) : searchFrom name true limit bound index disk = result := by
  induction h generalizing bound with
  | fails ho =>
    obtain ⟨bound, rfl⟩ := Nat.exists_eq_add_of_le' hbound
    rw [searchFrom, ho]
  | adopts ho hsize =>
    obtain ⟨bound, rfl⟩ := Nat.exists_eq_add_of_le' hbound
    rw [searchFrom, ho]
    exact if_pos (by simp [hsize])
  | @passes index tries _ _ _ _ ho hsize _ ih =>
    obtain ⟨bound, rfl⟩ := Nat.exists_eq_add_of_le' (Nat.le_of_add_left_le hbound)
    rw [searchFrom, ho]
    simp only [Nat.not_lt.2 hsize, decide_false, Bool.not_true, Bool.or_self, Bool.false_eq_true,
      if_false]
    exact ih (by omega)

/-- A search that has found a candidate is one without a bound. -/
theorem probes_of_searchFrom {bound : Nat} {next : Candidate}
    (h : (searchFrom name true limit bound index disk).outcome = .ok next) :
    Probes name limit index disk ((searchFrom name true limit bound index disk).nextIndex - index)
      (searchFrom name true limit bound index disk) := by
  induction bound generalizing index disk with
  | zero => cases h
  | succ bound ih =>
    rw [searchFrom] at h ⊢
    split at h
    · cases h
    next found disk' ho =>
    split at h
    · next hsmall =>
      rw [if_pos hsmall, Nat.add_sub_cancel_left]
      exact .adopts ho (by simpa using hsmall)
    · next hbig =>
      rw [if_neg hbig]
      have hlt := searchFrom_le name true limit bound (index + 1) disk'
      generalize hs : searchFrom name true limit bound (index + 1) disk' = result at h hlt
      have hprobes := ih (hs ▸ h)
      rw [hs] at hprobes
      rw [show result.nextIndex - index = result.nextIndex - (index + 1) + 1 by omega]
      exact .passes ho (by simpa using hbig) hprobes

/-! ## 2. How far a search has come -/

/-- A search that started on a disk comes to a counter, with the disk as it is then. -/
inductive Reaches (name : List Char) (limit first : Nat) (start : Disk) : Nat → Disk → Prop
  | start : Reaches name limit first start first start
  | passes {index : Nat} {disk disk' : Disk} {found : Candidate} :
      Reaches name limit first start index disk →
      openCandidate (String.ofList (Template.candidate name index)) disk = (.ok found, disk') →
      limit ≤ found.size →
      Reaches name limit first start (index + 1) disk'

variable {start : Disk}

theorem grows_of_openCandidate {path : String} {opened : Except LogError Candidate}
    (h : openCandidate path disk = (opened, disk')) : disk.Grows disk' := by
  have hgrows := openCandidate_grows path disk
  rwa [h] at hgrows

theorem Reaches.grows (h : Reaches name limit first start index disk) : start.Grows disk := by
  induction h with
  | start => exact .refl
  | passes _ ho _ ih => exact ih.trans (grows_of_openCandidate ho)

/-- Once its folder has been made, a candidate is there, or a file is made for it. -/
theorem openCandidate_cases {path : String} {found : Candidate}
    (h : openCandidate path disk = (.ok found, disk')) :
    ∃ prepared, makeParent path disk = (.ok (), prepared) ∧
      (disk' = prepared ∧ prepared.LeadsTo path found.device ∨
        disk'.files = prepared.files ++ [[]] ∧ found.device = .file prepared.files.length) := by
  unfold openCandidate at h
  split at h
  · cases h
  next prepared hmade =>
  refine ⟨prepared, hmade, ?_⟩
  split at h
  next d disk₂ ho =>
    cases h
    obtain ⟨p, place, hc, ⟨hw, rfl⟩ | ⟨-, hadd⟩⟩ := Disk.openAppend_cases ho
    · exact .inl ⟨rfl, p, place, hc, hw⟩
    · obtain ⟨rfl, rfl⟩ := Prod.mk.inj hadd
      exact .inr ⟨rfl, rfl⟩
  next => cases h

/-- Opening a candidate makes no file but the candidate itself. -/
theorem openCandidate_files {path : String} {found : Candidate}
    (h : openCandidate path disk = (.ok found, disk')) :
    disk'.files = disk.files ∨
      disk'.files = disk.files ++ [[]] ∧ found.device = .file disk.files.length := by
  obtain ⟨prepared, hmade, hopened⟩ := openCandidate_cases h
  have hprepared : prepared.files = disk.files := by
    have hparent := makeParent_files path disk
    rwa [hmade] at hparent
  rw [hprepared] at hopened
  obtain ⟨rfl, -⟩ | hnew := hopened
  · exact .inl hprepared
  · exact .inr hnew

/-- A candidate that is made is empty. -/
theorem openCandidate_new {path : String} {found : Candidate}
    (h : openCandidate path disk = (.ok found, disk')) (hnew : disk'.files ≠ disk.files) :
    found.size = 0 := by
  obtain ⟨hfiles, hdevice⟩ := (openCandidate_files h).resolve_left hnew
  rw [(openCandidate_ok h).2.size_eq, hdevice, Disk.contents, hfiles]
  simp

/-- A file that has reached a limit was there before the candidate was opened. -/
theorem openCandidate_full {path : String} {found : Candidate} (hlimit : 0 < limit)
    (h : openCandidate path disk = (.ok found, disk')) (hsize : limit ≤ found.size) :
    disk'.files = disk.files := by
  by_contra hnew
  rw [openCandidate_new h hnew] at hsize
  exact absurd hlimit (Nat.not_lt.2 hsize)

/-- A search makes no file before it has found one. -/
theorem Reaches.files (hlimit : 0 < limit) (h : Reaches name limit first start index disk) :
    disk.files = start.files := by
  induction h with
  | start => rfl
  | passes _ ho hsize ih => exact (openCandidate_full hlimit ho hsize).trans ih

/-- The size of the file that a path leads to, where a missing one counts as empty. -/
def Disk.HasSize (disk : Disk) (path : String) (size : Nat) : Prop :=
  (∃ d, disk.LeadsTo path d ∧ (disk.contents d).length = size) ∨
    (∀ d, ¬ disk.LeadsTo path d) ∧ size = 0

/-- Different candidates lead to different files. -/
def Parts (name : List Char) (disk : Disk) : Prop :=
  ∀ i j id, disk.LeadsTo (String.ofList (Template.candidate name i)) (.file id) →
    disk.LeadsTo (String.ofList (Template.candidate name j)) (.file id) →
    Template.candidate name i = Template.candidate name j

/-- Every candidate that a search comes to can be opened, one that was missing when it started is
missing still when its folder has been made, so that a file is made for it, and different candidates
lead to different files. -/
structure Searchable (name : List Char) (limit first : Nat) (start : Disk) : Prop where
  opens : ∀ index disk, Reaches name limit first start index disk → ∃ found disk',
    openCandidate (String.ofList (Template.candidate name index)) disk = (.ok found, disk')
  makes : ∀ index disk found disk', Reaches name limit first start index disk →
    openCandidate (String.ofList (Template.candidate name index)) disk = (.ok found, disk') →
    (∀ d, ¬ start.LeadsTo (String.ofList (Template.candidate name index)) d) →
    disk'.files ≠ disk.files
  parts : Parts name start

/-- A candidate is the file that it was when the search started, or one that was missing then. -/
theorem Searchable.opened (h : Searchable name limit first start)
    (hreach : Reaches name limit first start index disk) {found : Candidate}
    (ho : openCandidate (String.ofList (Template.candidate name index)) disk = (.ok found, disk')) :
    start.LeadsTo (String.ofList (Template.candidate name index)) found.device ∨
      (∀ d, ¬ start.LeadsTo (String.ofList (Template.candidate name index)) d) ∧
        found.size = 0 := by
  by_cases hold : ∃ d, start.LeadsTo (String.ofList (Template.candidate name index)) d
  · obtain ⟨d, hd⟩ := hold
    obtain ⟨hpath, hopen⟩ := openCandidate_ok ho
    have hgrown := hreach.grows.trans (grows_of_openCandidate ho)
    have hleads : disk'.LeadsTo (String.ofList (Template.candidate name index)) found.device :=
      hpath ▸ hopen.offers.leadsTo
    exact .inl ((hd.mono hgrown.nodes).unique hleads ▸ hd)
  · have hmissing := not_exists.1 hold
    exact .inr ⟨hmissing, openCandidate_new ho (h.makes _ _ _ _ hreach ho hmissing)⟩

/-- A candidate is found with the size that it had when the search started. -/
theorem Searchable.hasSize (h : Searchable name limit first start)
    (hreach : Reaches name limit first start index disk) {found : Candidate}
    (ho : openCandidate (String.ofList (Template.candidate name index)) disk = (.ok found, disk')) :
    start.HasSize (String.ofList (Template.candidate name index)) found.size := by
  have hgrown := hreach.grows.trans (grows_of_openCandidate ho)
  obtain hleads | hmissing := h.opened hreach ho
  · refine .inl ⟨found.device, hleads, ?_⟩
    rw [(openCandidate_ok ho).2.size_eq, hgrown.contents]
  · exact .inr hmissing

/-- What a search has come past had reached the limit when it started. -/
theorem Searchable.passedOver (h : Searchable name limit first start)
    (hreach : Reaches name limit first start index disk) (i : Nat) (hle : first ≤ i)
    (hlt : i < index) :
    ∃ size, start.HasSize (String.ofList (Template.candidate name i)) size ∧ limit ≤ size := by
  induction hreach with
  | start => exact absurd hle (Nat.not_le_of_lt hlt)
  | @passes index disk disk' found hreach ho hsize ih =>
    rcases Nat.eq_or_lt_of_le (Nat.le_of_lt_succ hlt) with rfl | hlt
    · exact ⟨found.size, h.hasSize hreach ho, hsize⟩
    · exact ih hlt

/-! ## 3. An end of it -/

/-- The device behind a node, if it is one. -/
def Node.device? : Node → Option Device
  | .device d => some d
  | _ => none

/-- The files with a name on a disk that have reached a limit. -/
def Disk.fullFiles (disk : Disk) (limit : Nat) : List Device :=
  ((disk.nodes.filterMap fun entry => entry.2.device?).dedup).filter
    fun d => limit ≤ (disk.contents d).length

/-- A full file to which a path leads has a name. -/
theorem Disk.LeadsTo.mem_fullFiles {path : String} {d : Device} (h : disk.LeadsTo path d)
    (hfull : limit ≤ (disk.contents d).length) : d ∈ disk.fullFiles limit := by
  obtain ⟨p, place, -, hw⟩ := h
  obtain ⟨q, name, slash, hf⟩ := walk_finish (by simp) hw
  have hmem := mem_of_node? (by simp) (finish_device hf).2
  refine List.mem_filter.2 ⟨List.mem_dedup.2 (List.mem_filterMap.2 ⟨_, hmem, rfl⟩), ?_⟩
  exact decide_eq_true hfull

/-- The candidates that a search has come past, as different files. -/
theorem Searchable.exists_devices (h : Searchable name limit first start)
    (hindex : Template.hasIndex name = true) (hlimit : 0 < limit)
    (hreach : Reaches name limit first start index disk) :
    ∃ ds : List Device, first + ds.length = index ∧ ds.Nodup ∧ ∀ d ∈ ds,
      limit ≤ (start.contents d).length ∧ ∃ i < index,
        start.LeadsTo (String.ofList (Template.candidate name i)) d := by
  induction hreach with
  | start => exact ⟨[], rfl, .nil, fun _ h => absurd h List.not_mem_nil⟩
  | @passes index disk disk' found hreach ho hsize ih =>
    obtain ⟨ds, hlength, hnodup, hds⟩ := ih
    have hgrown := hreach.grows.trans (grows_of_openCandidate ho)
    have hleads : start.LeadsTo (String.ofList (Template.candidate name index)) found.device := by
      refine (h.opened hreach ho).resolve_right fun hmissing => ?_
      rw [hmissing.2] at hsize
      exact absurd hlimit (Nat.not_lt.2 hsize)
    have hfull : limit ≤ (start.contents found.device).length := by
      rw [← hgrown.contents]
      exact (openCandidate_ok ho).2.size_eq ▸ hsize
    refine ⟨found.device :: ds, ?_, List.nodup_cons.2 ⟨fun hmem => ?_, hnodup⟩, fun d hd => ?_⟩
    · rw [List.length_cons, ← Nat.add_assoc, hlength]
    · -- a file that was passed before has another counter, and so another path
      obtain ⟨-, i, hlt, hbefore⟩ := hds _ hmem
      match hdevice : found.device with
      | .file id =>
        rw [hdevice] at hleads hbefore
        have hsame := h.parts i index id hbefore hleads
        exact absurd (Template.candidate_inj hindex hsame) (Nat.ne_of_lt hlt)
      | .null => rw [hdevice] at hfull; exact absurd hlimit (Nat.not_lt.2 hfull)
      | .full => rw [hdevice] at hfull; exact absurd hlimit (Nat.not_lt.2 hfull)
    · rcases List.mem_cons.1 hd with rfl | hd
      · exact ⟨hfull, index, Nat.lt_succ_self _, hleads⟩
      · obtain ⟨hbig, i, hlt, hbefore⟩ := hds d hd
        exact ⟨hbig, i, Nat.lt_succ_of_lt hlt, hbefore⟩

/-- A search comes no further than there are files that have reached the limit. -/
theorem Searchable.le_fullFiles (h : Searchable name limit first start)
    (hindex : Template.hasIndex name = true) (hlimit : 0 < limit)
    (hreach : Reaches name limit first start index disk) :
    index ≤ first + (start.fullFiles limit).length := by
  obtain ⟨ds, hlength, hnodup, hds⟩ := h.exists_devices hindex hlimit hreach
  have hsub : ds ⊆ start.fullFiles limit := fun d hd => by
    obtain ⟨hfull, i, -, hleads⟩ := hds d hd
    exact hleads.mem_fullFiles hfull
  rw [← hlength]
  exact Nat.add_le_add_left (hnodup.subperm hsub).length_le first

/-- From where a search has come it goes on to its end: some candidate is below the limit. -/
theorem Searchable.ends (h : Searchable name limit first start)
    (hindex : Template.hasIndex name = true) (hlimit : 0 < limit)
    (hreach : Reaches name limit first start index disk) :
    ∃ last before next after, index ≤ last ∧ Reaches name limit first start last before ∧
      openCandidate (String.ofList (Template.candidate name last)) before = (.ok next, after) ∧
      next.size < limit ∧
      Probes name limit index disk (last + 1 - index) ⟨.ok next, last + 1, after⟩ := by
  -- on the full files that are left: each candidate that is passed over takes one of them
  generalize hleft : first + (start.fullFiles limit).length - index = left
  induction left using Nat.strongRecOn generalizing index disk with
  | ind left ih =>
    obtain ⟨found, disk', ho⟩ := h.opens _ _ hreach
    rcases Nat.lt_or_ge found.size limit with hsize | hsize
    · refine ⟨index, disk, found, disk', Nat.le_refl _, hreach, ho, hsize, ?_⟩
      rw [Nat.add_sub_cancel_left]
      exact .adopts ho hsize
    · have hnext := hreach.passes ho hsize
      have hle := h.le_fullFiles hindex hlimit hnext
      obtain ⟨last, before, next, after, hge, hlast, hopen, hroom, hprobes⟩ :=
        ih _ (by omega) hnext rfl
      refine ⟨last, before, next, after, Nat.le_of_succ_le hge, hlast, hopen, hroom, ?_⟩
      rw [show last + 1 - index = last + 1 - (index + 1) + 1 by omega]
      exact .passes ho hsize hprobes

/-! ## 4. Folders that are there -/

/-- The folders of all candidates have been made. -/
def HasFolders (name : List Char) (disk : Disk) : Prop :=
  ∀ i parent, parentText? (Template.candidate name i) = some parent → parent ≠ [] →
    disk.isFolder (String.ofList parent) = true

theorem hasFolders_of_flat (h : '/' ∉ name) (disk : Disk) : HasFolders name disk :=
  fun i _ hp hne => absurd (parentText?_flat (Template.slash_not_mem_candidate h i) hp) hne

/-- In folders that are there a candidate is what it was, or a file is made for it. -/
theorem HasFolders.opened (h : HasFolders name disk) {found : Candidate}
    (ho : openCandidate (String.ofList (Template.candidate name index)) disk = (.ok found, disk')) :
    disk' = disk ∧ disk.LeadsTo (String.ofList (Template.candidate name index)) found.device ∨
      disk'.files = disk.files ++ [[]] := by
  have hfolder : makeParent (String.ofList (Template.candidate name index)) disk =
      (.ok (), disk) := by
    refine makeParent_again fun parent hp => h index parent ?_
    rwa [String.toList_ofList] at hp
  obtain ⟨prepared, hmade, hopened⟩ := openCandidate_cases ho
  obtain rfl := (Prod.mk.inj (hfolder.symm.trans hmade)).2
  exact hopened.imp_right And.left

/-- In folders that are there a search leaves the disk as it is until it has found one. -/
theorem HasFolders.reaches (h : HasFolders name start) (hlimit : 0 < limit)
    (hreach : Reaches name limit first start index disk) : disk = start := by
  induction hreach with
  | start => rfl
  | passes _ ho hsize ih =>
    subst ih
    refine (h.opened ho).elim And.left fun hnew => ?_
    rw [openCandidate_full hlimit ho hsize] at hnew
    exact absurd hnew (by simp)

/-- In folders that are there nothing can be made that opens a way to a file. -/
theorem HasFolders.searchable (h : HasFolders name start) (hlimit : 0 < limit)
    (hopens : ∀ index, Reaches name limit first start index start → ∃ found disk',
      openCandidate (String.ofList (Template.candidate name index)) start = (.ok found, disk'))
    (hparts : Parts name start) : Searchable name limit first start where
  opens index disk hreach := by
    obtain rfl := h.reaches hlimit hreach
    exact hopens index hreach
  makes index disk found disk' hreach ho hmissing := by
    obtain rfl := h.reaches hlimit hreach
    obtain ⟨-, hleads⟩ | hnew := h.opened ho
    · exact absurd hleads (hmissing _)
    · rw [hnew]
      simp
  parts := hparts

/-! ## 5. What it comes to -/

/-- There are no more full files than names. -/
theorem Disk.fullFiles_length_le (disk : Disk) (limit : Nat) :
    (disk.fullFiles limit).length ≤ disk.nodes.length :=
  calc (disk.fullFiles limit).length
    _ ≤ (disk.nodes.filterMap fun entry => entry.2.device?).dedup.length :=
      List.length_filter_le _ _
    _ ≤ (disk.nodes.filterMap fun entry => entry.2.device?).length :=
      (List.dedup_sublist _).length_le
    _ ≤ disk.nodes.length := List.length_filterMap_le _ _

namespace Rotating

/-- A sink has moved on to the first candidate below the limit from a counter on. Given are the disk
before and after the search. -/
structure AdoptsFirst (name : List Char) (first limit : Nat) (disk after : Disk) (w : Rotating)
    (index : Nat) : Prop where
  first_le : first ≤ index
  current : w.current = String.ofList (Template.candidate name index)
  nextIndex : w.nextIndex = index + 1
  leadsTo : after.LeadsTo w.current w.file.device
  hasSize : disk.HasSize w.current w.size
  room : w.size < limit
  passedOver : ∀ i, first ≤ i → i < index → ∃ size,
    disk.HasSize (String.ofList (Template.candidate name i)) size ∧ limit ≤ size
  contents : ∀ d, after.contents d = disk.contents d
  files : after.files = disk.files ∨
    after.files = disk.files ++ [[]] ∧ w.file.device = .file disk.files.length

/-- If every candidate that a search comes to can be opened, one that was missing is made and
different ones lead to different files, a sink that moves on comes to an end of its search, after no
more tries than there are full files and one more. It adopts the first candidate that was below the
limit, where one that was missing counts as empty, and goes on from the counter after it. Nothing is
made but that file, and no file changes. -/
theorem rotate_adopts_first (w : Rotating) (host : Host) (hindexed : w.indexed = true)
    (hindex : Template.hasIndex w.template.toList = true) (hlimit : 0 < w.limit)
    (hsearch : Searchable (resolved w.template host) w.limit w.nextIndex host.disk) :
    ∃ index tries next after w' host',
      Probes (resolved w.template host) w.limit w.nextIndex host.disk tries
        ⟨.ok next, index + 1, after⟩ ∧
      tries ≤ (host.disk.fullFiles w.limit).length + 1 ∧
      w.rotate host = (.ok (), w', host') ∧
      AdoptsFirst (resolved w.template host) w.nextIndex w.limit host.disk after w' index := by
  have hindex : Template.hasIndex (resolved w.template host) = true := by
    rw [resolved, Template.hasIndex_resolve]
    exact hindex
  obtain ⟨last, before, next, after, hge, hlast, hopen, hroom, hprobes⟩ :=
    hsearch.ends hindex hlimit .start
  have hle := hsearch.le_fullFiles hindex hlimit hlast
  have htries : last + 1 - w.nextIndex ≤ (host.disk.fullFiles w.limit).length + 1 := by omega
  have hs : search (resolved w.template host) w.indexed w.limit w.nextIndex host.disk =
      ⟨.ok next, last + 1, after⟩ := by
    rw [hindexed]
    exact searchFrom_of_probes hprobes
      (Nat.le_trans htries (Nat.succ_le_succ (host.disk.fullFiles_length_le w.limit)))
  obtain ⟨w', host', hrotate⟩ : ∃ w' host', w.rotate host = (.ok (), w', host') := by
    obtain ⟨e, he, -⟩ | ⟨_, -, hr⟩ := w.rotate_cases host hs
    · cases he
    · exact ⟨_, _, hr⟩
  obtain ⟨_, next', rfl, hnext, hgone⟩ := rotate_found hrotate
  rw [hs] at hnext hgone
  obtain rfl := Except.ok.inj hnext
  obtain ⟨hpath, hisOpen⟩ := openCandidate_ok hopen
  have hgrown := hlast.grows.trans (grows_of_openCandidate hopen)
  have hdevice : w'.file.device = next.device := by rw [hgone.file]; rfl
  have hfiles := openCandidate_files hopen
  rw [hlast.files hlimit, ← hdevice] at hfiles
  refine ⟨last, last + 1 - w.nextIndex, next, after, w', host', hprobes, htries, hrotate, ?_⟩
  exact
    { first_le := hge
      current := hgone.current.trans hpath
      nextIndex := hgone.nextIndex
      leadsTo := by
        rw [hgone.current, hdevice]
        exact hisOpen.offers.leadsTo
      hasSize := by
        rw [hgone.current, hgone.size, hpath]
        exact hsearch.hasSize hlast hopen
      room := hgone.size ▸ hroom
      passedOver := hsearch.passedOver hlast
      contents := hgrown.contents
      files := hfiles }

/-- Two full files, and a third one with room. -/
def partlyFull : Disk where
  nodes := Disk.empty.nodes ++ [(⟨.work, ["a-0.log"]⟩, .device (.file 0)),
    (⟨.work, ["a-1.log"]⟩, .device (.file 1)), (⟨.work, ["a-2.log"]⟩, .device (.file 2))]
  files := [List.replicate 10 0x61, List.replicate 12 0x61, List.replicate 3 0x61]

theorem isPlain_partlyFull : partlyFull.IsPlain := by
  refine ⟨fun place id h => ?_, fun place target h => ?_, fun p q id hp hq => ?_⟩
  · simp [partlyFull, Disk.empty] at h ⊢
    omega
  · simp [partlyFull, Disk.empty] at h
  · simp [partlyFull, Disk.empty] at hp hq
    rcases hp with ⟨rfl, rfl⟩ | ⟨rfl, rfl⟩ | ⟨rfl, rfl⟩ <;> simp at hq <;> exact hq.symm

theorem open_partlyFull :
    openCandidate (String.ofList (Template.candidate "a-index.log".toList 0)) partlyFull =
        (.ok ⟨.file 0, "a-0.log", 10⟩, partlyFull) ∧
      openCandidate (String.ofList (Template.candidate "a-index.log".toList 1)) partlyFull =
        (.ok ⟨.file 1, "a-1.log", 12⟩, partlyFull) ∧
      openCandidate (String.ofList (Template.candidate "a-index.log".toList 2)) partlyFull =
        (.ok ⟨.file 2, "a-2.log", 3⟩, partlyFull) :=
  ⟨by rfl, by rfl, by rfl⟩

/-- Among the full files a search stays on the disk as it is, and it goes no further. -/
theorem reaches_partlyFull {index : Nat} {disk : Disk}
    (h : Reaches "a-index.log".toList 10 0 partlyFull index disk) :
    disk = partlyFull ∧ (index = 0 ∨ index = 1 ∨ index = 2) := by
  obtain ⟨h₀, h₁, h₂⟩ := open_partlyFull
  induction h with
  | start => exact ⟨rfl, .inl rfl⟩
  | passes _ ho hsize ih =>
    obtain ⟨rfl, rfl | rfl | rfl⟩ := ih
    · rw [h₀] at ho
      exact ⟨(Prod.mk.inj ho).2.symm, .inr (.inl rfl)⟩
    · rw [h₁] at ho
      exact ⟨(Prod.mk.inj ho).2.symm, .inr (.inr rfl)⟩
    · rw [h₂] at ho
      obtain rfl := Except.ok.inj (Prod.mk.inj ho).1
      exact absurd hsize (by decide)

/-- A sink on such a disk. -/
def partlyFullHost : Host :=
  { Host.start "/home" (.fixed 0) ⟨1718447405, 0⟩ with disk := partlyFull }

def partlyFullSink : Rotating :=
  ⟨"a-index.log", false, 10, true, 0, ⟨0, 0⟩, 0, .ofDevice .null, "", []⟩

theorem parts_of_apart {template : String} {t : Time.Stamp} {disk : Disk}
    (ht : Template.HasPlainYear t) (h : Apart template disk) :
    Parts (Template.resolve template.toList t) disk := by
  intro i j id hi hj
  exact String.ofList_injective (h _ _ id ⟨t, i, ht, rfl⟩ ⟨t, j, ht, rfl⟩ hi hj)

theorem searchable_partlyFull : Searchable "a-index.log".toList 10 0 partlyFull := by
  have hname : Template.resolve "a-index.log".toList ⟨⟨0, 0⟩, 0⟩ = "a-index.log".toList := by rfl
  have happart : Apart "a-index.log" partlyFull := apart_of_flat isPlain_partlyFull (by decide)
  have hparts := parts_of_apart (t := ⟨⟨0, 0⟩, 0⟩) (by decide) happart
  rw [hname] at hparts
  have hfolders : HasFolders "a-index.log".toList partlyFull := hasFolders_of_flat (by decide) _
  refine hfolders.searchable (by decide) (fun index h => ?_) hparts
  obtain ⟨h₀, h₁, h₂⟩ := open_partlyFull
  obtain ⟨-, rfl | rfl | rfl⟩ := reaches_partlyFull h
  · exact ⟨_, _, h₀⟩
  · exact ⟨_, _, h₁⟩
  · exact ⟨_, _, h₂⟩

theorem rotate_adopts_first_partlyFull :
    partlyFullSink.indexed = true ∧ Template.hasIndex partlyFullSink.template.toList = true ∧
      0 < partlyFullSink.limit ∧ Searchable "a-index.log".toList 10 0 partlyFull ∧
      ∃ index tries next after w' host',
        Probes "a-index.log".toList 10 0 partlyFull tries ⟨.ok next, index + 1, after⟩ ∧
        tries ≤ (partlyFull.fullFiles 10).length + 1 ∧
        partlyFullSink.rotate partlyFullHost = (.ok (), w', host') ∧
        AdoptsFirst "a-index.log".toList 0 10 partlyFull after w' index := by
  have hindex : Template.hasIndex partlyFullSink.template.toList = true := by decide
  refine ⟨rfl, hindex, by decide, searchable_partlyFull, ?_⟩
  exact rotate_adopts_first partlyFullSink partlyFullHost rfl hindex (by decide)
    searchable_partlyFull

/-- A full file that the first candidates lead to through folders of their own, while the folder of
the third one is a link to another place. -/
def folded : Disk where
  nodes := Disk.empty.nodes ++ [(⟨.work, ["a.log"]⟩, .device (.file 0)), (⟨.work, ["d"]⟩, .folder),
    (⟨.work, ["d", "e"]⟩, .folder), (⟨.work, ["2"]⟩, .link (.below "d/e"))]
  files := [List.replicate 10 0x61]

/-- Candidates that lead to one file: there is one full file, the first candidate is missing, and it
takes three tries to come to one with room. -/
theorem probes_same_file :
    (folded.fullFiles 10).length = 1 ∧
      folded.read "0/../a.log" = .error (.refused .notFound) ∧
      ∃ result next, Probes "index/../a.log".toList 10 0 folded 3 result ∧
        result.outcome = .ok next ∧ next.path = "2/../a.log" := by
  refine ⟨by decide, by rfl, ?_⟩
  have hfound : ∃ next, (searchFrom "index/../a.log".toList true 10 3 0 folded).outcome =
      .ok next ∧ next.path = "2/../a.log" := ⟨_, by rfl, by rfl⟩
  obtain ⟨next, hnext, hpath⟩ := hfound
  have hprobes := probes_of_searchFrom hnext
  have htries : (searchFrom "index/../a.log".toList true 10 3 0 folded).nextIndex = 3 := by rfl
  rw [htries] at hprobes
  exact ⟨_, next, hprobes, hnext, hpath⟩

end Rotating

end Logbook
