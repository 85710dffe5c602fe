import Mathlib.Data.Finset.Card
import Logbook.Proofs.Rotating.Counting

/-!
# Where a restarted sink goes on

A sink that is opened anew takes the first file below the limit. A sink moves on before the write
with which its file would reach the limit, so a file can be left behind below it: then the sink that
is opened anew goes back to that file instead of going on where the last one stopped.

Results:
1. `same_place_all`: two candidates share a file only if all candidates do.
2. `LeftBehind.file_numbered`: every file that holds something is one of those counted through.
3. `restart_resumes_iff`: a restarted sink goes on where the last one stopped if and only if every
   file before that one has reached the limit.
4. `restart_goes_back`: a run in which it does not.
-/

namespace Logbook

/-! ## 1. Candidates that share a place -/

theorem place?_numbered (s : String) (i : Nat) :
    (Path.ofText (numbered i s)).place? =
      (Path.ofText s).place?.map (Place.rename (numbered i)) := by
  have hdots (name : String) : numbered i name = ".." ↔ name = ".." :=
    numbered_eq_iff (by decide) (by decide)
  obtain ⟨habsolute, hfolders, hlast⟩ := ofText_numbered s i
  rw [Path.place?, Path.place?, habsolute, hfolders, hlast, Option.map_map, Option.map_map]
  refine congrArg (Option.map · _) (funext fun name => ?_)
  show Place.child _ (numbered i name) = Place.rename (numbered i) (Place.child _ name)
  rw [← Place.child_rename, ← Place.through_rename hdots]
  rfl

/-- If two candidates of a path are at one place, the counter does not matter for any of them. -/
theorem same_place_all {s : String} {i j : Nat} (hij : i ≠ j)
    (h : (Path.ofText (numbered i s)).place? = (Path.ofText (numbered j s)).place?) (k : Nat) :
    (Path.ofText (numbered k s)).place? = (Path.ofText (numbered i s)).place? := by
  rw [place?_numbered, place?_numbered] at h ⊢
  cases hp : (Path.ofText s).place? with
  | none => rfl
  | some place =>
    rw [hp, Option.map_some, Option.map_some, Option.some.injEq] at h
    have hnames : place.names.map (numbered i) = place.names.map (numbered j) :=
      congrArg Place.names h
    have hconst : ∀ name ∈ place.names, numbered k name = numbered i name := fun name hmem => by
      have hname := List.map_inj_left.mp hnames name hmem
      rw [numbered_const hij hname k, numbered_const hij hname i]
    rw [Option.map_some, Option.map_some, Place.rename, Place.rename,
      List.map_inj_left.mpr hconst]

namespace Rotating

/-! ## 2. What a session leaves behind -/

/-- What a session that began on an empty disk leaves behind: files up to the counter `n`, and
nothing else that holds anything. -/
structure LeftBehind (template : String) (n : Nat) (disk : Disk) : Prop where
  plain : disk.IsPlain
  offered : ∀ i ≤ n, ∃ d, disk.Offers (numbered i template) d
  file_numbered : ∀ d, disk.contents d ≠ [] → ∃ i ≤ n, disk.LeadsTo (numbered i template) d

variable {template : String} {tee : Bool} {maxSize : Nat} {hooks : List Hook}

theorem mem_of_placed {log : List Placement} {id : Nat} (h : placed log id ≠ []) :
    ∃ entry ∈ log, entry.device = .file id := by
  refine Classical.byContradiction fun hno => h ?_
  rw [placed, List.flatMap_eq_nil_iff]
  intro entry hmem
  rw [Disk.share, if_neg fun hd => hno ⟨entry, hmem, hd⟩]

theorem session_leftBehind {host host₁ final : Host} {w : Rotating} {s : Session} {ops : List Op}
    {ending : Ending} (hdate : Template.hasDateTokens template.toList = false)
    (hindex : Template.hasIndex template.toList = true) (hmax : 0 < maxSize)
    (hw : ∀ hook ∈ hooks, hook = .watch) (hempty : host.disk = .empty)
    (hopen : Rotating.open template tee maxSize hooks host = (.ok w, host₁))
    (hrun : Session.run? ⟨w, host₁, []⟩ ops = some s) (hend : s.end? ending = some final) :
    ∃ n, s.writer.current = numbered n template ∧ LeftBehind template n final.disk := by
  have hplain : host.disk.IsPlain := hempty ▸ Disk.isPlain_empty
  have hcounts := Session.run_counts hdate (open_counts hdate hindex hmax hw hplain hopen) hrun
  obtain ⟨hholds, -⟩ := Session.run_holds (open_holds hplain.sound hopen) hrun
  obtain ⟨hkeeps, -, -, hcontents⟩ := Session.end_holds hholds hend
  have hnodes : s.host.disk.nodes <+: final.disk.nodes := hkeeps.nodes ▸ List.prefix_rfl
  obtain ⟨n, hnext, hcurrent⟩ := hcounts.writer.current
  refine ⟨n, hcurrent, hkeeps.plain hcounts.writer.plain, fun i hi => ?_, fun d hd => ?_⟩
  · have hlt : i < s.writer.nextIndex := hnext ▸ Nat.lt_succ_of_le hi
    exact (hcounts.writer.offered i hlt).imp fun _ hd => hd.mono hnodes
  · cases d with
    | null => exact absurd rfl hd
    | full => exact absurd rfl hd
    | file id =>
      have hplaced : final.disk.contents (.file id) = placed s.log id := by
        rw [hcontents, hholds.promised, hempty]
        rfl
      -- what the file holds was written to it, and only counted files were written to
      obtain ⟨entry, hmem, hdevice⟩ := mem_of_placed (hplaced ▸ hd)
      obtain ⟨i, hi, hpath⟩ := hcounts.logged entry hmem
      have hlead := (hholds.directed hw entry hmem).mono hnodes
      rw [hdevice, hpath] at hlead
      have hi : i < n + 1 := hnext ▸ hi
      exact ⟨i, Nat.le_of_lt_succ hi, hlead⟩

/-! ## 3. Opening anew -/

variable {n : Nat} {disk : Disk}

/-- What is found on a disk that a session has left behind: the first candidate below the limit, at
most the one after the last. -/
theorem LeftBehind.found (h : LeftBehind template n disk) (hmax : 0 < maxSize) {next : Candidate}
    (hnext : (search template.toList true maxSize 0 disk).outcome = .ok next) :
    ∃ k ≤ n + 1, next.path = numbered k template ∧
      (∀ i ≤ n, i < k → disk.IsFull maxSize (numbered i template)) ∧
      (k ≤ n → ¬ disk.IsFull maxSize (numbered k template)) := by
  have hgrows := search_grows template.toList true maxSize 0 disk
  generalize hs : search template.toList true maxSize 0 disk = found at hgrows hnext
  have hopen := search_ok hs hnext
  obtain ⟨k, -, -, hpath, hlt, hpassed⟩ := search_first hs hnext
  have hk : found.disk.Offers (numbered k template) next.device := by
    rw [numbered, ← hpath]
    exact hopen.offers
  have hsize : next.size = (disk.contents next.device).length := by
    rw [hopen.size_eq, hgrows.contents]
  have hfull {i : Nat} (hi : i ≤ n) {d : Device}
      (hd : found.disk.Offers (numbered i template) d) :
      disk.IsFull maxSize (numbered i template) ↔ maxSize ≤ (disk.contents d).length := by
    obtain ⟨d', hd'⟩ := h.offered i hi
    obtain rfl := (hd'.leadsTo.mono hgrows.nodes).unique hd.leadsTo
    exact hd'.leadsTo.isFull_iff maxSize
  refine ⟨k, Nat.le_of_not_lt fun hbeyond => ?_, hpath, fun i hi hik => ?_, fun hkn => ?_⟩
  · -- the candidate after the last one was full: it is a file of the session under another name,
    -- so all candidates are that file
    obtain ⟨d, hd, hle⟩ := hpassed (n + 1) (Nat.zero_le _) hbeyond
    rw [hgrows.contents] at hle
    have hne : disk.contents d ≠ [] := fun hnil => by
      rw [hnil] at hle
      exact absurd hmax (Nat.not_lt_of_le hle)
    obtain ⟨j, hj, hlead⟩ := h.file_numbered d hne
    have hj' := hlead.mono hgrows.nodes
    have hplain := hgrows.plain h.plain
    have hsame : (Path.ofText (numbered j template)).place? =
        (Path.ofText (numbered (n + 1) template)).place? := by
      cases d with
      | null => exact absurd rfl hne
      | full => exact absurd rfl hne
      | file id => exact hj'.same_place hd.leadsTo hplain
    have hall := same_place_all (Nat.ne_of_lt (Nat.lt_succ_of_le hj)) hsame k
    obtain rfl := hk.leadsTo.same_device hj' hplain hall
    exact absurd hle (Nat.not_le_of_lt (hsize ▸ hlt))
  · obtain ⟨d, hd, hle⟩ := hpassed i (Nat.zero_le _) hik
    rw [hgrows.contents] at hle
    exact (hfull hi hd).mpr hle
  · rw [hfull hkn hk, ← hsize]
    exact Nat.not_le_of_lt hlt

/-- If the files up to the last one are full and the last one is not, then they are different files,
and there are as many names on the disk. -/
theorem LeftBehind.le_length (h : LeftBehind template n disk)
    (hfull : ∀ i < n, disk.IsFull maxSize (numbered i template))
    (hlast : ¬ disk.IsFull maxSize (numbered n template)) : n ≤ disk.nodes.length := by
  let place (i : Nat) := (Path.ofText (numbered i template)).place?
  let places := (disk.nodes.map fun entry => some entry.1).toFinset
  have hmaps : ∀ i ∈ Finset.range n, place i ∈ places := by
    intro i hi
    obtain ⟨d, hd⟩ := h.offered i (Nat.le_of_lt (Finset.mem_range.mp hi))
    obtain ⟨p, hp, hnode⟩ := hd.leadsTo.place h.plain
    exact List.mem_toFinset.mpr
      (List.mem_map.mpr ⟨(p, .device d), Disk.mem_of_node? (by simp) hnode, hp.symm⟩)
  have hinj : ∀ i ∈ Finset.range n, ∀ j ∈ Finset.range n, place i = place j → i = j := by
    intro i hi j hj hsame
    -- two names for one file would make the last file that file, and it would be full
    refine Classical.byContradiction fun hij => hlast ?_
    have hi := Finset.mem_range.mp hi
    obtain ⟨d, hd⟩ := h.offered i (Nat.le_of_lt hi)
    obtain ⟨d', hd'⟩ := h.offered n (Nat.le_refl n)
    obtain rfl := hd'.leadsTo.same_device hd.leadsTo h.plain (same_place_all hij hsame n)
    exact (hd'.leadsTo.isFull_iff maxSize).mpr ((hd.leadsTo.isFull_iff maxSize).mp (hfull i hi))
  calc n = (Finset.range n).card := (Finset.card_range n).symm
    _ ≤ places.card := Finset.card_le_card_of_injOn place hmaps hinj
    _ ≤ (disk.nodes.map fun entry => some entry.1).length := List.toFinset_card_le _
    _ = disk.nodes.length := List.length_map _

/-- If the files up to the last one are full and the last one is not, the last one is found. -/
theorem LeftBehind.last_found (h : LeftBehind template n disk)
    (hfull : ∀ i < n, disk.IsFull maxSize (numbered i template))
    (hlast : ¬ disk.IsFull maxSize (numbered n template)) :
    ∃ next, (search template.toList true maxSize 0 disk).outcome = .ok next := by
  obtain ⟨d, hd⟩ := h.offered n (Nat.le_refl n)
  have hlt := Nat.lt_of_not_le (mt (hd.leadsTo.isFull_iff maxSize).mpr hlast)
  refine ⟨_, search_offered (h.le_length hfull hlast) (fun i _ hi => ?_) hd hlt⟩
  obtain ⟨d', hd'⟩ := h.offered i (Nat.le_of_lt hi)
  exact ⟨d', hd', (hd'.leadsTo.isFull_iff maxSize).mp (hfull i hi)⟩

theorem open_of_search {host : Host} {next : Candidate}
    (h : (search (resolved template host) (Template.hasIndex template.toList)
      (limitFor template maxSize) 0 host.disk).outcome = .ok next) :
    ∃ w' host', Rotating.open template tee maxSize hooks host = (.ok w', host') := by
  cases ho : Rotating.open template tee maxSize hooks host with
  | mk result host' =>
    cases result with
    | ok w' => exact ⟨w', host', rfl⟩
    | error e =>
      unfold Rotating.open at ho
      dsimp only at ho
      split at ho
      · next he => exact absurd (h.symm.trans he) (by simp)
      · cases ho

/-- A sink goes on where one stopped that was at the file of the counter `n`: in that file, or in
the next one if that file has reached the limit. -/
structure Resumes (template : String) (maxSize n : Nat) (disk : Disk) (w : Rotating) : Prop where
  same : ¬ disk.IsFull maxSize (numbered n template) → w.current = numbered n template
  next : disk.IsFull maxSize (numbered n template) → w.current = numbered (n + 1) template

/-- A sink writes from an empty disk on and is given up; later one is opened for the same files. It
goes on where the first one stopped if and only if every file before that one has reached the limit.
If it is to go on in the same file, opening it succeeds. -/
theorem restart_resumes_iff (template : String) (tee : Bool) (maxSize : Nat) (hooks : List Hook)
    (ops : List Op) (ending : Ending) (host host₁ final later : Host) (w : Rotating) (s : Session)
    (hdate : Template.hasDateTokens template.toList = false)
    (hindex : Template.hasIndex template.toList = true) (hmax : 0 < maxSize)
    (hw : ∀ hook ∈ hooks, hook = .watch) (hempty : host.disk = .empty)
    (hopen : Rotating.open template tee maxSize hooks host = (.ok w, host₁))
    (hrun : Session.run? ⟨w, host₁, []⟩ ops = some s) (hend : s.end? ending = some final)
    (hlater : later.disk = final.disk) :
    ∃ n, s.writer.current = numbered n template ∧
      (∀ w' host', Rotating.open template tee maxSize hooks later = (.ok w', host') →
        (Resumes template maxSize n final.disk w' ↔
          ∀ i < n, final.disk.IsFull maxSize (numbered i template))) ∧
      ((∀ i < n, final.disk.IsFull maxSize (numbered i template)) →
        ¬ final.disk.IsFull maxSize (numbered n template) →
        ∃ w' host', Rotating.open template tee maxSize hooks later = (.ok w', host')) := by
  obtain ⟨n, hcurrent, hleft⟩ :=
    session_leftBehind hdate hindex hmax hw hempty hopen hrun hend
  have hsearch : search (resolved template later) (Template.hasIndex template.toList)
      (limitFor template maxSize) 0 later.disk =
        search template.toList true maxSize 0 final.disk := by
    rw [resolved_undated hdate, hindex, limitFor_indexed hindex hmax, hlater]
  refine ⟨n, hcurrent, fun w' host' hagain => ?_, fun hfull hlast => ?_⟩
  · obtain ⟨next, works, hnext, rfl, rfl⟩ := open_cases hsearch hagain
    -- the new sink is at the counter `k`, the first one whose file is not full
    obtain ⟨k, hk, hpath, hbefore, hat⟩ := hleft.found hmax hnext
    have hname {j : Nat} : next.path = numbered j template ↔ k = j := by
      rw [hpath]
      exact ⟨numbered_inj hindex, fun h => h ▸ rfl⟩
    constructor
    · intro hresumes i hi
      refine hbefore i (Nat.le_of_lt hi) (Nat.lt_of_lt_of_le hi ?_)
      by_cases hn : final.disk.IsFull maxSize (numbered n template)
      · exact hname.mp (hresumes.next hn) ▸ Nat.le_succ n
      · exact hname.mp (hresumes.same hn) ▸ Nat.le_refl n
    · intro hfull
      have hle : n ≤ k := Nat.le_of_not_lt fun hlt => hat (Nat.le_of_lt hlt) (hfull k hlt)
      refine ⟨fun hn => hname.mpr ?_, fun hn => hname.mpr ?_⟩
      · exact Nat.le_antisymm (Nat.le_of_not_lt fun hlt => hn (hbefore n (Nat.le_refl n) hlt)) hle
      · refine Nat.le_antisymm hk (Nat.lt_of_le_of_ne hle ?_)
        rintro rfl
        exact hat (Nat.le_refl _) hn
  · obtain ⟨next, hnext⟩ := hleft.last_found hfull hlast
    rw [← hsearch] at hnext
    exact open_of_search hnext

/-! ## 4. Two lifetimes -/

/-- A sink is opened, used and given up, and opened anew: the session, the host after it, and the
sink that goes on. Nothing if anything fails on the way. -/
def restart? (template : String) (tee : Bool) (maxSize : Nat) (hooks : List Hook) (ops : List Op)
    (ending : Ending) (host : Host) : Option (Session × Host × Rotating) :=
  match Rotating.open template tee maxSize hooks host with
  | (.error _, _) => none
  | (.ok w, host) => do
    let s ← Session.run? ⟨w, host, []⟩ ops
    let final ← s.end? ending
    match Rotating.open template tee maxSize hooks final with
    | (.error _, _) => none
    | (.ok w', _) => some (s, final, w')

theorem restart_cases {ops : List Op} {ending : Ending} {host final : Host} {s : Session}
    {w' : Rotating}
    (h : restart? template tee maxSize hooks ops ending host = some (s, final, w')) :
    ∃ w host₁ host', Rotating.open template tee maxSize hooks host = (.ok w, host₁) ∧
      Session.run? ⟨w, host₁, []⟩ ops = some s ∧ s.end? ending = some final ∧
      Rotating.open template tee maxSize hooks final = (.ok w', host') := by
  unfold restart? at h
  split at h
  · cases h
  next w host₁ hopen =>
  obtain ⟨s', hrun, h⟩ := Option.bind_eq_some_iff.mp h
  obtain ⟨final', hend, h⟩ := Option.bind_eq_some_iff.mp h
  split at h
  · cases h
  next w'' host' hagain =>
  cases h
  exact ⟨w, host₁, host', hopen, hrun, hend, hagain⟩

/-- A host with an empty working folder. -/
def emptyHost : Host := .start "/home" (.fixed 0) ⟨1718445600, 0⟩

/-- The first file is filled up before the second one is begun. -/
def filling : List Op := [.write (Utf8.ofString "0123456789"), .write (Utf8.ofString "x")]

theorem restart_resumes_iff_filling :
    ∃ w host₁ s final,
      Rotating.open "a-index.log" false 10 [] emptyHost = (.ok w, host₁) ∧
      Session.run? ⟨w, host₁, []⟩ filling = some s ∧ s.end? .drop = some final ∧
      ∃ n, s.writer.current = numbered n "a-index.log" ∧
        (∀ w' host', Rotating.open "a-index.log" false 10 [] final = (.ok w', host') →
          (Resumes "a-index.log" 10 n final.disk w' ↔
            ∀ i < n, final.disk.IsFull 10 (numbered i "a-index.log"))) ∧
        ((∀ i < n, final.disk.IsFull 10 (numbered i "a-index.log")) →
          ¬ final.disk.IsFull 10 (numbered n "a-index.log") →
          ∃ w' host', Rotating.open "a-index.log" false 10 [] final = (.ok w', host')) := by
  have hsome : (restart? "a-index.log" false 10 [] filling .drop emptyHost).isSome := by
    decide +kernel
  obtain ⟨⟨s, final, w'⟩, h⟩ := Option.isSome_iff_exists.mp hsome
  obtain ⟨w, host₁, -, hopen, hrun, hend, -⟩ := restart_cases h
  exact ⟨w, host₁, s, final, hopen, hrun, hend,
    restart_resumes_iff "a-index.log" false 10 [] filling .drop emptyHost host₁ final final w s
      (by decide) (by decide) (by decide) (by decide) rfl hopen hrun hend rfl⟩

/-- The second write would fill the first file beyond its limit, so the file is left behind below
it. -/
def leavingRoom : List Op := [.write (Utf8.ofString "aaaaaa"), .write (Utf8.ofString "aaaaaa")]

/-- The sink stopped in the second file, which is below the limit. Opened anew it is at the first
one. -/
theorem restart_goes_back :
    Template.hasDateTokens "a-index.log".toList = false ∧
    Template.hasIndex "a-index.log".toList = true ∧ emptyHost.disk = .empty ∧
    (∀ bytes ∈ Op.buffers leavingRoom, bytes ≠ []) ∧
    ∃ s final w', restart? "a-index.log" false 10 [] leavingRoom .drop emptyHost =
        some (s, final, w') ∧
      s.writer.current = "a-1.log" ∧ ¬ final.disk.IsFull 10 "a-1.log" ∧ w'.current = "a-0.log" ∧
      ¬ Resumes "a-index.log" 10 1 final.disk w' := by
  refine ⟨by decide, by decide, rfl, by decide, ?_⟩
  -- sinks and disks have no decidable equality, so what is compared is read off from them
  have hrun : (restart? "a-index.log" false 10 [] leavingRoom .drop emptyHost).map
      (fun (s, final, w') => (s.writer.current,
        (final.disk.read "a-1.log").toOption.map List.length, w'.current)) =
      some ("a-1.log", some 6, "a-0.log") := by
    decide +kernel
  obtain ⟨⟨s, final, w'⟩, h, hvalues⟩ := Option.map_eq_some_iff.mp hrun
  obtain ⟨hlast, hsize, hagain⟩ : s.writer.current = "a-1.log" ∧
      (final.disk.read "a-1.log").toOption.map List.length = some 6 ∧ w'.current = "a-0.log" := by
    simpa using hvalues
  have hroom : ¬ final.disk.IsFull 10 "a-1.log" := by
    rintro ⟨bytes, hread, hle⟩
    rw [hread] at hsize
    have hsix : bytes.length = 6 := Option.some.inj hsize
    omega
  have hname : numbered 1 "a-index.log" = "a-1.log" := by decide
  refine ⟨s, final, w', h, hlast, hroom, hagain, fun hresumes => ?_⟩
  have hsame := hresumes.same (hname.symm ▸ hroom)
  rw [hagain, hname] at hsame
  exact absurd hsame (by decide)

end Rotating

end Logbook
