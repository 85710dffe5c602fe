import Logbook.Proofs.Rotating.Counting
import Logbook.Proofs.Rotating.Adopting
import Logbook.Proofs.Template.Resolving

/-!
# Files that are kept apart by their names

What is known about the sizes of the files depends on different candidates being different files.
Names that are not links see to that where the template names files of the working folder, since a
session with watchers alone makes no links.

Results:
1. `apart_of_flat`: on a disk without links the candidates of a template without slashes are
   different files.
2. `Session.run_widens`: the names on a disk during a session.
3. `session_outcome`: the names and the contents of the files in the end.
-/

namespace Logbook

/-! ## 1. Different names, different files -/

/-- A path that a template gives at some time in the years from 0 to 9999 with some counter. -/
def IsCandidate (template path : String) : Prop :=
  ∃ t k, Template.HasPlainYear t ∧
    path = String.ofList (Template.candidate (Template.resolve template.toList t) k)

/-- Different candidates of a template lead to different files. -/
def Apart (template : String) (disk : Disk) : Prop :=
  ∀ p q id, IsCandidate template p → IsCandidate template q → disk.LeadsTo p (.file id) →
    disk.LeadsTo q (.file id) → p = q

theorem Apart.mono {template : String} {disk disk' : Disk} (h : disk.nodes <+: disk'.nodes)
    (hapart : Apart template disk') : Apart template disk :=
  fun p q id hp hq hpid hqid => hapart p q id hp hq (hpid.mono h) (hqid.mono h)

/-- A path without slashes names a place in the working folder. -/
theorem place?_of_flat {s : String} {place : Place} (h : '/' ∉ s.toList)
    (hp : (Path.ofText s).place? = some place) : place = ⟨.work, [s]⟩ := by
  have hsplit := splitSlashes_of_not_mem h
  have habsolute : (s.toList.head? == some '/') = false := by
    rw [beq_eq_false_iff_ne]
    intro hhead
    exact h (List.mem_of_head? hhead)
  rw [Path.ofText, hsplit] at hp
  cases hs : s.toList with
  | nil =>
    rw [hs] at hp
    cases hp
  | cons c rest =>
    have hname : ([s.toList].filter fun name => !name.isEmpty) = [s.toList] := by
      rw [hs]
      rfl
    rw [hname, habsolute] at hp
    dsimp only [List.getLast?_singleton] at hp
    split at hp
    · cases hp
    · rw [String.ofList_toList] at hp
      exact (Option.some.inj hp).symm

theorem slash_not_mem_of_alike {s s' : List Char} (h : List.Forall₂ Text.Alike s s')
    (hs : '/' ∉ s) : '/' ∉ s' := by
  induction h with
  | nil => exact hs
  | @cons a b s s' hab _ ih =>
    rw [List.mem_cons, not_or] at hs ⊢
    refine ⟨?_, ih hs.2⟩
    rcases hab with rfl | ⟨-, hb⟩
    · exact hs.1
    · rintro rfl
      exact absurd hb (by decide)

/-- On a disk without links the candidates of a template without slashes are different files. -/
theorem apart_of_flat {template : String} {disk : Disk} (hplain : disk.IsPlain)
    (hflat : '/' ∉ Template.resolve template.toList ⟨⟨0, 0⟩, 0⟩) : Apart template disk := by
  have hstart : Template.HasPlainYear ⟨⟨0, 0⟩, 0⟩ := by decide
  have hname {p : String} (hp : IsCandidate template p) : '/' ∉ p.toList := by
    obtain ⟨t, k, ht, rfl⟩ := hp
    rw [String.toList_ofList]
    exact Template.slash_not_mem_candidate
      (slash_not_mem_of_alike (Template.alike_resolve _ hstart ht) hflat) k
  intro p q id hp hq hpid hqid
  obtain ⟨place, hplace, hnode⟩ := hpid.place hplain
  obtain ⟨place', hplace', hnode'⟩ := hqid.place hplain
  have hsame := hplain.single place place' id (Disk.mem_of_node? (by simp) hnode)
    (Disk.mem_of_node? (by simp) hnode')
  have hp' := place?_of_flat (hname hp) hplace
  have hq' := place?_of_flat (hname hq) hplace'
  rw [hp', hq'] at hsame
  exact (List.cons.inj (Place.mk.inj hsame).2).1

/-! ## 2. Names during a session -/

/-- Folders and names of new files have been added to a disk. -/
structure Disk.Widens (disk disk' : Disk) : Prop where
  nodes : disk.nodes <+: disk'.nodes
  length_le : disk.files.length ≤ disk'.files.length
  added : ∀ entry ∈ disk'.nodes, entry ∈ disk.nodes ∨ entry.2 = .folder ∨
    ∃ id, entry.2 = .device (.file id) ∧ disk.files.length ≤ id
  plain : disk.IsPlain → disk'.IsPlain

theorem Disk.Widens.trans {a b c : Disk} (h : a.Widens b) (h' : b.Widens c) : a.Widens c := by
  refine ⟨h.nodes.trans h'.nodes, Nat.le_trans h.length_le h'.length_le, ?_,
    fun hp => h'.plain (h.plain hp)⟩
  intro entry hmem
  obtain hold | hfolder | ⟨id, hfile, hle⟩ := h'.added entry hmem
  · exact h.added entry hold
  · exact .inr (.inl hfolder)
  · exact .inr (.inr ⟨id, hfile, Nat.le_trans h.length_le hle⟩)

theorem Disk.Widens.refl (disk : Disk) : disk.Widens disk :=
  ⟨List.prefix_rfl, Nat.le_refl _, fun _ hmem => .inl hmem, id⟩

theorem Disk.Grows.widens {disk disk' : Disk} (h : disk.Grows disk') : disk.Widens disk' := by
  refine ⟨h.nodes, ?_, h.added, h.plain⟩
  obtain ⟨k, hk⟩ := h.files
  rw [hk, List.length_append]
  exact Nat.le_add_right _ _

theorem Disk.Keeps.widens {disk disk' : Disk} (h : disk.Keeps disk') : disk.Widens disk' :=
  ⟨h.nodes ▸ List.prefix_rfl, Nat.le_of_eq h.length.symm,
    fun _ hmem => .inl (h.nodes ▸ hmem), h.plain⟩

namespace Rotating

variable {w w' : Rotating} {host host' : Host}

theorem rotate_widens (hw : ∀ hook ∈ w.hooks, hook = .watch)
    (h : w.rotate host = (.ok (), w', host')) : host.disk.Widens host'.disk := by
  have hgrows := search_grows (resolved w.template host) w.indexed w.limit w.nextIndex host.disk
  obtain ⟨found, next, hs, -, hgone⟩ := rotate_found h
  rw [hs] at hgrows
  exact hgrows.widens.trans (hgone.keeps hw).widens

theorem write_widens {bytes : Bytes} (hw : ∀ hook ∈ w.hooks, hook = .watch)
    (h : w.write bytes host = (.ok (), w', host')) :
    host.disk.Widens host'.disk ∧ w'.hooks = w.hooks := by
  obtain ⟨w₁, host₁, w₂, host₂, h₁, h₂, h₃⟩ := write_cases h
  have hsize : host.disk.Widens host₁.disk ∧ w₁.hooks = w.hooks := by
    obtain ⟨-, rfl, rfl⟩ | ⟨-, hr⟩ := rotateBySize_looks h₁
    · exact ⟨.refl _, rfl⟩
    · have hwidens := rotate_widens hw hr
      exact ⟨hwidens, (rotate_adopts hr).2.1.hooks⟩
  have hw₁ : ∀ hook ∈ w₁.hooks, hook = .watch := by rwa [hsize.2]
  have hhour : host₁.disk.Widens host₂.disk ∧ w₂.hooks = w₁.hooks := by
    obtain ⟨-, rfl, rfl⟩ | ⟨works, ⟨-, rfl, rfl⟩ | ⟨-, hr⟩⟩ := rotateByHour_looks h₂
    · exact ⟨.refl _, rfl⟩
    · exact ⟨.refl _, rfl⟩
    · have hwidens := rotate_widens (w := { w₁ with nextHour := _, nextIndex := 0 }) hw₁ hr
      exact ⟨hwidens, (rotate_adopts hr).2.1.hooks⟩
  obtain ⟨file, hwrite, rfl, -⟩ := append_cases h₃
  have hkeeps := w₂.file.write_keeps bytes host₂.disk
  rw [hwrite] at hkeeps
  exact ⟨(hsize.1.trans hhour.1).trans hkeeps.widens, hhour.2.trans hsize.2⟩

theorem Session.perform_widens {s s' : Session} {op : Op}
    (hw : ∀ hook ∈ s.writer.hooks, hook = .watch) (h : s.perform? op = some s') :
    s.host.disk.Widens s'.host.disk ∧ s'.writer.hooks = s.writer.hooks := by
  have hover (hop : op = .flush ∨ op = .sync) :
      s.host.disk.Widens s'.host.disk ∧ s'.writer.hooks = s.writer.hooks := by
    obtain ⟨file, disk, hf, rfl⟩ := handOver_cases hop h
    have hkeeps := s.writer.file.flush_keeps s.host.disk
    rw [hf] at hkeeps
    exact ⟨hkeeps.widens, rfl⟩
  cases op with
  | clock now =>
    cases h
    exact ⟨.refl _, rfl⟩
  | flush => exact hover (.inl rfl)
  | sync => exact hover (.inr rfl)
  | write bytes =>
    obtain ⟨w, host, hwrite, -, rfl⟩ := write_cases h
    exact write_widens hw hwrite

/-- Any number of steps. -/
theorem Session.run_widens {s s' : Session} {ops : List Op}
    (hw : ∀ hook ∈ s.writer.hooks, hook = .watch) (h : s.run? ops = some s') :
    s.host.disk.Widens s'.host.disk := by
  induction ops generalizing s with
  | nil =>
    obtain rfl := Option.some.inj h
    exact .refl _
  | cons op ops ih =>
    obtain ⟨s₁, hone, hrest⟩ := Option.bind_eq_some_iff.mp h
    obtain ⟨hwidens, hhooks⟩ := perform_widens hw hone
    exact hwidens.trans (ih (by rwa [hhooks]) hrest)

theorem open_widens {template : String} {tee : Bool} {maxSize : Nat} {hooks : List Hook}
    (hw : ∀ hook ∈ hooks, hook = .watch)
    (h : Rotating.open template tee maxSize hooks host = (.ok w, host')) :
    host.disk.Widens host'.disk := by
  have hgrows := search_grows (resolved template host) (Template.hasIndex template.toList)
    (limitFor template maxSize) 0 host.disk
  generalize hs : search (resolved template host) (Template.hasIndex template.toList)
    (limitFor template maxSize) 0 host.disk = found at hgrows
  obtain ⟨next, works, -, rfl, rfl⟩ := open_cases hs h
  rw [runHooks_watch hw]
  exact hgrows.widens

/-- What a session without failures leaves behind: every file has what it had before and what has
been written to it. With watchers alone names have only been added, and the paths that were written
to lead to their files. -/
theorem session_outcome {template : String} {tee : Bool} {maxSize : Nat} {hooks : List Hook}
    {ops : List Op} {ending : Ending} {host final : Host} {log : List Placement}
    (hsound : host.disk.IsSound)
    (h : session? template tee maxSize hooks ops ending host = some (log, final)) :
    (∀ id, final.disk.contents (.file id) = host.disk.contents (.file id) ++ placed log id) ∧
      ((∀ hook ∈ hooks, hook = .watch) → host.disk.Widens final.disk ∧
        ∀ entry ∈ log, final.disk.LeadsTo entry.path entry.device) := by
  obtain ⟨w, host', s, hopen, hrun, hend, rfl⟩ := session_cases h
  obtain ⟨hs, -⟩ := Session.run_holds (open_holds hsound hopen) hrun
  obtain ⟨hkeeps, -, -, hcontents⟩ := Session.end_holds hs hend
  refine ⟨fun id => (hcontents id).trans (hs.promised id), fun hw => ⟨?_, fun entry hmem => ?_⟩⟩
  · have hrunWidens := Session.run_widens (s := ⟨w, host', []⟩) (open_watch hw hopen) hrun
    exact ((open_widens hw hopen).trans hrunWidens).trans hkeeps.widens
  · exact (hs.directed hw entry hmem).mono (hkeeps.nodes ▸ List.prefix_rfl)

end Rotating

end Logbook
