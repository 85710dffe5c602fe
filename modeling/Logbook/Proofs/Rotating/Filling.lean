import Logbook.Proofs.Rotating.Restart
import Logbook.Proofs.Rotating.Apart

/-!
# How buffers are dealt out to files

Without date tokens, and with candidates that are different files of which none is there to begin
with, a sink deals its buffers out greedily: one file is filled after the other, and the next one is
begun with the first buffer that would make the last one reach the limit. Where candidates share a
file, all of it can be read under each of their names.

Results:
1. `parts_partition`: what dealing out greedily comes to.
2. `search_fresh`: a search takes the first candidate that it tries.
3. `write_fills`, `Session.run_fills`: a write and a session deal out greedily.
4. `session_deals_out`: the files that a session leaves behind.
5. `sharing_not_dealt_out`: a session in which all candidates are one file.
-/

namespace Logbook

/-! ## 1. Dealing out -/

/-- Buffers for one file after the other: the last file, which has some already, takes the next one
unless it would reach the limit with it. An empty file takes any. -/
def parts (limit : Nat) (last : List Bytes) : List Bytes → List (List Bytes)
  | [] => [last]
  | bytes :: rest =>
    if last ≠ [] ∧ limit ≤ last.flatten.length + bytes.length then
      last :: parts limit [bytes] rest
    else parts limit (last ++ [bytes]) rest

/-- Buffers dealt out to files in their order. A file is below the limit or has a single buffer, and
the first buffer of the next file would have made it reach the limit. -/
structure Partition (limit : Nat) (buffers : List Bytes) (files : List (List Bytes)) : Prop where
  flatten_eq : files.flatten = buffers
  small : ∀ part ∈ files, part.flatten.length < limit ∨ part.length = 1
  begun : files.IsChain fun part next => ∃ bytes rest, next = bytes :: rest ∧
    limit ≤ part.flatten.length + bytes.length

theorem parts_flatten (limit : Nat) (last buffers : List Bytes) :
    (parts limit last buffers).flatten = last ++ buffers := by
  induction buffers generalizing last with
  | nil => simp [parts]
  | cons bytes rest ih =>
    unfold parts
    split
    · rw [List.flatten_cons, ih]
      rfl
    · rw [ih, List.append_assoc]
      rfl

theorem parts_small {limit : Nat} {last : List Bytes} (buffers : List Bytes)
    (h : last.flatten.length < limit ∨ last.length = 1) :
    ∀ part ∈ parts limit last buffers, part.flatten.length < limit ∨ part.length = 1 := by
  induction buffers generalizing last with
  | nil =>
    intro part hmem
    obtain rfl := List.mem_singleton.mp hmem
    exact h
  | cons bytes rest ih =>
    unfold parts
    split
    · intro part hmem
      rcases List.mem_cons.mp hmem with rfl | htail
      · exact h
      · exact ih (.inr rfl) part htail
    · next hroom =>
      refine ih ?_
      rcases List.eq_nil_or_concat last with rfl | ⟨init, final, rfl⟩
      · exact .inr rfl
      · refine .inl (Nat.lt_of_not_le fun hle => hroom ⟨by simp, ?_⟩)
        rw [List.flatten_append, List.length_append, List.flatten_singleton] at hle
        exact hle

theorem parts_head (limit : Nat) (last buffers : List Bytes) :
    ∃ more tail, parts limit last buffers = (last ++ more) :: tail := by
  induction buffers generalizing last with
  | nil => exact ⟨[], [], by rw [parts, List.append_nil]⟩
  | cons bytes rest ih =>
    unfold parts
    split
    · exact ⟨[], _, by rw [List.append_nil]⟩
    · obtain ⟨more, tail, hparts⟩ := ih (last ++ [bytes])
      exact ⟨bytes :: more, tail, by rw [hparts, List.append_assoc]; rfl⟩

theorem parts_begun (limit : Nat) (last buffers : List Bytes) :
    (parts limit last buffers).IsChain fun part next => ∃ bytes rest, next = bytes :: rest ∧
      limit ≤ part.flatten.length + bytes.length := by
  induction buffers generalizing last with
  | nil => exact .singleton _
  | cons bytes rest ih =>
    unfold parts
    split
    · next hfull =>
      obtain ⟨more, tail, hparts⟩ := parts_head limit [bytes] rest
      have htail := ih [bytes]
      rw [hparts] at htail ⊢
      exact List.isChain_cons_cons.mpr ⟨⟨bytes, more, rfl, hfull.2⟩, htail⟩
    · exact ih (last ++ [bytes])

/-- What dealing out greedily comes to. -/
theorem parts_partition {limit : Nat} (hlimit : 0 < limit) (buffers : List Bytes) :
    Partition limit buffers (parts limit [] buffers) where
  flatten_eq := parts_flatten limit [] buffers
  small := parts_small buffers (.inl hlimit)
  begun := parts_begun limit [] buffers

/-! ## 2. New files -/

/-- No candidate leads to anything that was there to begin with, but to new files at most. -/
def Fresh (template : String) (start disk : Disk) : Prop :=
  ∀ i d, disk.LeadsTo (numbered i template) d →
    ∃ id, d = .file id ∧ start.files.length ≤ id

theorem Fresh.mono {template : String} {start disk disk' : Disk}
    (h : disk.nodes <+: disk'.nodes) (hfresh : Fresh template start disk') :
    Fresh template start disk :=
  fun i d hd => hfresh i d (hd.mono h)

section
variable {template : String} {start disk : Disk}

theorem isCandidate_numbered (hdate : Template.hasDateTokens template.toList = false) (i : Nat) :
    IsCandidate template (numbered i template) := by
  refine ⟨⟨⟨0, 0⟩, 0⟩, i, by decide, ?_⟩
  rw [Template.resolve_undated hdate]
  rfl

/-- Candidates that are kept apart and lead to one file have one counter. -/
theorem Apart.same_counter (hdate : Template.hasDateTokens template.toList = false)
    (hindex : Template.hasIndex template.toList = true) (hapart : Apart template disk) {i j : Nat}
    {id : Nat} (hi : disk.LeadsTo (numbered i template) (.file id))
    (hj : disk.LeadsTo (numbered j template) (.file id)) : i = j :=
  numbered_inj hindex (hapart _ _ id (isCandidate_numbered hdate i) (isCandidate_numbered hdate j)
    hi hj)

/-- On a disk without links the candidates of a template without slashes are new if none of their
names was there to begin with. -/
theorem fresh_of_flat (hwidens : start.Widens disk) (hplain : disk.IsPlain)
    (hflat : '/' ∉ template.toList)
    (hnone : ∀ i node, (⟨.work, [numbered i template]⟩, node) ∉ start.nodes) :
    Fresh template start disk := by
  intro i d hd
  obtain ⟨place, hplace, hnode⟩ := hd.place hplain
  have hname : '/' ∉ (numbered i template).toList := by
    rw [numbered, String.toList_ofList]
    exact Template.slash_not_mem_candidate hflat i
  obtain rfl := place?_of_flat hname hplace
  obtain hold | hfolder | ⟨id, hfile, hle⟩ :=
    hwidens.added _ (Disk.mem_of_node? (by simp) hnode)
  · exact absurd hold (hnone i _)
  · cases hfolder
  · exact ⟨id, Node.device.inj hfile, hle⟩

/-- Every file that is new is a candidate with a counter below a bound. -/
def MadeBelow (template : String) (start disk : Disk) (bound : Nat) : Prop :=
  ∀ id, start.files.length ≤ id → id < disk.files.length →
    ∃ i < bound, disk.LeadsTo (numbered i template) (.file id)

/-- Candidates from the bound on have nothing in them yet. -/
theorem MadeBelow.empty {disk' : Disk} {index i : Nat} {d : Device}
    (hdate : Template.hasDateTokens template.toList = false)
    (hindex : Template.hasIndex template.toList = true)
    (hmade : MadeBelow template start disk index)
    (hfresh : Fresh template start disk') (hapart : Apart template disk')
    (hnodes : disk.nodes <+: disk'.nodes) (hle : index ≤ i)
    (hd : disk'.LeadsTo (numbered i template) d) :
    ∃ id, d = .file id ∧ disk.files.length ≤ id ∧ disk.contents d = [] := by
  obtain ⟨id, rfl, hnew⟩ := hfresh i d hd
  have hlater : disk.files.length ≤ id := by
    refine Nat.le_of_not_lt fun hlt => ?_
    obtain ⟨j, hj, hleads⟩ := hmade id hnew hlt
    have hij := hapart.same_counter hdate hindex hd (hleads.mono hnodes)
    exact absurd hle (Nat.not_le_of_lt (hij ▸ hj))
  refine ⟨id, rfl, hlater, ?_⟩
  rw [Disk.contents, List.getD_eq_getElem?_getD, List.getElem?_eq_none hlater]
  rfl

/-- A search takes the first candidate that it tries, which is a new file. -/
theorem search_fresh {maxSize index : Nat} {found : Search} {next : Candidate}
    (hdate : Template.hasDateTokens template.toList = false)
    (hindex : Template.hasIndex template.toList = true) (hmax : 0 < maxSize)
    (hs : search template.toList true maxSize index disk = found) (h : found.outcome = .ok next)
    (hmade : MadeBelow template start disk index) (hfresh : Fresh template start found.disk)
    (hapart : Apart template found.disk) :
    found.nextIndex = index + 1 ∧ next.path = numbered index template ∧ next.size = 0 ∧
      (∃ id, next.device = .file id ∧ disk.files.length ≤ id) ∧
      MadeBelow template start found.disk (index + 1) := by
  have hgrows := search_grows template.toList true maxSize index disk
  rw [hs] at hgrows
  have hempty {i : Nat} {d : Device} (hle : index ≤ i)
      (hd : found.disk.LeadsTo (numbered i template) d) :
      ∃ id, d = .file id ∧ disk.files.length ≤ id ∧ disk.contents d = [] :=
    hmade.empty hdate hindex hfresh hapart hgrows.nodes hle hd
  have hopen := search_ok hs h
  obtain ⟨k, hle, hnext, hpath, -, hpassed⟩ := search_first hs h
  -- a candidate that is passed over has something in it, and the first one has not
  obtain rfl : index = k := by
    refine Nat.le_antisymm hle (Nat.le_of_not_lt fun hlt => ?_)
    obtain ⟨d, hd, hbig⟩ := hpassed index (Nat.le_refl _) hlt
    obtain ⟨-, -, -, hnil⟩ := hempty (Nat.le_refl _) hd.leadsTo
    rw [hgrows.contents, hnil] at hbig
    exact absurd hmax (Nat.not_lt_of_le hbig)
  have hleads := hopen.offers.leadsTo
  rw [hpath] at hleads
  obtain ⟨id, hd, hnew, hnil⟩ := hempty (Nat.le_refl _) hleads
  refine ⟨hnext, hpath, ?_, ⟨id, hd, hnew⟩, ?_⟩
  · rw [hopen.size_eq, hgrows.contents, hnil]
    rfl
  · intro id' hstart hlt
    rcases Nat.lt_or_ge id' disk.files.length with hold | hmore
    · obtain ⟨i, hi, hi'⟩ := hmade id' hstart hold
      exact ⟨i, Nat.lt_succ_of_lt hi, hi'.mono hgrows.nodes⟩
    · obtain ⟨i, -, hi, hi'⟩ := search_makes hs h hmore hlt
      exact ⟨i, hnext ▸ hi, hi'⟩

end

namespace Rotating

/-! ## 3. Writing -/

/-- The sink has dealt out buffers to files: `done` are the files before the current one, which has
`last`. Nothing else is new. -/
structure Filling (template : String) (maxSize : Nat) (start : Disk) (w : Rotating) (host : Host)
    (done : List (List Bytes)) (last : List Bytes) : Prop where
  template_eq : w.template = template
  limit_eq : w.limit = maxSize
  indexed : w.indexed = true
  watch : ∀ hook ∈ w.hooks, hook = .watch
  nextIndex_eq : w.nextIndex = done.length + 1
  current_eq : w.current = numbered done.length template
  size_eq : w.size = last.flatten.length
  filled : ∀ bytes ∈ last, bytes ≠ []
  held : ∀ i part, (done ++ [last])[i]? = some part → ∃ id,
    host.disk.LeadsTo (numbered i template) (.file id) ∧
      w.file.promised host.disk id = part.flatten
  made : MadeBelow template start host.disk (done.length + 1)

variable {template : String} {maxSize : Nat} {start : Disk} {w w' : Rotating} {host host' : Host}
  {done : List (List Bytes)} {last : List Bytes}

/-- The current file is the last one. -/
theorem Filling.device (h : Filling template maxSize start w host done last)
    (hready : w.Ready host) : ∃ id, w.file.device = .file id ∧
      host.disk.LeadsTo (numbered done.length template) (.file id) ∧
      w.file.promised host.disk id = last.flatten := by
  obtain ⟨id, hleads, hheld⟩ := h.held done.length last (by simp)
  have hcurrent := hready.leadsTo h.watch
  rw [h.current_eq] at hcurrent
  exact ⟨id, hcurrent.unique hleads, hleads, hheld⟩

/-- Looking at the clock and handing over change nothing. -/
theorem Filling.keeps (h : Filling template maxSize start w host done last) (host' : Host)
    (file : Buffered) (nextHour : Time.Moment) (hk : host.disk.Keeps host'.disk)
    (hpromised : ∀ id, file.promised host'.disk id = w.file.promised host.disk id) :
    Filling template maxSize start { w with file := file, nextHour := nextHour } host' done
      last where
  template_eq := h.template_eq
  limit_eq := h.limit_eq
  indexed := h.indexed
  watch := h.watch
  nextIndex_eq := h.nextIndex_eq
  current_eq := h.current_eq
  size_eq := h.size_eq
  filled := h.filled
  held i part hpart := by
    obtain ⟨id, hleads, hheld⟩ := h.held i part hpart
    exact ⟨id, hleads.mono (hk.nodes ▸ List.prefix_rfl), (hpromised id).trans hheld⟩
  made id hnew hlt := by
    obtain ⟨i, hi, hleads⟩ := h.made id hnew (hk.length ▸ hlt)
    exact ⟨i, hi, hleads.mono (hk.nodes ▸ List.prefix_rfl)⟩

/-- Moving on begins a new file with nothing in it. -/
theorem rotate_fills (hdate : Template.hasDateTokens template.toList = false)
    (hindex : Template.hasIndex template.toList = true) (hmax : 0 < maxSize)
    (hready : w.Ready host) (hf : Filling template maxSize start w host done last)
    (h : w.rotate host = (.ok (), w', host')) (hr : host'.reports.length = host.reports.length)
    (hfresh : Fresh template start host'.disk) (hapart : Apart template host'.disk) :
    Filling template maxSize start w' host' (done ++ [last]) [] := by
  have hmoved := rotate_ok hready h hr
  obtain ⟨found, next, hs, hnext, hgone⟩ := rotate_found h
  rw [hf.template_eq, hf.indexed, hf.limit_eq, resolved_undated hdate, hf.nextIndex_eq] at hs
  have hkeeps := hgone.keeps hf.watch
  have hnodes : found.disk.nodes <+: host'.disk.nodes := hkeeps.nodes ▸ List.prefix_rfl
  obtain ⟨hcount, hpath, hsize, ⟨id, hd, hnew⟩, hmade⟩ := search_fresh hdate hindex hmax hs hnext
    hf.made (hfresh.mono hnodes) (hapart.mono hnodes)
  have hlength : (done ++ [last]).length = done.length + 1 := by simp
  refine ⟨hgone.settings.template.trans hf.template_eq, hgone.settings.limit.trans hf.limit_eq,
    hgone.settings.indexed.trans hf.indexed, by rw [hgone.settings.hooks]; exact hf.watch, ?_, ?_,
    hgone.size.trans hsize, fun _ hmem => absurd hmem List.not_mem_nil, ?_, ?_⟩
  · rw [hgone.nextIndex, hcount, hlength]
  · rw [hgone.current, hpath, hlength]
  · intro i part hpart
    rcases Nat.lt_or_ge i (done ++ [last]).length with hold | hend
    · rw [List.getElem?_append_left hold] at hpart
      obtain ⟨id', hleads, hheld⟩ := hf.held i part hpart
      exact ⟨id', hleads.mono (hmoved.nodes hf.watch), (hmoved.promised id').trans hheld⟩
    · -- the new file is none of those that there were, so nothing waits for it
      rw [List.getElem?_append_right hend, List.getElem?_singleton] at hpart
      split at hpart
      · next hzero =>
        obtain rfl := Option.some.inj hpart
        obtain rfl : i = done.length + 1 := by omega
        have hleads := hmoved.ready.leadsTo (by rw [hgone.settings.hooks]; exact hf.watch)
        rw [hgone.current, hpath, hgone.file] at hleads
        have hleads : host'.disk.LeadsTo (numbered (done.length + 1) template) (.file id) :=
          hd ▸ hleads
        refine ⟨id, hleads, ?_⟩
        have hother : w.file.device ≠ .file id := fun hsame =>
          absurd (hready.knows id hsame) (Nat.not_lt_of_le hnew)
        rw [hmoved.promised, Buffered.promised, Disk.share, if_neg hother, List.append_nil,
          Disk.contents, List.getD_eq_getElem?_getD, List.getElem?_eq_none hnew]
        rfl
      · cases hpart
  · intro id' hstart hlt
    rw [hkeeps.length] at hlt
    obtain ⟨i, hi, hleads⟩ := hmade id' hstart hlt
    exact ⟨i, hlength ▸ hi, hleads.mono hnodes⟩

/-- The name stays with every hour, so the sink stays at its file. -/
theorem rotateByHour_fills (hdate : Template.hasDateTokens template.toList = false)
    (hf : Filling template maxSize start w host done last)
    (h : w.rotateByHour host = (.ok (), w', host')) :
    Filling template maxSize start w' host' done last := by
  obtain ⟨-, rfl, rfl⟩ | ⟨works, ⟨-, rfl, rfl⟩ | ⟨hother, -⟩⟩ := rotateByHour_looks h
  · exact hf
  · exact hf.keeps (host.relyOnClock works) w.file _ (.refl host.disk) fun _ => rfl
  · refine absurd ?_ hother
    rw [expected, hf.template_eq, resolved_undated hdate, hf.nextIndex_eq, hf.current_eq]
    rfl

/-- A buffer that is appended goes to the end of the last file. -/
theorem append_fills {bytes : Bytes} (hdate : Template.hasDateTokens template.toList = false)
    (hindex : Template.hasIndex template.toList = true) (hready : w.Ready host)
    (hf : Filling template maxSize start w host done last) (hbytes : bytes ≠ [])
    (h : w.append bytes host = (.ok (), w', host')) (hapart : Apart template host'.disk) :
    Filling template maxSize start w' host' done (last ++ [bytes]) := by
  have hwrote := append_ok hready h
  obtain ⟨lastId, hdevice, hlast, hlastHeld⟩ := hf.device hready
  obtain ⟨file, hwrite, rfl, -⟩ := append_cases h
  obtain ⟨hkeeps, hsame, -⟩ := Buffered.write_ok hready.knows hwrite
  have hnodes := hwrote.nodes hf.watch
  have hshare (id : Nat) : Disk.share file.device bytes id = if lastId = id then bytes else [] := by
    simp only [hsame, hdevice, Disk.share, Device.file.injEq]
  refine ⟨hf.template_eq, hf.limit_eq, hf.indexed, hf.watch, hf.nextIndex_eq, hf.current_eq, ?_,
    ?_, ?_, ?_⟩
  · show w.size + bytes.length = _
    rw [hf.size_eq, List.flatten_append, List.length_append, List.flatten_singleton]
  · intro other hmem
    rcases List.mem_append.mp hmem with hold | hone
    · exact hf.filled other hold
    · exact List.mem_singleton.mp hone ▸ hbytes
  · intro i part hpart
    rcases Nat.lt_trichotomy i done.length with hbefore | rfl | hafter
    · rw [List.getElem?_append_left hbefore] at hpart
      obtain ⟨id, hleads, hheld⟩ := hf.held i part (by
        rw [List.getElem?_append_left hbefore, hpart])
      have hother : lastId ≠ id := by
        rintro rfl
        have hcounter := hapart.same_counter hdate hindex (hleads.mono hnodes) (hlast.mono hnodes)
        exact Nat.ne_of_lt hbefore hcounter
      refine ⟨id, hleads.mono hnodes, ?_⟩
      rw [hwrote.promised, hheld, hshare, if_neg hother, List.append_nil]
    · rw [List.getElem?_append_right (Nat.le_refl _), Nat.sub_self] at hpart
      obtain rfl := Option.some.inj hpart
      refine ⟨lastId, hlast.mono hnodes, ?_⟩
      rw [hwrote.promised, hlastHeld, hshare, if_pos rfl, List.flatten_append,
        List.flatten_singleton]
    · rw [List.getElem?_eq_none (by simp; omega)] at hpart
      cases hpart
  · intro id hstart hlt
    obtain ⟨i, hi, hleads⟩ := hf.made id hstart (hkeeps.length ▸ hlt)
    exact ⟨i, hi, hleads.mono hnodes⟩

/-- Something is in the last file if and only if a buffer has been dealt out to it. -/
theorem Filling.isFull_iff (hf : Filling template maxSize start w host done last) (bytes : Nat) :
    w.isFull bytes = true ↔ last ≠ [] ∧ maxSize ≤ last.flatten.length + bytes := by
  rw [isFull, hf.size_eq, hf.limit_eq, Bool.and_eq_true, decide_eq_true_eq, decide_eq_true_eq]
  refine and_congr_left fun _ => ?_
  cases last with
  | nil => simp
  | cons first rest =>
    have hfirst := List.length_pos_iff.mpr (hf.filled first List.mem_cons_self)
    rw [List.flatten_cons, List.length_append]
    simp only [ne_eq, reduceCtorEq, not_false_eq_true, iff_true]
    omega

/-- A write deals its buffer out. -/
theorem write_fills {bytes : Bytes} (hdate : Template.hasDateTokens template.toList = false)
    (hindex : Template.hasIndex template.toList = true) (hmax : 0 < maxSize)
    (hready : w.Ready host) (hf : Filling template maxSize start w host done last)
    (hbytes : bytes ≠ []) (h : w.write bytes host = (.ok (), w', host'))
    (hr : host'.reports.length = host.reports.length) (hfresh : Fresh template start host'.disk)
    (hapart : Apart template host'.disk) :
    ∃ done' last', Filling template maxSize start w' host' done' last' ∧ ∀ buffers,
      done ++ parts maxSize last (bytes :: buffers) = done' ++ parts maxSize last' buffers := by
  obtain ⟨w₁, host₁, w₂, host₂, h₁, hr₁, h₂, hr₂, h₃⟩ := write_steps h hr
  have hclock : Moved w host w host.readClock.2 :=
    .relyOnClock hready host.now.onClock w.nextHour w.nextIndex
  have hmoved₁ := rotateBySize_ok hclock.ready h₁ hr₁
  have hmoved₂ := rotateByHour_ok hmoved₁.ready h₂ hr₂
  have hwatch₁ : ∀ hook ∈ w₁.hooks, hook = .watch := by
    rw [hmoved₁.hooks]
    exact hf.watch
  have hnodes₃ := (append_ok hmoved₂.ready h₃).nodes (by rwa [hmoved₂.hooks])
  have hnodes₁ := (hmoved₂.nodes hwatch₁).trans hnodes₃
  have hf₀ : Filling template maxSize start w host.readClock.2 done last :=
    hf.keeps host.readClock.2 w.file w.nextHour (.refl host.disk) fun _ => rfl
  have hlater {done' last' : List _} (hf₁ : Filling template maxSize start w₁ host₁ done' last') :
      Filling template maxSize start w' host' done' (last' ++ [bytes]) :=
    append_fills hdate hindex hmoved₂.ready (rotateByHour_fills hdate hf₁ h₂) hbytes h₃ hapart
  obtain ⟨hroom, rfl, rfl⟩ | ⟨hfull, hrotate⟩ := rotateBySize_looks h₁
  · refine ⟨done, last ++ [bytes], hlater hf₀, fun buffers => ?_⟩
    have hno := mt (hf.isFull_iff bytes.length).mpr (Bool.eq_false_iff.mp hroom)
    rw [parts, if_neg hno]
  · refine ⟨done ++ [last], [bytes], hlater (rotate_fills hdate hindex hmax hclock.ready hf₀
      hrotate hr₁ (hfresh.mono hnodes₁) (hapart.mono hnodes₁)), fun buffers => ?_⟩
    rw [parts, if_pos ((hf.isFull_iff bytes.length).mp hfull), List.append_assoc]
    rfl

theorem open_fills {tee : Bool} {hooks : List Hook}
    (hdate : Template.hasDateTokens template.toList = false)
    (hindex : Template.hasIndex template.toList = true) (hmax : 0 < maxSize)
    (hw : ∀ hook ∈ hooks, hook = .watch) (hsound : host.disk.IsSound)
    (hfresh : Fresh template host.disk host'.disk) (hapart : Apart template host'.disk)
    (h : Rotating.open template tee maxSize hooks host = (.ok w, host')) :
    Filling template maxSize host.disk w host' [] [] := by
  have hholds := open_holds hsound h
  generalize hs : search template.toList true maxSize 0 host.disk = found
  have hfound : search (resolved template host) (Template.hasIndex template.toList)
      (limitFor template maxSize) 0 host.disk = found := by
    rw [hindex, limitFor_indexed hindex hmax, resolved_undated hdate, hs]
  obtain ⟨next, works, hnext, rfl, rfl⟩ := open_cases hfound h
  rw [runHooks_watch hw] at hfresh hapart
  have hnone : MadeBelow template host.disk host.disk 0 := fun id hle hlt =>
    absurd hlt (Nat.not_lt_of_le hle)
  obtain ⟨hcount, hpath, hsize, ⟨id, hd, hnew⟩, hmade⟩ :=
    search_fresh hdate hindex hmax hs hnext hnone hfresh hapart
  refine ⟨rfl, limitFor_indexed hindex hmax, hindex, hw, hcount, hpath, hsize,
    fun _ hmem => absurd hmem List.not_mem_nil, fun i part hpart => ?_, ?_⟩
  · rw [List.nil_append, List.getElem?_singleton] at hpart
    split at hpart
    · next hzero =>
      obtain rfl := Option.some.inj hpart
      have hleads := hholds.ready.leadsTo hw
      have hpromised := hholds.promised id
      refine ⟨id, hzero ▸ hpath ▸ hd ▸ hleads, hpromised.trans ?_⟩
      rw [Disk.contents, List.getD_eq_getElem?_getD, List.getElem?_eq_none hnew]
      rfl
    · cases hpart
  · rw [runHooks_watch hw]
    exact hmade

/-! ## 4. Sessions -/

variable {tee : Bool} {hooks : List Hook} {origin : Host}

/-- Any number of steps. -/
theorem Session.run_fills {s s' : Session} {ops : List Op}
    (hdate : Template.hasDateTokens template.toList = false)
    (hindex : Template.hasIndex template.toList = true) (hmax : 0 < maxSize)
    (hholds : s.Holds origin tee hooks)
    (hf : s.writer.Filling template maxSize start s.host done last)
    (hbuffers : ∀ bytes ∈ Op.buffers ops, bytes ≠ [])
    (hfresh : Fresh template start s'.host.disk) (hapart : Apart template s'.host.disk)
    (h : s.run? ops = some s') :
    ∃ done' last', s'.writer.Filling template maxSize start s'.host done' last' ∧
      done ++ parts maxSize last (Op.buffers ops) = done' ++ [last'] := by
  induction ops generalizing s done last with
  | nil =>
    obtain rfl := Option.some.inj h
    exact ⟨done, last, hf, rfl⟩
  | cons op ops ih =>
    obtain ⟨s₁, hone, hrest⟩ := Option.bind_eq_some_iff.mp h
    have hholds₁ := (perform_holds hholds hone).1
    rw [Op.buffers_cons] at hbuffers
    have hlater : ∀ bytes ∈ Op.buffers ops, bytes ≠ [] := fun bytes hmem =>
      hbuffers bytes (List.mem_append_right _ hmem)
    have hover (hop : op = .flush ∨ op = .sync) :
        s₁.writer.Filling template maxSize start s₁.host done last := by
      obtain ⟨file, disk, hflush, rfl⟩ := handOver_cases hop hone
      obtain ⟨hkeeps, -⟩ := Buffered.flush_ok hholds.ready.knows hflush
      exact hf.keeps { s.host with disk := disk } file s.writer.nextHour hkeeps
        (Buffered.flush_promised hholds.ready.knows hflush)
    cases op with
    | clock now =>
      cases hone
      exact ih hholds₁ (hf.keeps { s.host with now := now } s.writer.file
        s.writer.nextHour (.refl s.host.disk) fun _ => rfl) hlater hrest
    | flush => exact ih hholds₁ (hover (.inl rfl)) hlater hrest
    | sync => exact ih hholds₁ (hover (.inr rfl)) hlater hrest
    | write bytes =>
      obtain ⟨w, host, hwrite, hr, rfl⟩ := write_cases hone
      have hwatch : ∀ hook ∈ w.hooks, hook = .watch := by
        rw [(write_widens hf.watch hwrite).2]
        exact hf.watch
      have hnodes := (run_widens (s := ⟨w, host, _⟩) hwatch hrest).nodes
      obtain ⟨done₁, last₁, hf₁, hparts₁⟩ := write_fills hdate hindex hmax hholds.ready hf
        (hbuffers bytes List.mem_cons_self) hwrite hr (hfresh.mono hnodes) (hapart.mono hnodes)
      obtain ⟨done', last', hf', hparts'⟩ := ih hholds₁ hf₁ hlater hrest
      exact ⟨done', last', hf', (hparts₁ _).trans hparts'⟩

/-- The candidates are the given files, one after the other from the counter zero on, and there are
no others. -/
structure Holding (template : String) (disk : Disk) (files : List (List Bytes)) : Prop where
  held : ∀ i part, files[i]? = some part → ∃ id,
    disk.LeadsTo (numbered i template) (.file id) ∧ disk.contents (.file id) = part.flatten
  noMore : ∀ i d, files.length ≤ i → ¬ disk.LeadsTo (numbered i template) d

/-- In a session without failures, with a template without date tokens whose candidates are
different files, none of which was there to begin with, the buffers are dealt out greedily: the
candidates from the first one on have them in their order, and there are no others. -/
theorem session_deals_out (template : String) (tee : Bool) (maxSize : Nat) (hooks : List Hook)
    (ops : List Op) (ending : Ending) (host final : Host) (log : List Placement)
    (hdate : Template.hasDateTokens template.toList = false)
    (hindex : Template.hasIndex template.toList = true) (hmax : 0 < maxSize)
    (hw : ∀ hook ∈ hooks, hook = .watch) (hsound : host.disk.IsSound)
    (hbuffers : ∀ bytes ∈ Op.buffers ops, bytes ≠ [])
    (h : session? template tee maxSize hooks ops ending host = some (log, final))
    (hfresh : Fresh template host.disk final.disk) (hapart : Apart template final.disk) :
    Holding template final.disk (parts maxSize [] (Op.buffers ops)) ∧
      Partition maxSize (Op.buffers ops) (parts maxSize [] (Op.buffers ops)) := by
  obtain ⟨w, host', s, hopen, hrun, hend, -⟩ := session_cases h
  have hholds₀ := open_holds hsound hopen
  obtain ⟨hholds, -⟩ := Session.run_holds hholds₀ hrun
  obtain ⟨hkeeps, -, -, hcontents⟩ := Session.end_holds hholds hend
  have hnodes : s.host.disk.nodes <+: final.disk.nodes := hkeeps.nodes ▸ List.prefix_rfl
  have hfresh₁ := hfresh.mono hnodes
  have hapart₁ := hapart.mono hnodes
  have hnodes₀ := (Session.run_widens (s := ⟨w, host', []⟩) (open_watch hw hopen) hrun).nodes
  have hf₀ := open_fills hdate hindex hmax hw hsound (hfresh₁.mono hnodes₀)
    (hapart₁.mono hnodes₀) hopen
  obtain ⟨done, last, hf, hparts⟩ :=
    Session.run_fills hdate hindex hmax hholds₀ hf₀ hbuffers hfresh₁ hapart₁ hrun
  rw [List.nil_append] at hparts
  refine ⟨?_, parts_partition hmax _⟩
  rw [hparts]
  refine ⟨fun i part hpart => ?_, fun i d hlength hleads => ?_⟩
  · obtain ⟨id, hleads, hheld⟩ := hf.held i part hpart
    exact ⟨id, hleads.mono hnodes, (hcontents id).trans hheld⟩
  · -- a file that a further candidate leads to would be new, and so one of those dealt out to
    obtain ⟨id, rfl, hnew⟩ := hfresh i d hleads
    have hlt := hleads.knows (hkeeps.sound hholds.ready.sound) id rfl
    rw [hkeeps.length] at hlt
    obtain ⟨j, hj, hleads'⟩ := hf.made id hnew hlt
    obtain rfl := hapart.same_counter hdate hindex hleads (hleads'.mono hnodes)
    rw [List.length_append, List.length_singleton] at hlength
    omega

/-- The second buffer makes the first file reach the limit, and so does the third one, which alone
is beyond it. -/
def dealing : List Op :=
  [.write (Utf8.ofString "aaaa"), .clock ⟨1718449200, 0⟩, .write (Utf8.ofString "bbbbbb"), .flush,
    .write (Utf8.ofString "cccccccccccc"), .write (Utf8.ofString "dd"),
    .write (Utf8.ofString "ee")]

theorem session_deals_out_dealing :
    ∃ log final, session? "a-index.log" false 10 [.watch] dealing .drop emptyHost =
        some (log, final) ∧
      Fresh "a-index.log" emptyHost.disk final.disk ∧ Apart "a-index.log" final.disk ∧
      Holding "a-index.log" final.disk (parts 10 [] (Op.buffers dealing)) ∧
      Partition 10 (Op.buffers dealing) (parts 10 [] (Op.buffers dealing)) := by
  have hsome : (session? "a-index.log" false 10 [.watch] dealing .drop emptyHost).isSome := by
    decide +kernel
  obtain ⟨⟨log, final⟩, h⟩ := Option.isSome_iff_exists.mp hsome
  have hw : ∀ hook ∈ [Hook.watch], hook = .watch := by decide
  have hwidens := ((session_outcome Disk.isSound_empty h).2 hw).1
  have hplain := hwidens.plain Disk.isPlain_empty
  have hfresh : Fresh "a-index.log" emptyHost.disk final.disk := by
    refine fresh_of_flat hwidens hplain (by decide) fun i node => ?_
    simp [emptyHost, Host.start, Disk.empty]
  have hapart : Apart "a-index.log" final.disk := apart_of_flat hplain (by decide)
  exact ⟨log, final, h, hfresh, hapart,
    session_deals_out "a-index.log" false 10 [.watch] dealing .drop emptyHost final log (by decide)
      (by decide) (by decide) hw Disk.isSound_empty (by decide) h hfresh hapart⟩

/-- A file is begun anew for the second buffer. -/
def sharing : List Op := [.write (Utf8.ofString "aaaaaa"), .write (Utf8.ofString "bbbbbb")]

/-- The candidates lie in folders of their own, and the two dots lead back out of them: all of them
are one file, which cannot be dealt out. -/
theorem sharing_not_dealt_out :
    Template.hasDateTokens "index/../a.log".toList = false ∧
    Template.hasIndex "index/../a.log".toList = true ∧ emptyHost.disk = .empty ∧
    (∀ bytes ∈ Op.buffers sharing, bytes ≠ []) ∧
    ∃ log final, session? "index/../a.log" false 10 [] sharing .flush emptyHost =
        some (log, final) ∧
      ¬ ∃ files, Partition 10 (Op.buffers sharing) files ∧
        Holding "index/../a.log" final.disk files := by
  refine ⟨by decide, by decide, rfl, by decide, ?_⟩
  have hrun : (session? "index/../a.log" false 10 [] sharing .flush emptyHost).map
      (fun (log, final) => (log.map fun entry => (entry.path, entry.device),
        (final.disk.contents (.file 0)).length)) =
      some ([("0/../a.log", .file 0), ("1/../a.log", .file 0)], 12) := by
    decide +kernel
  obtain ⟨⟨log, final⟩, h, hvalues⟩ := Option.map_eq_some_iff.mp hrun
  obtain ⟨hlog, hlength⟩ := Prod.mk.inj hvalues
  obtain ⟨-, hdirected⟩ := (session_outcome Disk.isSound_empty h).2 (by decide)
  have hleads {i : Nat} (hmem : (numbered i "index/../a.log", Device.file 0) ∈
      log.map fun entry => (entry.path, entry.device)) :
      final.disk.LeadsTo (numbered i "index/../a.log") (.file 0) := by
    obtain ⟨entry, hentry, heq⟩ := List.mem_map.mp hmem
    obtain ⟨hpath, hdevice⟩ := Prod.mk.inj heq
    exact hpath ▸ hdevice ▸ hdirected entry hentry
  have hfirst : final.disk.LeadsTo (numbered 0 "index/../a.log") (.file 0) :=
    hleads (hlog ▸ by decide)
  have hsecond : final.disk.LeadsTo (numbered 1 "index/../a.log") (.file 0) :=
    hleads (hlog ▸ by decide)
  refine ⟨log, final, h, ?_⟩
  rintro ⟨files, hpartition, hholding⟩
  have htwelve {i : Nat} {part : List Bytes} (hpart : files[i]? = some part)
      (hleads : final.disk.LeadsTo (numbered i "index/../a.log") (.file 0)) :
      part.flatten.length = 12 := by
    obtain ⟨id, hid, hheld⟩ := hholding.held i part hpart
    obtain rfl := Device.file.inj (hid.unique hleads)
    rw [← hheld, hlength]
  -- each of the two names shows all twelve bytes, which makes twice as many as were written
  have htwo : 1 < files.length := Nat.lt_of_not_le fun hle => hholding.noMore 1 _ hle hsecond
  match files, htwo with
  | part :: next :: rest, _ =>
    have hall := congrArg (fun buffers : List Bytes => buffers.flatten.length)
      hpartition.flatten_eq
    have htotal : (Op.buffers sharing).flatten.length = 12 := by decide
    have h₀ := htwelve (i := 0) rfl hfirst
    have h₁ := htwelve (i := 1) rfl hsecond
    simp only [List.flatten_cons, List.flatten_append, List.length_append, htotal, h₀, h₁] at hall
    omega

end Rotating

end Logbook
