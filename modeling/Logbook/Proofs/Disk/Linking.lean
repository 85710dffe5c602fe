import Logbook.Proofs.Disk.Parents
import Logbook.Proofs.Disk.Places
import Logbook.Proofs.Disk.Reopening
import Logbook.Sink.Link

/-!
# Moving a link

A link is moved by taking away what bears its name and making it anew. Nothing else on the disk
changes, so the way to the name stays, unless it leads through the link itself. A link that can be
made under a name once can therefore be moved again and again, as long as no folder takes its name.

Results:
1. `node?_without`, `Within.without`: what is left when a place is cleared.
2. `Admits.walk_free`, `Admits.walk_node`, `Admits.mono`: where the way to the name of a link ends.
3. `removeFile_node`, `makeLink_free`: a name that is no folder is taken away, and one at a free
   place is given to a link.
4. `walkFrom_long`: names that are too long are never found.
5. `moveLink_leads`: after a move the link leads to its target, or a folder is in the way, or the
   target has no text that a link can have.
6. `TakesLink.prepared`: when the folder of a link is there or can be made, the link can be made.
-/

namespace Logbook

namespace Disk

variable {disk disk' : Disk} {place : Place} {name : String}

/-! ## 1. Clearing a place -/

/-- The disk with nothing at a place. -/
def without (disk : Disk) (place : Place) : Disk :=
  { disk with nodes := disk.nodes.filter fun entry => entry.1 != place }

theorem lookup_without (nodes : List (Place × Node)) (p place : Place) :
    (nodes.filter fun entry => entry.1 != place).lookup p =
      if p = place then none else nodes.lookup p := by
  induction nodes with
  | nil => simp
  | cons entry rest ih =>
    obtain ⟨q, node⟩ := entry
    by_cases hq : q = place
    · subst hq
      rw [List.filter_cons_of_neg (by simp), ih, List.lookup_cons]
      split
      · rfl
      · next hne => rw [beq_eq_false_iff_ne.mpr hne]
    · rw [List.filter_cons_of_pos (by simp [hq]), List.lookup_cons, List.lookup_cons, ih]
      by_cases hp : p = q
      · subst hp
        simp [hq]
      · rw [beq_eq_false_iff_ne.mpr hp]

theorem node?_without (disk : Disk) {p place : Place} (hne : p ≠ place) :
    (disk.without place).node? p = disk.node? p := by
  rw [node?, node?, without, lookup_without, if_neg hne]

theorem node?_without_self (disk : Disk) (h : place.names ≠ []) :
    (disk.without place).node? place = none := by
  have hroot : ¬ place.names.isEmpty = true := by simpa using h
  rw [node?, if_neg hroot, without, lookup_without, if_pos rfl]

theorem without_within (disk : Disk) (h : place.names ≠ []) : (disk.without place).Within disk := by
  intro p node hp
  by_cases hplace : p = place
  · subst hplace
    rw [node?_without_self disk h] at hp
    cases hp
  · rwa [node?_without disk hplace] at hp

/-- Clearing a place of both disks leaves the one within the other. -/
theorem Within.without (h : disk.Within disk') (hne : place.names ≠ []) :
    (disk.without place).Within (disk'.without place) := by
  intro p node hp
  by_cases hplace : p = place
  · subst hplace
    rw [node?_without_self disk hne] at hp
    cases hp
  · rw [node?_without disk hplace] at hp
    rw [node?_without disk' hplace]
    exact h p node hp

/-! ## 2. The way to a name -/

theorem finish_entry {p : Place} {last : String} {slash : Bool} {stop : Stop}
    (h : disk.finish .entry p last slash = .done (.free place))
    (hstop : (disk'.node? place = none ∧ stop = .free place) ∨
      ∃ node, disk'.node? place = some node ∧ stop = .node place node) :
    disk'.finish .entry p last slash = .done stop := by
  obtain ⟨rfl, -⟩ := finish_free h
  rw [finish] at h ⊢
  split at h
  · cases h
  next hslash =>
  split at h
  · cases h
  next hlong =>
  rw [if_neg hslash, if_neg hlong]
  rcases hstop with ⟨hnone, rfl⟩ | ⟨node, hnode, rfl⟩
  · rw [hnone]
  · rw [hnode]
    cases node <;> rfl

/-- A name that leads to a free place leads there, whatever has been put at the place. -/
theorem Within.walk_entry (h : disk.Within disk') {path : Path} {stop : Stop}
    (hw : disk.walk .entry path = .ok (.free place))
    (hstop : (disk'.node? place = none ∧ stop = .free place) ∨
      ∃ node, disk'.node? place = some node ∧ stop = .node place node) :
    disk'.walk .entry path = .ok stop :=
  walk_grown h (fun _ hfolder => by cases hfolder) (fun _ _ _ hf => finish_entry hf hstop) hw

/-- The way to a name ends at a place and does not need what stands there. -/
def Admits (disk : Disk) (name : String) (place : Place) : Prop :=
  (disk.without place).walk .entry (.ofText name) = .ok (.free place)

namespace Admits

theorem names_ne (h : disk.Admits name place) : place.names ≠ [] := by
  obtain ⟨p, last, slash, hf⟩ := walk_finish (by simp) h
  rw [(finish_free hf).1, Place.child]
  simp

theorem walk_free (h : disk.Admits name place) (hfree : disk.node? place = none) :
    disk.walk .entry (.ofText name) = .ok (.free place) :=
  (without_within disk h.names_ne).walk_entry h (.inl ⟨hfree, rfl⟩)

theorem walk_node (h : disk.Admits name place) {node : Node}
    (hnode : disk.node? place = some node) :
    disk.walk .entry (.ofText name) = .ok (.node place node) :=
  (without_within disk h.names_ne).walk_entry h (.inr ⟨node, hnode, rfl⟩)

/-- The way to a name stays when more is put on the disk. -/
theorem mono (h : disk.Admits name place) (hwithin : disk.Within disk') :
    disk'.Admits name place :=
  (hwithin.without h.names_ne).walk_entry h (.inl ⟨node?_without_self disk' h.names_ne, rfl⟩)

/-- The way to a name stays when its place is cleared. -/
theorem cleared (h : disk.Admits name place) : (disk.without place).Admits name place := by
  have hwithin : (disk.without place).Within ((disk.without place).without place) := by
    intro p node hp
    have hne : p ≠ place := by
      rintro rfl
      rw [node?_without_self disk h.names_ne] at hp
      cases hp
    rwa [node?_without _ hne]
  exact hwithin.walk_entry h (.inl ⟨node?_without_self _ h.names_ne, rfl⟩)

theorem node?_add (h : disk.Admits name place) (hfree : disk.node? place = none) (node : Node) :
    (disk.add place node).node? place = some node := by
  obtain ⟨p, last, slash, hf⟩ := walk_finish (by simp) h
  obtain ⟨rfl, -⟩ := finish_free hf
  exact Disk.node?_add node hfree

end Admits

/-- A folder has the name. -/
def Blocked (disk : Disk) (name : String) : Prop :=
  ∃ place, disk.walk .entry (.ofText name) = .ok (.node place .folder)

instance (disk : Disk) (name : String) : Decidable (disk.Blocked name) :=
  match h : disk.walk .entry (.ofText name) with
  | .ok (.node place .folder) => isTrue ⟨place, h⟩
  | .ok (.node _ (.device _)) => isFalse fun ⟨_, hw⟩ => by cases h.symm.trans hw
  | .ok (.node _ (.link _)) => isFalse fun ⟨_, hw⟩ => by cases h.symm.trans hw
  | .ok (.free _) => isFalse fun ⟨_, hw⟩ => by cases h.symm.trans hw
  | .error _ => isFalse fun ⟨_, hw⟩ => by cases h.symm.trans hw

theorem Blocked.mono (h : disk.Blocked name) (hnodes : disk.nodes <+: disk'.nodes) :
    disk'.Blocked name := by
  obtain ⟨place, hw⟩ := h
  exact ⟨place, walk_mono hnodes hw⟩

/-! ## 3. Removing and making a link -/

/-- A text that a path and the target of a link can have. -/
def IsPathText (text : String) : Prop := ∃ path, checkText text = .ok path

instance (text : String) : Decidable (IsPathText text) :=
  match h : checkText text with
  | .ok path => isTrue ⟨path, h⟩
  | .error _ => isFalse fun ⟨_, hc⟩ => by cases h.symm.trans hc

theorem IsPathText.noZero {text : String} (h : IsPathText text) : hasZero text = false := by
  obtain ⟨path, hc⟩ := h
  unfold checkText at hc
  split at hc
  · cases hc
  · next hzero => exact Bool.eq_false_iff.mpr hzero

/-- The text of a path that ends in a name, and not in a slash: what a link can be called. -/
structure IsLinkName (name : String) : Prop where
  valid : checkText name = .ok (.ofText name)
  slash : (Path.ofText name).slash = false
  last : ∃ last, (Path.ofText name).last? = some last ∧ isLongName last = false

theorem removeFile_free (hname : IsLinkName name) (h : disk.Admits name place)
    (hfree : disk.node? place = none) : disk.removeFile name = .error (.refused .notFound) := by
  simp only [removeFile, hname.valid, h.walk_free hfree, bind, Except.bind, Refusal.lift]
  rfl

theorem removeFile_node (hname : IsLinkName name) (h : disk.Admits name place) {node : Node}
    (hnode : disk.node? place = some node) (hfolder : node ≠ .folder) :
    disk.removeFile name = .ok (disk.without place) := by
  simp only [removeFile, hname.valid, h.walk_node hnode, bind, Except.bind, Refusal.lift]
  cases node with
  | folder => exact absurd rfl hfolder
  | device d =>
    rw [hname.slash]
    rfl
  | link target =>
    rw [hname.slash]
    rfl

theorem Blocked.removeFile (hname : IsLinkName name) (h : disk.Blocked name) :
    disk.removeFile name = .error (.refused .isDirectory) := by
  obtain ⟨place, hw⟩ := h
  simp only [Disk.removeFile, hname.valid, hw, bind, Except.bind, Refusal.lift]
  rfl

theorem Blocked.makeLink (hname : IsLinkName name) (h : disk.Blocked name) (target : Target)
    (text : String) : ∃ e, disk.makeLink target text name = .error e := by
  obtain ⟨place, hw⟩ := h
  simp only [Disk.makeLink, hname.valid, hw, bind, Except.bind, Refusal.lift]
  split
  · exact ⟨_, rfl⟩
  · split <;> exact ⟨_, rfl⟩

theorem makeLink_free (hname : IsLinkName name) (h : disk.Admits name place)
    (hfree : disk.node? place = none) {text : String} (ht : IsPathText text) (target : Target) :
    disk.makeLink target text name = .ok (disk.add place (.link target)) := by
  have hzero : (hasZero text || hasZero name) = false := by
    rw [ht.noZero, IsPathText.noZero ⟨_, hname.valid⟩, Bool.or_self]
  obtain ⟨path, hc⟩ := ht
  simp only [makeLink, hzero, hc, hname.valid, h.walk_free hfree, hname.slash, bind, Except.bind,
    Refusal.lift]
  rfl

theorem makeLink_nodes {target : Target} {text : String}
    (h : disk.makeLink target text name = .ok disk') : disk.nodes <+: disk'.nodes := by
  simp only [makeLink, bind, Except.bind] at h
  split at h
  · cases h
  split at h
  · cases h
  split at h
  · cases h
  split at h
  · cases h
  split at h
  · split at h
    · cases h
    · cases h
      exact List.prefix_append _ _
  · cases h

/-- The disk from which the name of a link has been removed, if that was possible. -/
def unlinked (disk : Disk) (name : String) : Disk := (disk.removeFile name).toOption.getD disk

/-- The disk on which a link has been made, if that was possible. -/
def linked (disk : Disk) (target : Target) (text name : String) : Disk :=
  (disk.makeLink target text name).toOption.getD disk

/-- With nothing at its place a link is made, unless its target has no text that a link can have. -/
theorem Admits.linked (hname : IsLinkName name) (h : disk.Admits name place)
    (hfree : disk.node? place = none) (target : Target) (text : String) :
    (disk.linked target text name).Admits name place ∧ (IsPathText text →
      (disk.linked target text name).node? place = some (.link target)) := by
  constructor
  · unfold Disk.linked
    cases hmake : disk.makeLink target text name with
    | error e => exact h
    | ok disk' => exact h.mono (within_of_nodes (makeLink_nodes hmake))
  · intro ht
    rw [Disk.linked, makeLink_free hname h hfree ht]
    exact h.node?_add hfree _

/-! ## 4. Reading a link -/

/-- The target of the link that has a name. -/
def readLink? (disk : Disk) (name : String) : Option Target :=
  match checkText name with
  | .error _ => none
  | .ok path =>
    match disk.walk .entry path with
    | .ok (.node _ (.link target)) => if path.slash then none else some target
    | _ => none

theorem Admits.readLink? (hname : IsLinkName name) (h : disk.Admits name place) {target : Target}
    (hlink : disk.node? place = some (.link target)) : disk.readLink? name = some target := by
  simp only [Disk.readLink?, hname.valid, h.walk_node hlink, hname.slash]
  rfl

theorem finish_long (disk : Disk) (purpose : Purpose) (p : Place) {last : String} (slash : Bool)
    (hlong : isLongName last = true) : ∃ r, disk.finish purpose p last slash = .refused r := by
  rw [finish, if_pos hlong]
  split <;> exact ⟨_, rfl⟩

/-- No walk ends at a name that is longer than the system allows, whatever is on the disk. -/
theorem walkFrom_long (disk : Disk) {purpose : Purpose} {links : Nat} {p : Place} {path : Path}
    {last : String} (hlast : path.last? = some last) (hlong : isLongName last = true) :
    ∃ r, disk.walkFrom purpose links p path = .error r := by
  induction links using Nat.strongRecOn generalizing p path with
  | ind links ih =>
    rw [walkFrom.eq_def]
    dsimp only
    cases disk.enter p path.folders with
    | refused r => exact ⟨r, rfl⟩
    | link target rest =>
      cases links with
      | zero => exact ⟨_, rfl⟩
      | succ links => exact ih links (Nat.lt_succ_self _) hlast
    | done q =>
      obtain ⟨r, hr⟩ := disk.finish_long purpose q path.slash hlong
      simp only [hlast, hr]
      exact ⟨r, rfl⟩

/-- A name that is too long has no folder and no link, whatever is on the disk. -/
theorem not_blocked_long {last : String} (hlast : (Path.ofText name).last? = some last)
    (hlong : isLongName last = true) : ¬ disk.Blocked name := by
  rintro ⟨place, hw⟩
  obtain ⟨r, hr⟩ := disk.walkFrom_long hlast hlong
  cases hr.symm.trans hw

theorem readLink?_long {last : String} (hlast : (Path.ofText name).last? = some last)
    (hlong : isLongName last = true) : disk.readLink? name = none := by
  unfold Disk.readLink?
  split
  · rfl
  · next path hc =>
    obtain rfl := checkText_ok hc
    obtain ⟨r, hr⟩ := disk.walkFrom_long hlast hlong
    rw [walk, hr]

end Disk

/-! ## 5. Moving a link -/

/-- The absolute form of a path for someone in the folder `home`. -/
def absolute (home path : String) : String :=
  if path.toList.head? = some '/' then path else home ++ "/" ++ path

theorem linkTarget_text (home path : String) :
    (linkTarget path).text home = absolute home path := by
  unfold linkTarget absolute
  split <;> rfl

theorem moveLink_home (name path : String) (host : Host) :
    (moveLink name path host).home = host.home := by
  unfold moveLink
  dsimp only
  split <;> rfl

theorem moveLink_disk (name path : String) (host : Host) :
    (moveLink name path host).disk =
      (host.disk.unlinked name).linked (linkTarget path) (absolute host.home path) name := by
  rw [Disk.unlinked, ← linkTarget_text]
  cases hremove : host.disk.removeFile name with
  | error e =>
    cases hmake : host.disk.makeLink (linkTarget path) ((linkTarget path).text host.home) name <;>
      simp [moveLink, Disk.linked, hremove, hmake, Except.toOption, Host.report]
  | ok disk =>
    cases hmake : disk.makeLink (linkTarget path) ((linkTarget path).text host.home) name <;>
      simp [moveLink, Disk.linked, hremove, hmake, Except.toOption, Host.report]

/-- Nothing but a folder keeps a link from being made under a name. -/
def Disk.IsOpenTo (disk : Disk) (name : String) : Prop :=
  disk.Blocked name ∨ ∃ place, disk.Admits name place

/-- A link leads to a path, unless a folder is in its way or no link can have that path. -/
def Host.Leads (host : Host) (name path : String) : Prop :=
  host.disk.Blocked name ∨ ∃ place, host.disk.Admits name place ∧
    (Disk.IsPathText (absolute host.home path) →
      host.disk.node? place = some (.link (linkTarget path)))

/-- The text of the target of the link that has a name. -/
def Host.readLink? (host : Host) (name : String) : Option String :=
  (host.disk.readLink? name).map (·.text host.home)

/-- A link that leads to a path has its absolute form for a target. -/
theorem Host.Leads.readLink? {host : Host} {name path : String} (h : host.Leads name path)
    (hname : Disk.IsLinkName name) (hopen : ¬ host.disk.Blocked name)
    (ht : Disk.IsPathText (absolute host.home path)) :
    host.readLink? name = some (absolute host.home path) := by
  obtain ⟨place, hadmits, hlink⟩ := h.resolve_left hopen
  rw [Host.readLink?, hadmits.readLink? hname (hlink ht), Option.map_some, linkTarget_text]

theorem Host.Leads.isOpenTo {host : Host} {name path : String} (h : host.Leads name path) :
    host.disk.IsOpenTo name := by
  rcases h with hblocked | ⟨place, hadmits, -⟩
  · exact .inl hblocked
  · exact .inr ⟨place, hadmits⟩

/-- Moving a link to a path makes it lead to that path. -/
theorem moveLink_leads {name : String} {host : Host} (hname : Disk.IsLinkName name)
    (h : host.disk.IsOpenTo name) (path : String) :
    (moveLink name path host).Leads name path := by
  have hdisk := moveLink_disk name path host
  have hblocked (hb : host.disk.Blocked name) : (moveLink name path host).Leads name path := by
    obtain ⟨e, he⟩ := hb.makeLink hname (linkTarget path) (absolute host.home path)
    rw [Disk.unlinked, hb.removeFile hname] at hdisk
    simp only [Except.toOption, Option.getD, Disk.linked, he] at hdisk
    exact .inl (hdisk ▸ hb)
  rcases h with hb | ⟨place, hadmits⟩
  · exact hblocked hb
  have hmade (hopen : (host.disk.unlinked name).Admits name place)
      (hfree : (host.disk.unlinked name).node? place = none) :
      (moveLink name path host).Leads name path := by
    obtain ⟨hadmits', hlink⟩ :=
      hopen.linked hname hfree (linkTarget path) (absolute host.home path)
    rw [Host.Leads, moveLink_home, hdisk]
    exact .inr ⟨place, hadmits', hlink⟩
  cases hnode : host.disk.node? place with
  | none =>
    have hsame : host.disk.unlinked name = host.disk := by
      rw [Disk.unlinked, Disk.removeFile_free hname hadmits hnode]
      rfl
    rw [hsame] at hmade
    exact hmade hadmits hnode
  | some node =>
    by_cases hfolder : node = .folder
    · subst hfolder
      exact hblocked ⟨place, hadmits.walk_node hnode⟩
    · have hcleared : host.disk.unlinked name = host.disk.without place := by
        rw [Disk.unlinked, Disk.removeFile_node hname hadmits hnode hfolder]
        rfl
      rw [hcleared] at hmade
      exact hmade hadmits.cleared (Disk.node?_without_self _ hadmits.names_ne)

/-! ## 6. Making the folder of a link -/

namespace Disk

variable {disk : Disk} {place : Place} {name : String}

theorem finish_without {p : Place} {last : String} {slash : Bool} {stop : Stop}
    (h : disk.finish .entry p last slash = .done stop) :
    (disk.without (p.child last)).finish .entry p last slash = .done (.free (p.child last)) := by
  rw [finish, if_neg (by simp)] at h ⊢
  split at h
  · cases h
  next hlong =>
  rw [if_neg hlong, node?_without_self disk (by simp [Place.child])]

/-- Neither a free place nor a device is on the way to anything. -/
theorem admits_of_walk {stop : Stop}
    (hstop : stop = .free place ∨ ∃ d, stop = .node place (.device d))
    (hw : disk.walk .entry (.ofText name) = .ok stop) : disk.Admits name place := by
  have hplace {p : Place} {last : String} {slash : Bool}
      (hf : disk.finish .entry p last slash = .done stop) :
      place = p.child last ∧ ∀ node, disk.node? place = some node → ∃ d, node = .device d := by
    rcases hstop with rfl | ⟨d, rfl⟩
    · obtain ⟨hchild, hnone⟩ := finish_free hf
      exact ⟨hchild, fun node hnode => by rw [hnone] at hnode; cases hnode⟩
    · obtain ⟨hchild, hdevice⟩ := finish_device hf
      exact ⟨hchild, fun node hnode => ⟨d, Option.some.inj (hnode.symm.trans hdevice)⟩⟩
  have hne : ∀ q, stop ≠ .node q .folder := by
    rcases hstop with rfl | ⟨d, rfl⟩ <;> simp
  have hpasses : disk.Passes (disk.without place) := by
    intro p node hdevice hnode
    obtain ⟨q, last, slash, hf⟩ := walk_finish hne hw
    have hother : p ≠ place := by
      rintro rfl
      obtain ⟨d, hd⟩ := (hplace hf).2 node hnode
      exact hdevice d hd
    rwa [node?_without disk hother]
  obtain ⟨_, hfree, rfl⟩ := walkFrom_transfer hpasses
    (fun q hq => absurd hq (hne q))
    (fun p last slash hf => ⟨.free place, (hplace hf).1 ▸ finish_without hf, rfl⟩)
    (fun _ _ _ _ _ hf => absurd rfl (finish_link hf).1) _ _ _ hw
  exact hfree

/-- In a folder that is there every name of a moderate length ends somewhere. -/
theorem walk_entry_cases {q : Place} {path : Path} {last : String}
    (hlong : isLongName last = false)
    (h : ∀ stop, disk.finish .entry q last path.slash = .done stop →
      disk.walk .entry path = .ok stop) :
    disk.walk .entry path = .ok (.free (q.child last)) ∨
      ∃ node, disk.walk .entry path = .ok (.node (q.child last) node) := by
  have hshort : ¬ isLongName last = true := by simp [hlong]
  cases hnode : disk.node? (q.child last) with
  | none =>
    refine .inl (h _ ?_)
    rw [finish, if_neg (by simp), if_neg hshort, hnode]
  | some node =>
    refine .inr ⟨node, h _ ?_⟩
    rw [finish, if_neg (by simp), if_neg hshort, hnode]
    cases node <;> rfl

end Disk

/-- A link can be made under a name: a link can be called so, its folder is there or can be made,
and a link that has the name already is not on the way to it. -/
structure Host.TakesLink (host : Host) (name : String) : Prop where
  named : Disk.IsLinkName name
  folder : ∀ parent, parentText? name.toList = some parent → parent ≠ [] →
    (host.disk.makeFolders (String.ofList parent)).1 = .ok ()
  apart : ∀ place target,
    (prepareLink name host).disk.walk .entry (.ofText name) = .ok (.node place (.link target)) →
      (prepareLink name host).disk.Admits name place

/-- The folder of a link is there when it has been prepared. -/
theorem prepareLink_folder {host : Host} {name : String} {parent : List Char}
    (hparent : parentText? name.toList = some parent)
    (hfolder : parent ≠ [] → (host.disk.makeFolders (String.ofList parent)).1 = .ok ()) :
    ∃ q, (prepareLink name host).disk.walk .content (.ofText (String.ofList parent)) =
      .ok (.node q .folder) := by
  cases parent with
  | nil => exact ⟨_, rfl⟩
  | cons c rest =>
    rcases hmade : host.disk.makeFolders (String.ofList (c :: rest)) with ⟨result, disk⟩
    rw [hmade] at hfolder
    obtain rfl : result = .ok () := hfolder (by simp)
    have hdisk : (prepareLink name host).disk = disk := by
      simp only [prepareLink, hparent, hmade]
    obtain ⟨p, q, hc, hw⟩ :=
      Disk.isFolder_iff.mp (Disk.makeFolders_isFolder (by simp) hmade)
    rw [Disk.checkText_ok hc] at hw
    exact ⟨q, hdisk ▸ hw⟩

/-- A link can be made when its folder has been made. -/
theorem Host.TakesLink.prepared {host : Host} {name : String} (h : host.TakesLink name) :
    (prepareLink name host).disk.IsOpenTo name := by
  obtain ⟨last, hlast, hlong⟩ := h.named.last
  obtain ⟨parent, hparent, hnames, habsolute⟩ := parentText?_names hlast h.named.slash
  obtain ⟨q, hfolder⟩ := prepareLink_folder hparent (h.folder parent hparent)
  have hfolders : (Path.ofText name).folders = (Path.ofText (String.ofList parent)).names := by
    rw [ofText_names, String.toList_ofList, hnames]
  have hroot : (Path.ofText name).absolute = (Path.ofText (String.ofList parent)).absolute := by
    rw [ofText_absolute (String.ofList parent), String.toList_ofList, habsolute]
  rcases Disk.walk_entry_cases hlong fun _ =>
    Disk.walk_child hfolders hroot (ofText_last?_ne _) hfolder hlast with hfree | ⟨node, hnode⟩
  · exact .inr ⟨_, Disk.admits_of_walk (.inl rfl) hfree⟩
  · cases node with
    | folder => exact .inl ⟨_, hnode⟩
    | device d => exact .inr ⟨_, Disk.admits_of_walk (.inr ⟨d, rfl⟩) hnode⟩
    | link target => exact .inr ⟨_, h.apart _ _ hnode⟩

end Logbook
