import Logbook.Proofs.Rotating.Following

/-!
# The link to the current file

A link that is given when a sink is opened leads to the current file of the sink from then on: it is
moved when the sink is opened and whenever a file is adopted, and nothing else that the sink does
takes it away.

Results:
1. `open_leads`: the link leads to the file with which a sink is opened.
2. `perform_leads`, `run_leads`: it leads to the current file after any number of operations, some
   of which may have failed.
3. `current_file_is_followed`: what links and watchers show of a sink.
-/

namespace Logbook

open Rotating (Op Turn)

/-! ## 1. Opening -/

variable {host host' : Host} {name path : String}

theorem Host.Leads.adds (h : host.Leads name path) (ha : host.Adds host') :
    host'.Leads name path := by
  rcases h with hblocked | ⟨place, hadmits, hlink⟩
  · exact .inl (hblocked.mono ha.nodes)
  · have hwithin := Disk.within_of_nodes ha.nodes
    refine .inr ⟨place, hadmits.mono hwithin, fun ht => ?_⟩
    rw [ha.home] at ht
    exact hwithin _ _ (hlink ht)

theorem Disk.IsOpenTo.adds (h : host.disk.IsOpenTo name) (ha : host.Adds host') :
    host'.disk.IsOpenTo name := by
  rcases h with hblocked | ⟨place, hadmits⟩
  · exact .inl (hblocked.mono ha.nodes)
  · exact .inr ⟨place, hadmits.mono (Disk.within_of_nodes ha.nodes)⟩

namespace Sink

/-- The path of the file to which a sink writes. -/
def current? : Sink → Option String
  | file f => some f.path
  | rotating w => some w.current
  | _ => none

/-- A link is moved by the sink and leads to its current file. -/
structure IsLed (home name : String) (sink : Sink) (host : Host) : Prop where
  home_eq : host.home = home
  hooks : ∀ w, sink = rotating w → w.hooks = [.link name]
  leads : ∃ path, sink.current? = some path ∧ host.Leads name path

end Sink

theorem prepareLink_home (name : String) (host : Host) :
    (prepareLink name host).home = host.home := by
  unfold prepareLink
  split
  · rfl
  · rfl
  · dsimp only
    split <;> rfl

theorem FileSink.open_adds {tee : Bool} {f : FileSink} {template : String}
    (h : FileSink.open template tee host = (.ok f, host')) : host.Adds host' := by
  have hparent := makeParent_grows (String.ofList (Template.resolve template.toList host.localNow))
    host.disk
  unfold FileSink.open at h
  dsimp only [Host.readClock, Host.relyOnClock] at h
  split at h
  · cases h
  next hmade =>
  rw [hmade] at hparent
  split at h
  · next hopen =>
    cases h
    exact ⟨hparent.nodes.trans (Disk.openAppend_grows hopen).nodes, rfl, rfl⟩
  · cases h

/-- What opening a sink for a path comes to: a single file, or rotating files. -/
theorem Sink.open_cases {tee : Bool} {maxSize : Nat} {link : String} {sink : Sink}
    (hpath : Text.trimString path ≠ "")
    (ho : Sink.open path tee maxSize link host = (.ok sink, host')) :
    (∃ f host₁, FileSink.open (Text.trimString path) tee (linkHooks link host).2 = (.ok f, host₁) ∧
        sink = file f ∧ host' = runHooks (linkHooks link host).1 f.path host₁) ∨
      ∃ w size, Rotating.open (Text.trimString path) tee size (linkHooks link host).1
        (linkHooks link host).2 = (.ok w, host') ∧ sink = rotating w := by
  have hempty : ¬ (Text.trimString path).isEmpty = true := by simpa using hpath
  rcases hprepared : linkHooks link host with ⟨hooks, host₀⟩
  unfold Sink.open at ho
  simp only [if_neg hempty, hprepared] at ho
  generalize (if Template.hasIndex (Text.trimString path).toList then maxSize else 0) = size at ho
  generalize Text.trimString path = path at ho ⊢
  by_cases hsingle : (decide (size = 0) && !Template.hasDateTokens path.toList) = true
  · rw [if_pos hsingle] at ho
    rcases hopen : FileSink.open path tee host₀ with ⟨result, host₁⟩
    rw [hopen] at ho
    cases result with
    | error e => cases (Prod.mk.inj ho).1
    | ok f =>
      obtain ⟨hsink, hhost⟩ := Prod.mk.inj ho
      exact .inl ⟨f, host₁, rfl, (Except.ok.inj hsink).symm, hhost.symm⟩
  · rw [if_neg hsingle] at ho
    rcases hopen : Rotating.open path tee size hooks host₀ with ⟨result, host₁⟩
    rw [hopen] at ho
    cases result with
    | error e => cases (Prod.mk.inj ho).1
    | ok w =>
      obtain ⟨hsink, rfl⟩ := Prod.mk.inj ho
      exact .inr ⟨w, size, hopen, (Except.ok.inj hsink).symm⟩

/-- The link leads to the file with which a sink is opened. -/
theorem Sink.open_leads {tee : Bool} {maxSize : Nat} {link : String} {sink : Sink}
    (hpath : Text.trimString path ≠ "") (hlink : linkPath? link = some name)
    (h : host.TakesLink name) (ho : Sink.open path tee maxSize link host = (.ok sink, host')) :
    sink.IsLed host.home name host' := by
  have hhooks : linkHooks link host = ([.link name], prepareLink name host) := by
    simp only [linkHooks, hlink]
  have hhome := prepareLink_home name host
  rcases Sink.open_cases hpath ho with ⟨f, host₁, hopen, rfl, rfl⟩ | ⟨w, size, hopen, rfl⟩
  · rw [hhooks] at hopen ⊢
    have hadds := FileSink.open_adds hopen
    refine ⟨(moveLink_home name f.path host₁).trans (hadds.home.trans hhome), by simp, f.path, rfl,
      ?_⟩
    exact moveLink_leads h.named (h.prepared.adds hadds) f.path
  · rw [hhooks] at hopen
    obtain ⟨hown, before, hadds, rfl⟩ := Rotating.open_told hopen
    refine ⟨(moveLink_home name w.current before).trans (hadds.home.trans hhome), ?_, w.current,
      rfl, moveLink_leads h.named (h.prepared.adds hadds) w.current⟩
    rintro _ ⟨⟩
    exact hown

/-! ## 2. Runs -/

/-- Does one thing, whether it succeeds or not. -/
def Sink.perform (s : Sink × Host) : Op → Sink × Host
  | .clock now => (s.1, { s.2 with now := now })
  | .write bytes => (s.1.write bytes s.2).2
  | .flush => (s.1.flush s.2).2
  | .sync => (s.1.sync s.2).2

theorem FileSink.write_adds (f : FileSink) (bytes : Bytes) (host : Host) :
    host.Adds (f.write bytes host).2.2 ∧ (f.write bytes host).2.1.path = f.path := by
  have hkeeps := Host.Adds.kept host (f.file.write_keeps bytes host.disk)
  unfold FileSink.write
  rcases hw : f.file.write bytes host.disk with ⟨result, file, disk⟩
  rw [hw] at hkeeps
  cases result with
  | error e => exact ⟨hkeeps, rfl⟩
  | ok _ => exact ⟨hkeeps.trans (.tee _ _ _), rfl⟩

namespace Sink.IsLed

variable {home : String}

/-- A single file stays the same, so the link to it only has to be left alone. -/
theorem file {f f' : FileSink} (h : IsLed home name (.file f) host) (ha : host.Adds host')
    (hpath : f'.path = f.path) : IsLed home name (.file f') host' := by
  obtain ⟨current, hcurrent, hleads⟩ := h.leads
  refine ⟨ha.home.trans h.home_eq, by simp, f.path, by rw [current?, hpath], ?_⟩
  obtain rfl := Option.some.inj hcurrent
  exact hleads.adds ha

/-- Rotating files move the link when they adopt a file, and leave it alone otherwise. -/
theorem rotating {w w' : Rotating} {file? : Option Holding} (hname : Disk.IsLinkName name)
    (h : IsLed home name (.rotating w) host) (ht : Turn w host file? w' host') :
    IsLed home name (.rotating w') host' := by
  have hhooks := h.hooks w rfl
  obtain ⟨current, hcurrent, hleads⟩ := h.leads
  obtain rfl := Option.some.inj hcurrent
  obtain ⟨before, hbefore, hafter⟩ := ht.told
  have hpath := congrArg Holding.path ht.holding
  rw [hhooks] at hafter
  refine ⟨?_, ?_, w'.current, rfl, ?_⟩
  · rw [hafter.home, ← h.home_eq, ← hbefore.home]
    cases file? with
    | none => rfl
    | some file => exact moveLink_home name file.path before
  · rintro _ ⟨⟩
    rw [ht.hooks, hhooks]
  · cases file? with
    | none =>
      have hsame : w'.current = w.current := hpath
      rw [hsame]
      exact (hleads.adds hbefore).adds hafter
    | some file =>
      have hadopted : w'.current = file.path := hpath
      rw [hadopted]
      exact (moveLink_leads hname (hleads.adds hbefore).isOpenTo file.path).adds hafter

end Sink.IsLed

/-- One operation, whether it succeeds or not. -/
theorem Sink.perform_leads {home : String} (hname : Disk.IsLinkName name) {s : Sink × Host}
    (op : Op) (h : s.1.IsLed home name s.2) :
    (perform s op).1.IsLed home name (perform s op).2 := by
  obtain ⟨sink, host⟩ := s
  cases sink with
  | file f =>
    cases op with
    | clock now => exact h.file ⟨List.prefix_rfl, rfl, rfl⟩ rfl
    | write bytes =>
      obtain ⟨hadds, hpath⟩ := f.write_adds bytes host
      simp only [perform, Sink.write]
      split
      · exact h
      · exact h.file hadds hpath
    | flush => exact h.file (.kept host (f.file.flush_keeps host.disk)) rfl
    | sync => exact h.file (.kept host (f.file.sync_keeps host.disk)) rfl
  | rotating w =>
    cases op with
    | clock now => exact h.rotating hname (Rotating.perform_turn (w, host) (.clock now))
    | write bytes =>
      simp only [perform, Sink.write]
      split
      · exact h
      · exact h.rotating hname (w.write_turn bytes host)
    | flush => exact h.rotating hname (Rotating.perform_turn (w, host) .flush)
    | sync => exact h.rotating hname (Rotating.perform_turn (w, host) .sync)
  | discard | console | memory _ | scripted _ =>
    obtain ⟨_, hcurrent, -⟩ := h.leads
    cases hcurrent

/-- Any number of operations. -/
theorem Sink.run_leads {home : String} (hname : Disk.IsLinkName name) {s : Sink × Host}
    (ops : List Op) (h : s.1.IsLed home name s.2) :
    (ops.foldl perform s).1.IsLed home name (ops.foldl perform s).2 := by
  induction ops generalizing s with
  | nil => exact h
  | cons op ops ih => exact ih (perform_leads hname op h)

/-! ## 3. What is shown of the current file -/

/-- A link that is given for a sink, and that can be made under its name, has the absolute form of
the path of the current file for a target: when the sink has been opened, and after any operations
on it, whether they succeeded or not, as long as no folder has taken the name and a link can have
that target at all. The watchers of rotating files are told every file that is adopted, from the
first one on, each once and in order; a write adopts one file at most, and the last file that was
adopted is the current one. -/
theorem current_file_is_followed :
    (∀ (path : String) (tee : Bool) (maxSize : Nat) (link name : String) (host host' : Host)
        (sink : Sink),
      Text.trimString path ≠ "" → linkPath? link = some name → host.TakesLink name →
      Sink.open path tee maxSize link host = (.ok sink, host') →
      ∀ ops : List Op, ∃ current,
        (ops.foldl Sink.perform (sink, host')).1.current? = some current ∧
        (¬ (ops.foldl Sink.perform (sink, host')).2.disk.Blocked name →
          Disk.IsPathText (absolute host.home current) →
          (ops.foldl Sink.perform (sink, host')).2.readLink? name =
            some (absolute host.home current))) ∧
    (∀ (template : String) (tee : Bool) (maxSize : Nat) (hooks : List Hook) (host host' : Host)
        (w : Rotating),
      Rotating.open template tee maxSize hooks host = (.ok w, host') →
      ∀ ops : List Op,
        (ops.foldl Rotating.perform (w, host')).2.adopted = host.adopted ++
          Rotating.toldPaths (hooks.count .watch)
            (w.holding :: Rotating.adoptions (w, host') ops) ∧
        (w.holding :: Rotating.adoptions (w, host') ops).getLast? =
          some (ops.foldl Rotating.perform (w, host')).1.holding) := by
  constructor
  · intro path tee maxSize link name host host' sink hpath hlink htakes hopen ops
    have hled := Sink.run_leads htakes.named ops (s := (sink, host'))
      (Sink.open_leads hpath hlink htakes hopen)
    obtain ⟨current, hcurrent, hleads⟩ := hled.leads
    refine ⟨current, hcurrent, fun hblocked htext => ?_⟩
    rw [← hled.home_eq] at htext ⊢
    exact hleads.readLink? htakes.named hblocked htext
  · intro template tee maxSize hooks host host' w hopen ops
    obtain ⟨hhooks, before, hadds, rfl⟩ := Rotating.open_told hopen
    obtain ⟨htold, hlast⟩ := Rotating.run_follows (w, runHooks hooks w.current before) ops
    refine ⟨?_, hlast⟩
    rw [htold, hhooks, runHooks_adopted, hadds.adopted, List.append_assoc]
    rfl

/-- A host on which the folder of the link is still to be made. -/
def ledHost : Host := Host.start "/home" (.fixed 0) ⟨1718445600, 0⟩

/-- Three buffers of which the last two do not fit beside what is there, and an hour that changes
nothing. -/
def ledOps : List Op :=
  [.write (Utf8.ofString "one"), .write (Utf8.ofString "two two"), .clock ⟨1718449200, 0⟩, .flush,
    .write (Utf8.ofString "three three")]

theorem ledHost_takesLink : ledHost.TakesLink "links/now" where
  named := ⟨rfl, rfl, "now", rfl, rfl⟩
  folder parent hparent _ := by
    have hlinks : parentText? "links/now".toList = some "links".toList := by decide
    rw [hlinks] at hparent
    obtain rfl := Option.some.inj hparent
    rfl
  apart place target hwalk := by
    have hfree : (prepareLink "links/now" ledHost).disk.walk .entry (.ofText "links/now") =
        .ok (.free ⟨.work, ["links", "now"]⟩) := by rfl
    rw [hfree] at hwalk
    cases hwalk

theorem current_file_is_followed_rotating :
    (∃ sink host', Text.trimString " a-index.log" ≠ "" ∧
      linkPath? "links/now " = some "links/now" ∧ ledHost.TakesLink "links/now" ∧
      Sink.open " a-index.log" false 10 "links/now " ledHost = (.ok sink, host') ∧
      ¬ (ledOps.foldl Sink.perform (sink, host')).2.disk.Blocked "links/now" ∧
      (ledOps.foldl Sink.perform (sink, host')).1.current? = some "a-2.log" ∧
      (ledOps.foldl Sink.perform (sink, host')).2.readLink? "links/now" =
        some "/home/a-2.log") ∧
    ∃ w host', Rotating.open "a-index.log" false 10 [.watch] ledHost = (.ok w, host') ∧
      (ledOps.foldl Rotating.perform (w, host')).2.adopted =
        Rotating.toldPaths 1 (w.holding :: Rotating.adoptions (w, host') ledOps) ∧
      (w.holding :: Rotating.adoptions (w, host') ledOps).map (·.path) =
        ["a-0.log", "a-1.log", "a-2.log"] := by
  have hpath : Text.trimString " a-index.log" ≠ "" := by decide
  have hlink : linkPath? "links/now " = some "links/now" := by decide
  constructor
  · have hrun : (match Sink.open " a-index.log" false 10 "links/now " ledHost with
        | (.ok sink, host) =>
          let s := ledOps.foldl Sink.perform (sink, host)
          decide (¬ s.2.disk.Blocked "links/now" ∧ s.1.current? = some "a-2.log")
        | (.error _, _) => false) = true := by decide +kernel
    rcases hopen : Sink.open " a-index.log" false 10 "links/now " ledHost with ⟨result, host'⟩
    rw [hopen] at hrun
    cases result with
    | error e => cases hrun
    | ok sink =>
      obtain ⟨hblocked, hcurrent⟩ := of_decide_eq_true hrun
      obtain ⟨current, hcurrent', hread⟩ := current_file_is_followed.1 _ _ _ _ _ _ _ _ hpath hlink
        ledHost_takesLink hopen ledOps
      obtain rfl := Option.some.inj (hcurrent'.symm.trans hcurrent)
      exact ⟨sink, host', hpath, hlink, ledHost_takesLink, rfl, hblocked, hcurrent,
        hread hblocked (by decide)⟩
  · have hrun : (match Rotating.open "a-index.log" false 10 [.watch] ledHost with
        | (.ok w, host) => decide ((w.holding :: Rotating.adoptions (w, host) ledOps).map (·.path) =
            ["a-0.log", "a-1.log", "a-2.log"])
        | (.error _, _) => false) = true := by decide +kernel
    rcases hopen : Rotating.open "a-index.log" false 10 [.watch] ledHost with ⟨result, host'⟩
    rw [hopen] at hrun
    cases result with
    | error e => cases hrun
    | ok w =>
      obtain ⟨htold, -⟩ := current_file_is_followed.2 _ _ _ _ _ _ _ hopen ledOps
      exact ⟨w, host', rfl, htold, of_decide_eq_true hrun⟩

/-- A single file is opened whatever the link is called, if the link has no folder of its own. -/
theorem ledHost_opens {link : String} (hlink : linkPath? link = some link)
    (hparent : parentText? link.toList = some []) :
    ∃ f host', Sink.open "a.log" false 0 link ledHost = (.ok (.file f), host') ∧
      f.path = "a.log" := by
  have hhooks : linkHooks link ledHost = ([.link link], ledHost) := by
    simp only [linkHooks, hlink, prepareLink, hparent]
  have hfile : (FileSink.open "a.log" false ledHost).1.toOption.map (·.path) = some "a.log" := by
    decide +kernel
  have hpath : Text.trimString "a.log" = "a.log" := by decide
  have hsingle : (decide ((if Template.hasIndex "a.log".toList then 0 else 0) = 0) &&
      !Template.hasDateTokens "a.log".toList) = true := by decide
  rcases hopen : FileSink.open "a.log" false ledHost with ⟨result, host'⟩
  rw [hopen] at hfile
  cases result with
  | error e => cases hfile
  | ok f =>
    refine ⟨f, runHooks [.link link] f.path host', ?_, Option.some.inj hfile⟩
    unfold Sink.open
    dsimp only
    rw [hpath, if_neg (by decide), if_pos hsingle, hhooks]
    dsimp only
    rw [hopen]

/-- A name that is longer than the system allows. -/
def longName : String := String.ofList (List.replicate 256 'l')

theorem longName_toList : longName.toList = List.replicate 256 'l' := String.toList_ofList

theorem linkPath?_longName : linkPath? longName = some longName := by
  have hsame : Text.trim (List.replicate 256 'l') = List.replicate 256 'l' := by decide +kernel
  have htrim : Text.trimString longName = longName := by
    rw [Text.trimString, longName_toList, hsame]
    rfl
  have hne : longName ≠ "" := by
    intro heq
    have hlist := congrArg String.toList heq
    rw [longName_toList] at hlist
    cases hlist
  rw [linkPath?, htrim, if_neg (by simpa using hne)]

/-- Not every link that is asked for can be made: a name that is too long has none, though it is
neither a folder nor the log file, and the folder for it is there. -/
theorem long_name_unlinked :
    ∃ sink host', Sink.open "a.log" false 0 longName ledHost = (.ok sink, host') ∧
      sink.current? = some "a.log" ∧ linkPath? longName = some longName ∧
      parentText? longName.toList = some [] ∧ ¬ host'.disk.Blocked longName ∧
      host'.readLink? longName ≠ some (absolute ledHost.home "a.log") := by
  have hparent : parentText? longName.toList = some [] := by
    rw [longName_toList]
    decide +kernel
  have hlong : Disk.isLongName longName = true := by
    rw [Disk.isLongName, Utf8.ofString, longName_toList]
    decide +kernel
  have hlast : (Path.ofText longName).last? = some longName := by
    refine ofText_last?_flat ?_ ?_ ?_ <;>
    · rw [longName_toList]
      decide +kernel
  obtain ⟨f, host', hopen, hpath⟩ := ledHost_opens linkPath?_longName hparent
  refine ⟨.file f, host', hopen, congrArg some hpath, linkPath?_longName, hparent,
    Disk.not_blocked_long hlast hlong, ?_⟩
  rw [Host.readLink?, Disk.readLink?_long hlast hlong]
  simp

end Logbook
