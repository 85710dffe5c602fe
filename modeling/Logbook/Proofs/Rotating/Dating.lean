import Logbook.Proofs.Rotating.Apart
import Logbook.Proofs.Time.Hours

/-!
# Every buffer goes to the file of its hour

A sink looks at the name of its file only when an hour begins, while moving on by size names the
next file anew at any time. What ties the two together is that the moment from which the name is
looked at again is the end of the hour for which the current file is named: until then, all times
give the same name.

Results:
1. `write_onTime`: a write goes to a file that is named for its time.
2. `Session.run_onTime`: so do all writes of a session.
3. `session_writes_on_time`: what that means for the files in the end.
-/

namespace Logbook

namespace Rotating

/-! ## 1. Single writes -/

/-- The name that a template gives at a moment, with its place for the counter. -/
def nameAt (template : String) (zone : Time.Zone) (now : Time.Moment) : List Char :=
  Template.resolve template.toList (zone.stamp now)

/-- The current file is named for a moment, and has the counter before the next one. -/
def NamedFor (template : String) (zone : Time.Zone) (now : Time.Moment) (w : Rotating) : Prop :=
  ∃ k, w.nextIndex = k + 1 ∧
    w.current = String.ofList (Template.candidate (nameAt template zone now) k)

/-- A sink that last looked at the clock at a moment: its file is named for that moment, and it
waits for the end of that hour. -/
structure OnTime (template : String) (zone : Time.Zone) (last : Time.Moment) (w : Rotating) :
    Prop where
  template_eq : w.template = template
  nextHour_eq : w.nextHour = zone.nextHour last
  named : NamedFor template zone last w

variable {template : String} {offset : Int} {last : Time.Moment} {w w' : Rotating}
  {host host' : Host}

theorem nameAt_congr {now : Time.Moment} (h : ((Time.Zone.fixed offset).stamp last).hourCount =
    ((Time.Zone.fixed offset).stamp now).hourCount) :
    nameAt template (.fixed offset) last = nameAt template (.fixed offset) now :=
  Template.resolve_congr _ (Time.Stamp.date_of_hourCount h) (Time.Stamp.hour_of_hourCount h)

theorem Adopts.namedFor {first : Nat} {disk : Disk} (htemplate : w.template = template)
    (h : Adopts (resolved w.template host) first disk w') :
    NamedFor template host.zone host.now w' := by
  obtain ⟨k, -, hnext, hcurrent⟩ := h.named
  rw [htemplate] at hcurrent
  exact ⟨k, hnext, hcurrent⟩

/-- Looking at the size leaves the file named for the last moment or names one for the present. -/
theorem rotateBySize_named {bytes : Nat} (hw : OnTime template host.zone last w)
    (h : w.rotateBySize bytes host = (.ok (), w', host')) :
    w'.template = template ∧ w'.nextHour = host.zone.nextHour last ∧
      (NamedFor template host.zone last w' ∨ NamedFor template host.zone host.now w') := by
  obtain ⟨-, rfl, rfl⟩ | ⟨-, hr⟩ := rotateBySize_looks h
  · exact ⟨hw.template_eq, hw.nextHour_eq, .inl hw.named⟩
  · obtain ⟨hadopts, hsame, hhour, -⟩ := rotate_adopts hr
    exact ⟨hsame.template.trans hw.template_eq, hhour.trans hw.nextHour_eq,
      .inr (hadopts.namedFor hw.template_eq)⟩

/-- Looking at the hour leaves the file named for the present. -/
theorem rotateByHour_onTime (hzone : host.zone = .fixed offset)
    (hle : last.atOrBefore host.now = true) (htemplate : w.template = template)
    (hhour : w.nextHour = host.zone.nextHour last)
    (hnamed : NamedFor template host.zone last w ∨ NamedFor template host.zone host.now w)
    (h : w.rotateByHour host = (.ok (), w', host')) :
    OnTime template host.zone host.now w' := by
  obtain ⟨hearly, rfl, rfl⟩ | ⟨works, ⟨hsame, rfl, rfl⟩ | ⟨-, hr⟩⟩ := rotateByHour_looks h
  · -- the hour has not ended since the sink looked last, so the name is still the same
    rw [hhour, hzone] at hearly
    have hcount := Time.same_hour hle hearly
    refine ⟨htemplate, ?_, ?_⟩
    · rw [hhour, hzone, Time.nextHour_fixed, Time.nextHour_fixed, hcount]
    · refine hnamed.elim (fun hlast => ?_) id
      rw [hzone] at hlast ⊢
      obtain ⟨k, hnext, hcurrent⟩ := hlast
      exact ⟨k, hnext, hcurrent.trans (by rw [nameAt_congr hcount])⟩
  · obtain ⟨k, hnext⟩ : ∃ k, w.nextIndex = k + 1 :=
      hnamed.elim (fun ⟨k, hnext, _⟩ => ⟨k, hnext⟩) (fun ⟨k, hnext, _⟩ => ⟨k, hnext⟩)
    rw [expected, htemplate, hnext] at hsame
    exact ⟨htemplate, rfl, k, hnext, hsame.symm⟩
  · obtain ⟨hadopts, hset, hnext, -⟩ := rotate_adopts hr
    exact ⟨hset.template.trans htemplate, hnext, hadopts.namedFor htemplate⟩

/-- A write goes to a file that is named for its time. -/
theorem write_onTime {bytes : Bytes} (hzone : host.zone = .fixed offset)
    (hw : OnTime template host.zone last w) (hle : last.atOrBefore host.now = true)
    (h : w.write bytes host = (.ok (), w', host')) : OnTime template host.zone host.now w' := by
  obtain ⟨w₁, host₁, w₂, host₂, h₁, h₂, h₃⟩ := write_cases h
  have hread : OnTime template host.readClock.2.zone last w := hw
  obtain ⟨htemplate, hhour, hnamed⟩ := rotateBySize_named hread h₁
  have hclock := rotateBySize_clock h₁
  have hzone₁ : host₁.zone = host.zone := hclock.zone
  have hnow₁ : host₁.now = host.now := hclock.now
  have hhour₁ : w₁.nextHour = host.zone.nextHour last := hhour
  have hnamed₁ : NamedFor template host.zone last w₁ ∨
      NamedFor template host.zone host.now w₁ := hnamed
  rw [← hzone₁] at hhour₁ hnamed₁ hzone ⊢
  rw [← hnow₁] at hnamed₁ hle ⊢
  have hon := rotateByHour_onTime hzone hle htemplate hhour₁ hnamed₁ h₂
  obtain ⟨file, -, rfl, -⟩ := append_cases h₃
  exact ⟨hon.template_eq, hon.nextHour_eq, hon.named⟩

/-! ## 2. Sessions -/

/-- A buffer was written at a moment to a candidate for that moment. At another moment at which the
template gives another text, no candidate has the path. -/
structure Placement.IsTimely (template : String) (zone : Time.Zone) (entry : Placement)
    (write : Time.Moment × Bytes) : Prop where
  bytes_eq : entry.bytes = write.2
  named : ∃ k, entry.path = String.ofList (Template.candidate (nameAt template zone write.1) k)
  noOther : ∀ other k, Template.HasPlainYear (zone.stamp other) →
    entry.path = String.ofList (Template.candidate (nameAt template zone other) k) →
    nameAt template zone other = nameAt template zone write.1

theorem OnTime.timely {zone : Time.Zone} {now : Time.Moment} (h : OnTime template zone now w)
    (hyear : Template.HasPlainYear (zone.stamp now)) (bytes : Bytes) :
    Placement.IsTimely template zone ⟨w.current, w.file.device, bytes⟩ (now, bytes) := by
  obtain ⟨k, -, hcurrent⟩ := h.named
  refine ⟨rfl, ⟨k, hcurrent⟩, ?_⟩
  intro other k' hother hpath
  have heq := String.ofList_injective (hpath.symm.trans hcurrent)
  exact (Template.candidate_resolve_inj hother hyear heq).1

/-- Any number of steps, while the clock does not go back from one write to the next. -/
theorem Session.run_onTime {s s' : Session} {ops : List Op} {done : List (Time.Moment × Bytes)}
    (hzone : s.host.zone = .fixed offset) (hs : OnTime template s.host.zone last s.writer)
    (hclock : (last :: (Op.timed s.host.now ops).map (·.1)).IsChain
      fun a b => a.atOrBefore b = true)
    (hyears : ∀ write ∈ Op.timed s.host.now ops,
      Template.HasPlainYear (s.host.zone.stamp write.1))
    (hlog : List.Forall₂ (Placement.IsTimely template s.host.zone) s.log done)
    (h : s.run? ops = some s') :
    List.Forall₂ (Placement.IsTimely template s.host.zone) s'.log
      (done ++ Op.timed s.host.now ops) := by
  induction ops generalizing s last done with
  | nil =>
    obtain rfl := Option.some.inj h
    rwa [Op.timed, List.append_nil]
  | cons op ops ih =>
    obtain ⟨s₁, hone, hrest⟩ := Option.bind_eq_some_iff.mp h
    obtain ⟨hsame, htimed⟩ := perform_clock hone
    rw [htimed ops] at hclock hyears ⊢
    rw [← hsame] at hzone hs hyears hlog ⊢
    rw [← List.append_assoc]
    have hlater : ∀ write ∈ Op.timed s₁.host.now ops,
        Template.HasPlainYear (s₁.host.zone.stamp write.1) :=
      fun write hmem => hyears write (List.mem_append_right _ hmem)
    -- without a write the log stays, and so does the moment at which the sink looked last
    have hquiet (hon : OnTime template s₁.host.zone last s₁.writer) (hsamelog : s₁.log = s.log)
        (hnone : Op.timed s.host.now [op] = []) :
        List.Forall₂ (Placement.IsTimely template s₁.host.zone) s'.log
          (done ++ Op.timed s.host.now [op] ++ Op.timed s₁.host.now ops) := by
      rw [hnone, List.nil_append] at hclock
      rw [hnone, List.append_nil]
      exact ih hzone hon hclock hlater (hsamelog.symm ▸ hlog) hrest
    have hover (hop : op = .flush ∨ op = .sync) :
        OnTime template s₁.host.zone last s₁.writer ∧ s₁.log = s.log := by
      obtain ⟨file, disk, -, rfl⟩ := handOver_cases hop hone
      exact ⟨⟨hs.template_eq, hs.nextHour_eq, hs.named⟩, rfl⟩
    cases op with
    | clock now =>
      cases hone
      exact hquiet hs rfl rfl
    | flush => exact hquiet (hover (.inl rfl)).1 (hover (.inl rfl)).2 rfl
    | sync => exact hquiet (hover (.inr rfl)).1 (hover (.inr rfl)).2 rfl
    | write bytes =>
      obtain ⟨w, host, hw, -, rfl⟩ := write_cases hone
      rw [hsame] at hzone hs
      obtain ⟨hle, hchain⟩ := List.isChain_cons_cons.mp hclock
      have hon := write_onTime hzone hs hle hw
      have hyear := hyears _ (List.mem_append_left _ List.mem_cons_self)
      rw [← hsame] at hzone hon
      exact ih hzone hon hchain hlater
        (List.rel_append hlog (.cons (hon.timely hyear bytes) .nil)) hrest

/-! ## 3. The files in the end -/

/-- What has been written to a file, if the writes that went to it are known. -/
theorem placed_eq_filter {log : List Placement} {writes : List (Time.Moment × Bytes)} {id : Nat}
    {went : Time.Moment × Bytes → Bool}
    (h : List.Forall₂ (fun entry write => entry.bytes = write.2 ∧
      (entry.device = .file id ↔ went write = true)) log writes) :
    placed log id = (writes.filter went).flatMap (·.2) := by
  induction h with
  | nil => rfl
  | @cons entry write log writes hone _ ih =>
    obtain ⟨hbytes, hdevice⟩ := hone
    rw [placed, List.flatMap_cons, Disk.share, hbytes]
    by_cases hwent : went write = true
    · rw [if_pos (hdevice.mpr hwent), List.filter_cons_of_pos hwent, List.flatMap_cons, ← ih]
      rfl
    · rw [if_neg (mt hdevice.mp hwent), List.filter_cons_of_neg hwent, ← ih]
      rfl

/-- Without a place for the counter a buffer is written to the path that the template gives. -/
theorem Placement.IsTimely.path_eq {zone : Time.Zone} {entry : Placement}
    {write : Time.Moment × Bytes} (hindex : Template.hasIndex template.toList = false)
    (h : entry.IsTimely template zone write) :
    entry.path = String.ofList (nameAt template zone write.1) := by
  obtain ⟨k, hpath⟩ := h.named
  rw [hpath, Template.candidate_eq_self]
  rw [nameAt, Template.hasIndex_resolve, hindex]

theorem placed_by_name {zone : Time.Zone} {disk : Disk} {log : List Placement}
    {writes : List (Time.Moment × Bytes)} {name : List Char} {id : Nat}
    (hindex : Template.hasIndex template.toList = false)
    (hlog : List.Forall₂ (Placement.IsTimely template zone) log writes)
    (hdirected : ∀ entry ∈ log, disk.LeadsTo entry.path entry.device)
    (hname : disk.LeadsTo (String.ofList name) (.file id))
    (halone : ∀ write ∈ writes, disk.LeadsTo (String.ofList (nameAt template zone write.1))
      (.file id) → nameAt template zone write.1 = name) :
    placed log id =
      (writes.filter fun write => nameAt template zone write.1 = name).flatMap (·.2) := by
  refine placed_eq_filter ?_
  simp only [decide_eq_true_eq]
  induction hlog with
  | nil => exact .nil
  | @cons entry write log writes hone _ ih =>
    have hpath := hone.path_eq hindex
    have hleads := hdirected entry List.mem_cons_self
    rw [hpath] at hleads
    refine .cons ⟨hone.bytes_eq, fun hdevice => ?_, fun hsame => ?_⟩
      (ih (fun e hmem => hdirected e (List.mem_cons_of_mem _ hmem))
        fun e hmem => halone e (List.mem_cons_of_mem _ hmem))
    · exact halone write List.mem_cons_self (hdevice ▸ hleads)
    · rw [hsame] at hleads
      exact hleads.unique hname

/-- In a session without failures, on a clock at a fixed offset that does not go back from one write
to the next, every buffer is written to a candidate for the time of its write, and to no candidate
for a time with another name. Every file ends up with what it held before and the buffers that were
written to it. Without a place for the counter these are the buffers of one name, unless another
name leads to the same file. -/
theorem session_writes_on_time (template : String) (tee : Bool) (maxSize : Nat)
    (hooks : List Hook) (ops : List Op) (ending : Ending) (host final : Host)
    (log : List Placement) (offset : Int) (hsound : host.disk.IsSound)
    (hzone : host.zone = .fixed offset)
    (hclock : (host.now :: (Op.timed host.now ops).map (·.1)).IsChain
      fun a b => a.atOrBefore b = true)
    (hyears : ∀ write ∈ Op.timed host.now ops, Template.HasPlainYear (host.zone.stamp write.1))
    (h : session? template tee maxSize hooks ops ending host = some (log, final)) :
    List.Forall₂ (Placement.IsTimely template host.zone) log (Op.timed host.now ops) ∧
      (∀ id, final.disk.contents (.file id) = host.disk.contents (.file id) ++ placed log id) ∧
      ((∀ hook ∈ hooks, hook = .watch) →
        (∀ entry ∈ log, final.disk.LeadsTo entry.path entry.device) ∧
        (Template.hasIndex template.toList = false → ∀ name id,
          final.disk.LeadsTo (String.ofList name) (.file id) →
          (∀ write ∈ Op.timed host.now ops,
            final.disk.LeadsTo (String.ofList (nameAt template host.zone write.1)) (.file id) →
              nameAt template host.zone write.1 = name) →
          final.disk.contents (.file id) = host.disk.contents (.file id) ++
            ((Op.timed host.now ops).filter
              fun write => nameAt template host.zone write.1 = name).flatMap (·.2))) := by
  obtain ⟨hfiles, hnames⟩ := session_outcome hsound h
  obtain ⟨w, host', s, hopen, hrun, -, rfl⟩ := session_cases h
  obtain ⟨hadopts, hsame, htemplate, -, -, -, hhour⟩ := open_adopts hopen
  have hon : OnTime template host'.zone host.now w := by
    rw [hsame.zone]
    obtain ⟨k, -, hnext, hcurrent⟩ := hadopts.named
    exact ⟨htemplate, hhour, k, hnext, hcurrent⟩
  have hlog : List.Forall₂ (Placement.IsTimely template host.zone) s.log
      (Op.timed host.now ops) := by
    rw [← hsame.zone] at hzone hyears ⊢
    rw [← hsame.now] at hclock hyears hon ⊢
    exact Session.run_onTime (s := ⟨w, host', []⟩) hzone hon hclock hyears .nil hrun
  refine ⟨hlog, hfiles, fun hw => ?_⟩
  obtain ⟨-, hdirected⟩ := hnames hw
  refine ⟨hdirected, ?_⟩
  intro hindex name id hname halone
  rw [hfiles, placed_by_name hindex hlog hdirected hname halone]

/-- Half an hour after a full hour in UTC, which is when hours begin on this clock. -/
def halfPastHost : Host := .start "/home" (.fixed 19800) ⟨1718447400, 0⟩

/-- A rotation by size in the same hour as the one before it, a pause of several hours, and a
rotation by size in the hour that has just begun. -/
def pausing : List Op :=
  [.write (Utf8.ofString "one"), .clock ⟨1718449000, 0⟩, .write (Utf8.ofString "two two"),
    .clock ⟨1718451000, 5⟩, .write (Utf8.ofString "three"), .clock ⟨1718465400, 0⟩,
    .write (Utf8.ofString "four four"), .write (Utf8.ofString "five")]

theorem session_writes_on_time_pausing :
    ∃ log final, halfPastHost.disk.IsSound ∧
      session? "dd/a-index-HH.log" false 10 [.watch] pausing .drop halfPastHost =
        some (log, final) ∧
      List.Forall₂ (Placement.IsTimely "dd/a-index-HH.log" halfPastHost.zone) log
        (Op.timed halfPastHost.now pausing) ∧
      (∀ id, final.disk.contents (.file id) =
        halfPastHost.disk.contents (.file id) ++ placed log id) ∧
      ∀ entry ∈ log, final.disk.LeadsTo entry.path entry.device := by
  have hsome : (session? "dd/a-index-HH.log" false 10 [.watch] pausing .drop
      halfPastHost).isSome := by
    decide +kernel
  obtain ⟨⟨log, final⟩, h⟩ := Option.isSome_iff_exists.mp hsome
  have hsound : halfPastHost.disk.IsSound := Disk.isSound_empty
  have hall := session_writes_on_time "dd/a-index-HH.log" false 10 [.watch] pausing .drop
    halfPastHost final log 19800 hsound rfl (by decide) (by decide) h
  exact ⟨log, final, hsound, h, hall.1, hall.2.1, (hall.2.2 (by decide)).1⟩

end Rotating

end Logbook
