import Logbook.Proofs.Rotating.Dating
import Logbook.Proofs.Rotating.Outcomes

/-!
# Writes that are tried again

A write fails if it has to move on and the next file cannot be opened. It has stored nothing then,
and the sink is still at its file. Whether it moves on when the write is repeated depends on what
was due: a file that was full is still full, but a new hour is noted before the first file of the
hour is opened, so the repeated write takes the hour to be dealt with and goes to the old file.

Results:
1. `open_isPast`, `perform_isPast`, `run_isPast`: the counter is past the current file, and stays
   there unless the first file of an hour cannot be opened.
2. `failed_write_is_retried_iff`: what a failed write leaves, and when the next one tries again.
3. `failed_hour_is_forgotten`: after the obstacle is gone the bytes go to the file of the old hour.
-/

namespace Logbook

namespace Rotating

variable {template : String} {maxSize : Nat} {w w' : Rotating} {host host' : Host}

/-! ## 1. The counter -/

/-- The counter has gone past the current file. -/
def IsPast (template : String) (w : Rotating) : Prop :=
  ∃ t k, Template.HasPlainYear t ∧ k < w.nextIndex ∧
    w.current = String.ofList (Template.candidate (Template.resolve template.toList t) k)

theorem open_isPast {tee : Bool} {hooks : List Hook} (hyear : Template.HasPlainYear host.localNow)
    (h : Rotating.open template tee maxSize hooks host = (.ok w, host')) : IsPast template w := by
  obtain ⟨k, -, hnext, hcurrent⟩ := (open_adopts h).1.named
  exact ⟨_, k, hyear, hnext ▸ Nat.lt_succ_self k, hcurrent⟩

/-- The counter stays past the current file unless the first file of an hour cannot be opened. -/
theorem perform_isPast {op : Op} (horder : InOrder template maxSize w host)
    (hyear : ∀ bytes, op = .write bytes → Template.HasPlainYear host.localNow)
    (hpast : IsPast template w) (hsteady : ¬ w.FailsAtHour host op) :
    IsPast template (perform (w, host) op).1 := by
  obtain ⟨t, k, ht, hk, hcurrent⟩ := hpast
  cases op with
  | clock now => exact ⟨t, k, ht, hk, hcurrent⟩
  | flush => exact ⟨t, k, ht, hk, hcurrent⟩
  | sync => exact ⟨t, k, ht, hk, hcurrent⟩
  | write bytes =>
    have hstep := w.write_performed bytes horder.sound horder.knows
    obtain ⟨hsame, hcount⟩ | ⟨k', hnext, hnew⟩ := hstep.file
    · have hle := hcount.resolve_right hsteady
      exact ⟨t, k, ht, Nat.lt_of_lt_of_le hk hle, hsame.trans hcurrent⟩
    · refine ⟨_, k', hyear bytes rfl, ?_, ?_⟩
      · exact (show (w.write bytes host).2.1.nextIndex = _ from hnext) ▸ Nat.lt_succ_self k'
      · rw [resolved, horder.template_eq] at hnew
        exact hnew

/-- Any number of operations. -/
theorem run_isPast {ops : List Op} (hreached : Reached template maxSize w host)
    (hyears : ∀ write ∈ Op.timed host.now ops, Template.HasPlainYear (host.zone.stamp write.1))
    (hpast : IsPast template w)
    (hsteady : ∀ before op after, ops = before ++ op :: after →
      ¬ (before.foldl perform (w, host)).1.FailsAtHour (before.foldl perform (w, host)).2 op) :
    IsPast template (ops.foldl perform (w, host)).1 := by
  induction ops generalizing w host with
  | nil => exact hpast
  | cons op ops ih =>
    obtain ⟨hyear, hlater⟩ := hreached.years hyears
    refine ih (hreached.performed op hyear) hlater
      (perform_isPast hreached.inOrder hyear hpast (hsteady [] op ops rfl)) ?_
    intro before op' after hsplit
    exact hsteady (op :: before) op' after (by rw [hsplit, List.cons_append])

/-! ## 2. Failed writes -/

/-- Nothing has been written, and a sink is still at its file, which has the size it had. -/
structure Untouched (w : Rotating) (host : Host) (w' : Rotating) (host' : Host) : Prop where
  file : w'.file = w.file
  current : w'.current = w.current
  size : w'.size = w.size
  contents : ∀ d, host'.disk.contents d = host.disk.contents d
  console : host'.console = host.console

/-- A write of `bytes` that has failed on `host` and has left the sink `w'` moves on when it is
repeated at the same moment. It succeeds if it finds a file on a device with space, and its bytes
are then in a file that is named for the moment. -/
structure Retries (template : String) (maxSize : Nat) (bytes : Bytes) (host : Host)
    (w' : Rotating) : Prop where
  due : ∀ later, Reached template maxSize w' later → host.SameClock later →
    ∃ first, w'.due? bytes.length later = some first
  stored : ∀ later file, Reached template maxSize w' later → host.SameClock later →
    w'.adopted? bytes.length later = some file → file.device ≠ .full →
    ∃ w'' later', w'.write bytes later = (.ok (), w'', later')
  named : ∀ later w'' later', Reached template maxSize w' later → host.SameClock later →
    w'.write bytes later = (.ok (), w'', later') →
    (∃ k, w''.current = String.ofList (Template.candidate (resolved template host) k)) ∧
    ∀ id, w''.file.promised later'.disk id =
      w'.file.promised later.disk id ++ Disk.share w''.file.device bytes id

/-- A device refuses by a failure of its own, not by one of the log. -/
theorem append_not_wrapped {bytes : Bytes} {e : LogError} :
    w.append bytes host ≠ (.error (.wrapped e), w', host') := by
  intro h
  unfold append at h
  split at h
  · next hw =>
    cases h
    cases Buffered.write_refuses hw
  · cases h

/-- A write fails by a failure of the log only if it is to move on and finds no other file. -/
theorem write_wrapped {bytes : Bytes} {e : LogError} (hsound : host.disk.IsSound)
    (hknows : host.disk.Knows w.file.device)
    (h : w.write bytes host = (.error (.wrapped e), w', host')) :
    ∃ first, w.due? bytes.length host = some first ∧
      (w.searched first host).outcome = .error e := by
  rcases hdue : w.due? bytes.length host with _ | first
  · obtain ⟨nextHour, works, hw⟩ := write_stays hdue
    exact absurd (hw.symm.trans h) append_not_wrapped
  generalize hs : w.searched first host = found
  rcases hout : found.outcome with e' | next
  · obtain ⟨works, hw⟩ := write_fails hdue hs hout
    rw [hw] at h
    cases h
    exact ⟨first, rfl, hs ▸ hout⟩
  · obtain ⟨w₁, host₁, -, hw⟩ := write_moves hsound hknows hdue hs hout
    exact absurd (hw.symm.trans h) append_not_wrapped

/-- A write that is repeated when another file is due goes to a candidate for the present time. -/
theorem repeated_write_named {bytes : Bytes} {first : Nat}
    (horder : InOrder template maxSize w host) (hdue : w.due? bytes.length host = some first)
    (h : w.write bytes host = (.ok (), w', host')) :
    ∃ k, first ≤ k ∧
      w'.current = String.ofList (Template.candidate (resolved template host) k) := by
  obtain ⟨-, hfound⟩ := write_arrives horder.sound horder.knows h
  obtain ⟨next, hnext, hholding⟩ := hfound first hdue
  obtain ⟨k, hle, -, hpath⟩ := searched_named rfl hnext
  rw [horder.template_eq] at hpath
  exact ⟨k, hle, (congrArg Logbook.Holding.path hholding).trans hpath⟩

/-- A sink in any state that it can come to, on a clock at a fixed offset, fails to write because
another file is due and cannot be opened. Nothing has been written, and the sink is at its file
still. The write moves on when it is repeated at the same moment if and only if the file was full;
and then, if the template has a counter that has gone past the current file, it never goes to that
file again. -/
theorem failed_write_is_retried_iff (template : String) (maxSize : Nat) (w w' : Rotating)
    (host host' : Host) (bytes : Bytes) (e : LogError) (offset : Int)
    (hreached : Reached template maxSize w host) (hzone : host.zone = .fixed offset)
    (hyear : Template.HasPlainYear host.localNow)
    (h : w.write bytes host = (.error (.wrapped e), w', host')) :
    Untouched w host w' host' ∧
      (Retries template maxSize bytes host w' ↔ w.isFull bytes.length = true) ∧
      (w.isFull bytes.length = true → Template.hasIndex template.toList = true →
        IsPast template w → ∀ later w'' later', Reached template maxSize w' later →
          host.SameClock later → w'.write bytes later = (.ok (), w'', later') →
          w''.current ≠ w.current) := by
  have horder := hreached.inOrder
  have hafter := hreached.performed (.write bytes) fun _ _ => hyear
  rw [perform, h] at hafter
  obtain ⟨first, hdue, he⟩ := write_wrapped horder.sound horder.knows h
  have hgrows := w.searched_grows first host
  have hle := w.searched_le first host
  generalize hs : w.searched first host = found at he hgrows hle
  obtain ⟨works, hw⟩ := write_fails hdue hs he
  rw [h] at hw
  obtain ⟨rfl, rfl⟩ := Prod.mk.inj (Prod.mk.inj hw).2
  have hnamed {later : Host} (hclock : host.SameClock later) :
      resolved template later = resolved template host := by
    rw [resolved, resolved, hclock.localNow]
  refine ⟨⟨rfl, rfl, rfl, hgrows.contents, rfl⟩, ⟨fun hretries => ?_, fun hfull => ?_⟩, ?_⟩
  · -- an hour that has been noted is over for the repeated write, which finds room in the old file
    by_contra hroom
    obtain ⟨again, hagain⟩ := hretries.due _ hafter ⟨rfl, rfl⟩
    have hearly : (host.zone.nextHour host.now).atOrBefore host.now = false := by
      rw [hzone]
      exact Time.Moment.not_atOrBefore_of_lt
        (Time.nextHour_bounds (Time.Zone.isUsual_fixed offset) host.now).1
    obtain ⟨hfull, -⟩ | ⟨-, hdate, -⟩ := due?_cases hagain
    · exact hroom hfull
    · simp [isOutdated, hroom, Host.relyOnClock, hearly] at hdate
  · refine ⟨fun later _ _ => ⟨_, due?_full hfull⟩, fun later file hlater _ => ?_,
      fun later w'' later' hlater hclock hw => ⟨?_, ?_⟩⟩
    · exact write_succeeds hlater.inOrder.sound hlater.inOrder.knows
    · obtain ⟨k, -, hcurrent⟩ := repeated_write_named hlater.inOrder (due?_full hfull) hw
      exact ⟨k, hnamed hclock ▸ hcurrent⟩
    · exact (write_arrives hlater.inOrder.sound hlater.inOrder.knows hw).1
  · intro hfull hindex hpast later w'' later' hlater hclock hw hsame
    obtain ⟨t, k, ht, hk, hcurrent⟩ := hpast
    obtain rfl := Option.some.inj ((due?_full hfull).symm.trans hdue)
    obtain ⟨k', hle', hcurrent'⟩ := repeated_write_named hlater.inOrder (due?_full hfull) hw
    rw [hnamed hclock, hsame, hcurrent] at hcurrent'
    -- the search goes on after the counter of the file that was to be left
    have hcounter := (Template.candidate_resolve_inj ht hyear
      (String.ofList_injective hcurrent')).2 hindex
    have hnext : w.nextIndex ≤ k' := Nat.le_trans hle hle'
    omega

/-- Whether a write has failed by a failure of the log. -/
def isWrapped : Except IoError Unit → Bool
  | .error (.wrapped _) => true
  | _ => false

theorem isWrapped_iff {result : Except IoError Unit} :
    isWrapped result = true ↔ ∃ e, result = .error (.wrapped e) := by
  constructor
  · intro h
    unfold isWrapped at h
    split at h
    · exact ⟨_, rfl⟩
    · cases h
  · rintro ⟨e, rfl⟩
    rfl

/-- An empty working folder but for a folder with the name of the second file. -/
def blockedHost : Host :=
  { emptyHost with disk := emptyHost.disk.add ⟨.work, ["a-1.log"]⟩ .folder }

theorem failed_write_is_retried_iff_blocked :
    ∃ w host e w' host', Reached "a-index.log" 10 w host ∧
      w.isFull (Utf8.ofString "bbbbbb").length = true ∧
      w.write (Utf8.ofString "bbbbbb") host = (.error (.wrapped e), w', host') ∧
      Untouched w host w' host' ∧ Retries "a-index.log" 10 (Utf8.ofString "bbbbbb") host w' ∧
      ∀ later w'' later', Reached "a-index.log" 10 w' later → host.SameClock later →
        w'.write (Utf8.ofString "bbbbbb") later = (.ok (), w'', later') →
        w''.current ≠ w.current := by
  have hvalues : (used? "a-index.log" false 10 [] [.write (Utf8.ofString "aaaaaa")]
        blockedHost).map (fun s => (s.1.isFull (Utf8.ofString "bbbbbb").length, s.1.nextIndex,
      s.1.current, s.2.zone, s.2.localNow, isWrapped (s.1.write (Utf8.ofString "bbbbbb") s.2).1)) =
      some (true, 1, "a-0.log", .fixed 0, ⟨⟨1718445600, 0⟩, 0⟩, true) := by
    decide +kernel
  obtain ⟨⟨w, host⟩, h, hvalues⟩ := Option.map_eq_some_iff.mp hvalues
  simp only [Prod.mk.injEq] at hvalues
  obtain ⟨hfull, hnext, hcurrent, hzone, hnow, hfails⟩ := hvalues
  have hsound : blockedHost.disk.IsSound := Disk.isSound_empty.add _ (by simp)
  have hreached : Reached "a-index.log" 10 w host := .used hsound (by decide) (by decide) h
  have hyear : Template.HasPlainYear host.localNow := by
    rw [hnow]
    decide
  have hpast : IsPast "a-index.log" w :=
    ⟨host.localNow, 0, hyear, by omega, by rw [hcurrent, hnow]; decide⟩
  rcases hw : w.write (Utf8.ofString "bbbbbb") host with ⟨result, w', host'⟩
  rw [hw] at hfails
  obtain ⟨e, rfl⟩ := isWrapped_iff.mp hfails
  obtain ⟨huntouched, hretries, hleaves⟩ := failed_write_is_retried_iff "a-index.log" 10 w w' host
    host' (Utf8.ofString "bbbbbb") e 0 hreached hzone hyear hw
  exact ⟨w, host, e, w', host', hreached, hfull, hw, huntouched, hretries.mpr hfull,
    hleaves hfull (by decide) hpast⟩

/-- A host from which a file has been removed, if it was there. -/
def without (path : String) (host : Host) : Host :=
  match host.disk.removeFile path with
  | .ok disk => { host with disk := disk }
  | .error _ => host

theorem Reached.without (h : Reached template maxSize w host) (path : String) :
    Reached template maxSize w (Rotating.without path host) := by
  unfold Rotating.without
  split
  · next hr =>
    obtain ⟨hfiles, hsound⟩ := Disk.removeFile_keeps hr
    exact h.elsewhere (hsound h.inOrder.sound) (by rw [hfiles])
  · exact h

theorem without_clock (path : String) (host : Host) : host.SameClock (without path host) := by
  unfold without
  split <;> exact ⟨rfl, rfl⟩

/-- A working folder with a file that has the name of the folder for the next hour. -/
def obstructedHost : Host :=
  { emptyHost with disk := (emptyHost.disk.addFile ⟨.work, ["d-11"]⟩).2 }

/-- A buffer is written, and an hour begins. -/
def intoNextHour : List Op := [.write (Utf8.ofString "x"), .clock ⟨1718449200, 0⟩]

/-- The folder for the files of the new hour cannot be made, and a write fails. Once the obstacle is
gone the same write stores its bytes in the file of the old hour, though the first file of the new
one can be opened. -/
theorem failed_hour_is_forgotten :
    ∃ w host e w' host', Reached "d-HH/a-index.log" 1000 w host ∧
      w.current = "d-10/a-0.log" ∧
      resolved "d-HH/a-index.log" host = "d-11/a-index.log".toList ∧
      w.write (Utf8.ofString "y") host = (.error (.wrapped e), w', host') ∧
      Reached "d-HH/a-index.log" 1000 w' (without "d-11" host') ∧
      host.SameClock (without "d-11" host') ∧
      (w'.searched 0 (without "d-11" host')).outcome.isOk = true ∧
      ∃ w'' later', w'.write (Utf8.ofString "y") (without "d-11" host') = (.ok (), w'', later') ∧
        w''.current = "d-10/a-0.log" ∧
        ¬ Retries "d-HH/a-index.log" 1000 (Utf8.ofString "y") host w' := by
  have hvalues : (used? "d-HH/a-index.log" false 1000 [] intoNextHour obstructedHost).map
      (fun s => ((s.1.current, resolved "d-HH/a-index.log" s.2, s.2.localNow),
          isWrapped (s.1.write (Utf8.ofString "y") s.2).1,
          ((s.1.write (Utf8.ofString "y") s.2).2.1.searched 0
            (without "d-11" (s.1.write (Utf8.ofString "y") s.2).2.2)).outcome.isOk,
          ((s.1.write (Utf8.ofString "y") s.2).2.1.write (Utf8.ofString "y")
            (without "d-11" (s.1.write (Utf8.ofString "y") s.2).2.2)).1.isOk,
          ((s.1.write (Utf8.ofString "y") s.2).2.1.write (Utf8.ofString "y")
            (without "d-11" (s.1.write (Utf8.ofString "y") s.2).2.2)).2.1.current)) =
      some (("d-10/a-0.log", "d-11/a-index.log".toList, ⟨⟨1718449200, 0⟩, 0⟩), true, true, true,
        "d-10/a-0.log") := by
    decide +kernel
  obtain ⟨⟨w, host⟩, h, hvalues⟩ := Option.map_eq_some_iff.mp hvalues
  have hsound : obstructedHost.disk.IsSound := Disk.isSound_empty.addFile _
  have hreached : Reached "d-HH/a-index.log" 1000 w host :=
    .used hsound (by decide) (by decide) h
  have hfailed := w.write_performed (Utf8.ofString "y") hreached.inOrder.sound
    hreached.inOrder.knows
  rcases hw : w.write (Utf8.ofString "y") host with ⟨result, w', host'⟩
  rw [hw] at hfailed
  rcases hagain : w'.write (Utf8.ofString "y") (without "d-11" host') with ⟨result', w'', later'⟩
  simp only [hw, hagain, Prod.mk.injEq] at hvalues
  obtain ⟨⟨hcurrent, hname, hnow⟩, hfails, hopens, hok, hback⟩ := hvalues
  have hyear : Template.HasPlainYear host.localNow := by
    rw [hnow]
    decide
  have hlater : Reached "d-HH/a-index.log" 1000 w' (without "d-11" host') := by
    have hone := hreached.performed (.write (Utf8.ofString "y")) fun _ _ => hyear
    rw [perform, hw] at hone
    exact hone.without "d-11"
  have hclock : host.SameClock (without "d-11" host') :=
    (hfailed.clock (by simp)).trans (without_clock "d-11" host')
  obtain ⟨e, rfl⟩ := isWrapped_iff.mp hfails
  cases result' with
  | error e => cases hok
  | ok _ =>
    refine ⟨w, host, e, w', host', hreached, hcurrent, hname, hw, hlater, hclock, hopens, w'',
      later', hagain, hback, fun hretries => ?_⟩
    obtain ⟨⟨k, hpath⟩, -⟩ := hretries.named _ _ _ hlater hclock hagain
    have hten : "d-10/a-0.log" = String.ofList (Template.candidate
        (Template.resolve "d-HH/a-index.log".toList ⟨⟨1718445600, 0⟩, 0⟩) 0) := by
      decide
    rw [hback, hten] at hpath
    have hsame := (Template.candidate_resolve_inj (by decide) hyear
      (String.ofList_injective hpath)).1
    rw [show Template.resolve _ host.localNow = _ from hname] at hsame
    exact absurd hsame (by decide)

end Rotating

end Logbook
