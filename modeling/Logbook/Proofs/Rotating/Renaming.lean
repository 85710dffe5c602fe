import Logbook.Proofs.Rotating.Outcomes

/-!
# The first file of a new name

When the name changes with the hour, the counter is meant to start anew, so that the bytes go to the
first candidate of the new name that is below the limit. A write looks at the size before it looks
at the hour. If the current file is full, it moves on to the new name with the old counter, and when
it comes to look at the hour the name is already the right one.

Results:
1. `searched_first_iff`: what a search has found is the first candidate below the limit if and only
   if those that it did not try have reached the limit.
2. `renamed_write_starts_anew_iff`: when the bytes go to the first candidate of the new name.
3. `renamed_write_skips_first`: a buffer with which the current file would be full goes to the
   second candidate of the new name while the first one does not exist.
-/

namespace Logbook

/-- A path is the candidate with the lowest counter that has not reached the limit. -/
def Disk.IsFirstBelow (disk : Disk) (limit : Nat) (name : List Char) (path : String) : Prop :=
  ∃ k, path = String.ofList (Template.candidate name k) ∧ ¬ disk.IsFull limit path ∧
    ∀ j < k, disk.IsFull limit (String.ofList (Template.candidate name j))

namespace Rotating

/-- The disk once a write has looked for another file: folders and empty files have been made, and
nothing has been written. -/
def probed (w : Rotating) (bytes : Nat) (host : Host) : Disk :=
  match w.due? bytes host with
  | some first => (w.searched first host).disk
  | none => host.disk

variable {w w' : Rotating} {host host' : Host} {template : String} {maxSize : Nat}

/-- What a search has found is the first candidate below the limit if and only if those that it did
not try have reached the limit. -/
theorem searched_first_iff {first : Nat} {found : Search} {next : Candidate}
    (hindexed : w.indexed = true) (hindex : Template.hasIndex (resolved w.template host) = true)
    (hs : w.searched first host = found) (hnext : found.outcome = .ok next) :
    found.disk.IsFirstBelow w.limit (resolved w.template host) next.path ↔
      ∀ j < first, found.disk.IsFull w.limit
        (String.ofList (Template.candidate (resolved w.template host) j)) := by
  have hsearch : search (resolved w.template host) true w.limit first host.disk = found := by
    rw [← hs, searched, hindexed]
  obtain ⟨k, hle, -, hpath, hroom, hpassed⟩ := search_first hsearch hnext
  have hopen := search_ok hsearch hnext
  constructor
  · rintro ⟨k', hpath', -, hbelow⟩ j hj
    have hsame : k' = k :=
      Template.candidate_inj hindex (String.ofList_injective (hpath'.symm.trans hpath))
    exact hbelow j (hsame ▸ Nat.lt_of_lt_of_le hj hle)
  · intro hskipped
    refine ⟨k, hpath, ?_, fun j hj => ?_⟩
    · rw [hopen.offers.leadsTo.isFull_iff, ← hopen.size_eq]
      exact Nat.not_le_of_lt hroom
    · rcases Nat.lt_or_ge j first with hlt | hge
      · exact hskipped j hlt
      · obtain ⟨d, hd, hbig⟩ := hpassed j hge hj
        exact (hd.leadsTo.isFull_iff w.limit).mpr hbig

/-- A sink whose file has another name than the hour asks for is to move on. -/
theorem renamed_isOutdated {opened : Time.Stamp} {counter : Nat}
    (hyear : Template.HasPlainYear opened) (hnow : Template.HasPlainYear host.localNow)
    (hcurrent : w.current =
      String.ofList (Template.candidate (Template.resolve w.template.toList opened) counter))
    (hother : Template.resolve w.template.toList opened ≠ resolved w.template host)
    (hhour : w.nextHour.atOrBefore host.now = true) : w.isOutdated host = true := by
  have hname : w.expected host ≠ w.current := by
    intro hsame
    have hcandidates := String.ofList_injective (hcurrent.symm.trans hsame.symm)
    exact hother (Template.candidate_resolve_inj hyear hnow hcandidates).1
  simp [isOutdated, hhour, hname]

/-- A sink with a counter in its template, in any state that it can come to, is written to when an
hour has begun in which its file has another name. The write succeeds if it finds a file on a device
with space, and its bytes are promised to the end of the file that is current then. This file is the
first candidate of the new name below the limit if and only if the last file had room for the bytes
or every candidate below the counter has reached the limit. -/
theorem renamed_write_starts_anew_iff (template : String) (maxSize : Nat) (w : Rotating)
    (host : Host) (bytes : Bytes) (opened : Time.Stamp) (counter : Nat)
    (hreached : Reached template maxSize w host)
    (hindex : Template.hasIndex template.toList = true)
    (hyear : Template.HasPlainYear opened) (hnow : Template.HasPlainYear host.localNow)
    (hcurrent : w.current =
      String.ofList (Template.candidate (Template.resolve template.toList opened) counter))
    (hother : Template.resolve template.toList opened ≠ resolved template host)
    (hhour : w.nextHour.atOrBefore host.now = true) :
    (∀ file, w.adopted? bytes.length host = some file → file.device ≠ .full →
        ∃ w' host', w.write bytes host = (.ok (), w', host')) ∧
      ∀ w' host', w.write bytes host = (.ok (), w', host') →
        (∀ id, w'.file.promised host'.disk id =
          w.file.promised host.disk id ++ Disk.share w'.file.device bytes id) ∧
        ((w.probed bytes.length host).IsFirstBelow (limitFor template maxSize)
            (resolved template host) w'.current ↔
          w.isFull bytes.length = false ∨
            ∀ j < w.nextIndex, (w.probed bytes.length host).IsFull (limitFor template maxSize)
              (String.ofList (Template.candidate (resolved template host) j))) := by
  have horder := hreached.inOrder
  have hindexed : w.indexed = true := horder.indexed_eq.trans hindex
  have hcounted : Template.hasIndex (resolved w.template host) = true := by
    rw [resolved, Template.hasIndex_resolve, horder.template_eq, hindex]
  rw [← horder.template_eq] at hcurrent hother
  have hdate := renamed_isOutdated hyear hnow hcurrent hother hhour
  refine ⟨fun file => write_succeeds horder.sound horder.knows, fun w' host' hw => ?_⟩
  obtain ⟨hpromised, hfound⟩ := write_arrives horder.sound horder.knows hw
  refine ⟨hpromised, ?_⟩
  rw [← horder.limit_eq, ← horder.template_eq]
  have hfirst {first : Nat} (hdue : w.due? bytes.length host = some first) :
      (w.probed bytes.length host).IsFirstBelow w.limit (resolved w.template host) w'.current ↔
        ∀ j < first, (w.probed bytes.length host).IsFull w.limit
          (String.ofList (Template.candidate (resolved w.template host) j)) := by
    obtain ⟨next, hnext, hholding⟩ := hfound first hdue
    have hpath : w'.current = next.path := congrArg Logbook.Holding.path hholding
    rw [probed, hdue, hpath]
    exact searched_first_iff hindexed hcounted rfl hnext
  -- the search starts from the counter of the old name if the file is full, and anew if it is not
  cases hfull : w.isFull bytes.length with
  | true => simp [hfirst (due?_full hfull)]
  | false => simp [hfirst (due?_outdated hfull hdate)]

/-- A buffer is written, and an hour begins. -/
def overAnHour : List Op := [.write (Utf8.ofString "aaaaaa"), .clock ⟨1718449200, 0⟩]

/-- The sink is still at its file of the hour before. -/
theorem overAnHour_reached : ∃ w host,
    used? "a-HH-index.log" false 10 [] overAnHour emptyHost = some (w, host) ∧
      Reached "a-HH-index.log" 10 w host ∧ w.current = "a-10-0.log" ∧
      w.nextHour.atOrBefore host.now = true ∧ host.localNow = ⟨⟨1718449200, 0⟩, 0⟩ := by
  have hvalues : (used? "a-HH-index.log" false 10 [] overAnHour emptyHost).map
      (fun s => (s.1.current, s.1.nextHour.atOrBefore s.2.now, s.2.localNow)) =
      some ("a-10-0.log", true, ⟨⟨1718449200, 0⟩, 0⟩) := by
    decide +kernel
  obtain ⟨⟨w, host⟩, h, hvalues⟩ := Option.map_eq_some_iff.mp hvalues
  obtain ⟨hcurrent, hhour, hnow⟩ : w.current = "a-10-0.log" ∧
      w.nextHour.atOrBefore host.now = true ∧ host.localNow = ⟨⟨1718449200, 0⟩, 0⟩ := by
    simpa using hvalues
  exact ⟨w, host, h, .used Disk.isSound_empty (by decide) (by decide) h, hcurrent, hhour, hnow⟩

/-- The file of the hour before has room for three more bytes. -/
theorem renamed_write_starts_anew_iff_short :
    ∃ w host, Reached "a-HH-index.log" 10 w host ∧
      w.current = "a-10-0.log" ∧ w.nextHour.atOrBefore host.now = true ∧
      w.isFull (Utf8.ofString "bbb").length = false ∧
      ∃ w' host', w.write (Utf8.ofString "bbb") host = (.ok (), w', host') ∧
        (w.probed (Utf8.ofString "bbb").length host).IsFirstBelow
          (limitFor "a-HH-index.log" 10) (resolved "a-HH-index.log" host) w'.current := by
  obtain ⟨w, host, h, hreached, hcurrent, hhour, hnow⟩ := overAnHour_reached
  have hvalues : (used? "a-HH-index.log" false 10 [] overAnHour emptyHost).map
      (fun s => (s.1.isFull (Utf8.ofString "bbb").length,
        (s.1.adopted? (Utf8.ofString "bbb").length s.2).map Logbook.Holding.device)) =
      some (false, some (.file 1)) := by
    decide +kernel
  rw [h] at hvalues
  obtain ⟨hroom, hfile⟩ : w.isFull (Utf8.ofString "bbb").length = false ∧
      (w.adopted? (Utf8.ofString "bbb").length host).map Logbook.Holding.device =
        some (.file 1) := by
    simpa using hvalues
  obtain ⟨file, hadopted, hdevice⟩ := Option.map_eq_some_iff.mp hfile
  obtain ⟨hsucceeds, hgoes⟩ := renamed_write_starts_anew_iff "a-HH-index.log" 10 w host
    (Utf8.ofString "bbb") ⟨⟨1718445600, 0⟩, 0⟩ 0 hreached (by decide) (by decide)
    (by rw [hnow]; decide) (hcurrent.trans (by decide)) (by rw [resolved, hnow]; decide) hhour
  obtain ⟨w', host', hw⟩ := hsucceeds file hadopted (by rw [hdevice]; decide)
  exact ⟨w, host, hreached, hcurrent, hhour, hroom, w', host', hw,
    (hgoes w' host' hw).2.mpr (.inl hroom)⟩

/-- With six more bytes the file of the hour before would be full. They go to the second candidate
of the new hour, while the first one does not exist. -/
theorem renamed_write_skips_first :
    ∃ w host, Reached "a-HH-index.log" 10 w host ∧
      w.current = "a-10-0.log" ∧ w.nextHour.atOrBefore host.now = true ∧
      resolved "a-HH-index.log" host = "a-11-index.log".toList ∧
      ∃ w' host', w.write (Utf8.ofString "bbbbbb") host = (.ok (), w', host') ∧
        w'.current = "a-11-1.log" ∧ (host'.disk.read "a-11-0.log").isOk = false ∧
        ¬ (w.probed (Utf8.ofString "bbbbbb").length host).IsFirstBelow
          (limitFor "a-HH-index.log" 10) (resolved "a-HH-index.log" host) w'.current := by
  obtain ⟨w, host, h, hreached, hcurrent, hhour, hnow⟩ := overAnHour_reached
  have hname : resolved "a-HH-index.log" host = "a-11-index.log".toList := by
    rw [resolved, hnow]
    decide
  have hvalues : (used? "a-HH-index.log" false 10 [] overAnHour emptyHost).map
      (fun s => ((s.1.write (Utf8.ofString "bbbbbb") s.2).1.isOk,
        (s.1.write (Utf8.ofString "bbbbbb") s.2).2.1.current,
        ((s.1.write (Utf8.ofString "bbbbbb") s.2).2.2.disk.read "a-11-0.log").isOk,
        ((s.1.probed (Utf8.ofString "bbbbbb").length s.2).read "a-11-0.log").isOk)) =
      some (true, "a-11-1.log", false, false) := by
    decide +kernel
  rcases hw : w.write (Utf8.ofString "bbbbbb") host with ⟨result, w', host'⟩
  simp only [h, Option.map_some, hw, Option.some.injEq, Prod.mk.injEq] at hvalues
  obtain ⟨hok, hnew, hmissing, hprobed⟩ := hvalues
  cases result with
  | error e => cases hok
  | ok _ =>
    refine ⟨w, host, hreached, hcurrent, hhour, hname, w', host', hw, hnew, hmissing, ?_⟩
    rintro ⟨k, hpath, -, hbelow⟩
    rw [hnew, hname] at hpath
    rw [hname] at hbelow
    have hsecond : String.ofList (Template.candidate "a-11-index.log".toList 1) =
      "a-11-1.log" := by decide
    have hfirst : String.ofList (Template.candidate "a-11-index.log".toList 0) =
      "a-11-0.log" := by decide
    have hk : k = 1 := Template.candidate_inj (by decide)
      (String.ofList_injective (hpath.symm.trans hsecond.symm))
    obtain ⟨held, hread, -⟩ := hbelow 0 (by omega)
    rw [hfirst] at hread
    rw [hread] at hprobed
    cases hprobed

end Rotating

end Logbook
