import Logbook.Proofs.Logger.Handoff

/-!
# Handing over to a backend that holds back

A handoff may also go to a handle on a backend that holds records back, which hands them over again
later. What arrives there are the records that reach the threshold of the handle, with its base
fields put before their own and everything else as it was; they come after the records that are
there already, and the host does not notice.

A backend can also hand over to a handle on itself. What it held back is taken out before, so this
comes to an end, and a plain handle puts everything back as it was.

Results:
1. `passed`: what comes through a handle.
2. `System.replay_init`, `System.replayAll_init`: one record, and all of them.
3. `System.handoff_held`, `System.handoff_plain`: a handoff.
-/

namespace Logbook

/-! ## 1. What comes through a handle -/

/-- What comes through a handle with a threshold and base fields. -/
def passed (threshold : Level) (keys : List String) (vals : List Value) (held : List Held) :
    List Held :=
  (held.filter fun told => threshold.rank ≤ told.level.rank).map (·.behind keys vals)

theorem passed_append (threshold : Level) (keys : List String) (vals : List Value)
    (held more : List Held) :
    passed threshold keys vals (held ++ more) =
      passed threshold keys vals held ++ passed threshold keys vals more := by
  rw [passed, List.filter_append, List.map_append]
  rfl

theorem passed_singleton (threshold : Level) (keys : List String) (vals : List Value)
    (told : Held) :
    passed threshold keys vals [told] =
      if threshold.rank ≤ told.level.rank then [told.behind keys vals] else [] := by
  unfold passed
  by_cases h : threshold.rank ≤ told.level.rank
  · rw [if_pos h, List.filter_cons, if_pos (decide_eq_true h)]
    rfl
  · rw [if_neg h, List.filter_cons, if_neg (by rwa [decide_eq_true_eq])]
    rfl

/-- A plain handle changes nothing. -/
theorem passed_plain (held : List Held) : passed .debug [] [] held = held := by
  have hall : held.filter (fun told => Level.debug.rank ≤ told.level.rank) = held :=
    List.filter_eq_self.mpr fun told _ => decide_eq_true (Nat.zero_le _)
  rw [passed, hall]
  exact List.map_id held

/-- The backend with a number holds back records that tell this. -/
def System.HoldsBack (s : System) (id : Nat) (held : List Held) : Prop :=
  ∃ records, s.backend id = .init records ∧ List.Forall₂ Record.Tells records held

/-! ## 2. Replaying -/

/-- A record that has a time is held back as it is, and the clock is not asked. -/
theorem Backend.finalize_timed (records : List Record) {r : Record} (hsome : r.isEmpty = false)
    {time : Time.Stamp} (htime : r.time? = some time) (stack : List Frame) (host : Host) :
    (Backend.init records).finalize stack r host = (.init (records ++ [r]), host) := by
  rw [Backend.finalize, if_neg (Bool.eq_false_iff.mp hsome), htime]
  show (Backend.init (records ++ [{ r with time? := some time }]), host) = _
  rw [← htime]

namespace Held

/-- The call is held back if its level reaches the threshold. -/
theorem call_finalize {told : Held} {r : Record} (hr : r.Tells told) (threshold : Level)
    (l : Logger) (records : List Record) (host : Host) :
    ∃ new, (Backend.init records).finalize [] (System.committed (told.call threshold l) told.level
        told.message .nowhere) host = (.init (records ++ new), host) ∧
      List.Forall₂ Record.Tells new (passed threshold l.keys l.vals [told]) := by
  rw [passed_singleton]
  rcases Nat.lt_or_ge told.level.rank threshold.rank with hlow | hhigh
  · rw [if_neg (Nat.not_le_of_lt hlow), Backend.finalize, if_pos (call_empty hlow l)]
    exact ⟨[], by rw [List.append_nil], .nil⟩
  · have htells := call_tells hr hhigh l
    rw [if_pos hhigh]
    exact ⟨[_], Backend.finalize_timed records htells.nonempty htells.time_eq [] host,
      .cons htells .nil⟩

end Held

namespace System

variable {s : System}

theorem setBackend_setBackend (id : Nat) (b b' : Backend) :
    (s.setBackend id b).setBackend id b' = s.setBackend id b' := by
  rw [setBackend, setBackend, setBackend, List.set_set]

theorem handsOut_init {id : Nat} {records : List Record} (h : s.backend id = .init records) :
    (s.backend id).HandsOut .debug ⟨0, .none⟩ := by
  rw [h]
  exact ⟨rfl, rfl⟩

/-- A backend that holds back makes a new record for every call. -/
theorem entry_init {l : Logger} {records : List Record} (h : s.backend l.backend = .init records) :
    (s.entry l).2 = s :=
  use_init h (u := .acquire) rfl

/-- A record that is replayed is held back again if its level reaches the threshold of the handle,
and otherwise nothing comes of it. -/
theorem replay_init {l : Logger} {records : List Record}
    (h : s.backend l.backend = .init records) {r : Record} {told : Held} (hr : r.Tells told) :
    ∃ new, s.replay l r = s.setBackend l.backend (.init (records ++ new)) ∧
      List.Forall₂ Record.Tells new (passed (s.threshold l) l.keys l.vals [told]) := by
  obtain ⟨new, hfinal, htells⟩ := Held.call_finalize hr (s.threshold l) l records s.host
  refine ⟨new, ?_, htells⟩
  rw [replay_call (handsOut_init h) hr, entry_init h, System.use, h, Backend.use, hfinal]

/-- All records, one after the other. -/
theorem replayAll_init {l : Logger} {records : List Record}
    (h : s.backend l.backend = .init records) {taken : List Record} {held : List Held}
    (hall : List.Forall₂ Record.Tells taken held) :
    ∃ new, s.replayAll l taken = s.setBackend l.backend (.init (records ++ new)) ∧
      List.Forall₂ Record.Tells new (passed (s.threshold l) l.keys l.vals held) := by
  induction hall generalizing s records with
  | nil =>
    refine ⟨[], ?_, .nil⟩
    rw [List.append_nil]
    exact (setBackend_self h).symm
  | @cons r told rest held hr _ ih =>
    obtain ⟨first, hfirst, htells⟩ := replay_init h hr
    have hat : (s.replay l r).backend l.backend = .init (records ++ first) := by
      rw [hfirst]
      exact setBackend_at (lt_length_of_backend h (by simp)) _
    obtain ⟨more, hmore, htells'⟩ := ih hat
    have hthreshold : (s.replay l r).threshold l = s.threshold l := by
      rw [hfirst]
      rfl
    refine ⟨first ++ more, ?_, ?_⟩
    · show (s.replay l r).replayAll l rest = _
      rw [hmore, hfirst, setBackend_setBackend, List.append_assoc]
    · rw [← List.singleton_append, passed_append]
      rw [hthreshold] at htells'
      exact List.rel_append htells htells'

theorem replayer_init {next : Logger} {records : List Record}
    (h : s.backend next.backend = .init records) :
    (s.replayer next).2 = s.addFamily (s.threshold next) := by
  unfold replayer
  rw [entry_init h, entry_eq (handsOut_init h)]
  exact use_init (s := s.addFamily (s.threshold next)) h (u := .release _) rfl

/-- The records of a handoff, replayed through the handle that is made for them. -/
theorem replayed_init {next : Logger} {own : List Record} (h : s.backend next.backend = .init own)
    {records : List Record} {held : List Held} (hall : List.Forall₂ Record.Tells records held) :
    ∃ new, (s.replayer next).2.replayAll (s.replayer next).1 records =
        { s.setBackend next.backend (.init (own ++ new)) with
          thresholds := s.thresholds ++ [s.threshold next] } ∧
      List.Forall₂ Record.Tells new (passed (s.threshold next) next.keys next.vals held) := by
  obtain ⟨hhandle, -⟩ := replayer_eq (handsOut_init h)
  have hready : (s.replayer next).2.backend (s.replayer next).1.backend = .init own := by
    rw [replayer_backend, replayer_init h]
    exact h
  obtain ⟨new, hreplayed, htells⟩ := replayAll_init hready hall
  rw [replayer_threshold (handsOut_init h), hhandle] at htells
  refine ⟨new, ?_, htells⟩
  rw [hreplayed, replayer_init h, hhandle]
  rfl

/-! ## 3. Handoffs -/

/-- What is held back is taken out first, so a backend can hand over to itself. -/
theorem handoff_init {source : Nat} {next : Logger} {records own : List Record}
    {held : List Held} (hsource : s.backend source = .init records)
    (hall : List.Forall₂ Record.Tells records held)
    (hnext : (s.setBackend source (.init [])).backend next.backend = .init own) :
    ∃ new more, s.handoff source next =
        { (s.setBackend source (.init [])).setBackend next.backend (.init (own ++ new)) with
          thresholds := s.thresholds ++ more } ∧
      List.Forall₂ Record.Tells new (passed (s.threshold next) next.keys next.vals held) := by
  obtain ⟨new, hreplayed, htells⟩ := replayed_init hnext hall
  rw [handoff_eq hsource, hreplayed]
  split
  · next hempty =>
    rw [List.isEmpty_iff] at hempty
    subst hempty
    cases hall with
    | nil =>
      refine ⟨[], [], ?_, .nil⟩
      rw [List.append_nil, List.append_nil, setBackend_self hnext]
      rfl
  · refine ⟨new, [s.threshold next], ?_, htells⟩
    have hlt : next.backend < (s.setBackend source (.init [])).backends.length :=
      lt_length_of_backend hnext (by simp)
    have hback : System.backend { (s.setBackend source (.init [])).setBackend next.backend
        (.init (own ++ new)) with thresholds := s.thresholds ++ [s.threshold next] }
          next.backend = .init (own ++ new) := setBackend_at hlt _
    exact use_init hback rfl

/-- A handoff to a backend that holds back moves what comes through the handle there, behind what is
there already, and changes nothing else. -/
theorem handoff_held {source : Nat} {next : Logger} {held own : List Held}
    (hsource : s.HoldsBack source held) (hnext : s.HoldsBack next.backend own) :
    (s.handoff source next).HoldsBack next.backend ((if next.backend = source then [] else own) ++
        passed (s.threshold next) next.keys next.vals held) ∧
      (next.backend ≠ source → (s.handoff source next).HoldsBack source []) ∧
      (∀ id, id ≠ source → id ≠ next.backend → (s.handoff source next).backend id = s.backend id) ∧
      (s.handoff source next).host = s.host ∧
      ∃ more, (s.handoff source next).thresholds = s.thresholds ++ more := by
  obtain ⟨records, hrecords, hall⟩ := hsource
  obtain ⟨there, hthere, hown⟩ := hnext
  have hready : ∃ there', (s.setBackend source (.init [])).backend next.backend = .init there' ∧
      List.Forall₂ Record.Tells there' (if next.backend = source then [] else own) := by
    by_cases hsame : next.backend = source
    · rw [if_pos hsame, hsame]
      exact ⟨[], setBackend_at (lt_length_of_backend hrecords (by simp)) _, .nil⟩
    · rw [if_neg hsame]
      exact ⟨there, (setBackend_apart hsame _).trans hthere, hown⟩
  obtain ⟨there', hthere', hown'⟩ := hready
  obtain ⟨new, more, hhandoff, htells⟩ := handoff_init hrecords hall hthere'
  have hlt : next.backend < (s.setBackend source (.init [])).backends.length :=
    lt_length_of_backend hthere' (by simp)
  rw [hhandoff]
  refine ⟨⟨there' ++ new, setBackend_at hlt _, List.rel_append hown' htells⟩, fun hne => ?_,
    fun id hid hid' => ?_, rfl, more, rfl⟩
  · refine ⟨[], ?_, .nil⟩
    exact (setBackend_apart (Ne.symm hne) _).trans
      (setBackend_at (lt_length_of_backend hrecords (by simp)) _)
  · exact (setBackend_apart hid' _).trans (setBackend_apart hid _)

/-- A handoff to a plain handle on the same backend leaves what is held back as it is. -/
theorem handoff_plain {source : Nat} {held : List Held} (h : s.HoldsBack source held)
    {next : Logger} (hsame : next.backend = source) (hkeys : next.keys = [])
    (hvals : next.vals = []) (hthreshold : s.threshold next = .debug) :
    (s.handoff source next).HoldsBack source held := by
  obtain ⟨hback, -⟩ := handoff_held h (hsame.symm ▸ h)
  rw [hsame, if_pos rfl, List.nil_append, hthreshold, hkeys, hvals, passed_plain] at hback
  exact hback

/-- A new handle on a backend that holds back is a plain one. -/
theorem newLogger_init {id : Nat} {records : List Record} (h : s.backend id = .init records) :
    s.newLogger id =
      (⟨id, s.thresholds.length, ⟨0, .none⟩, [], []⟩, s.addFamily .debug) := by
  have hacquire : s.acquire id = (.blank, s) :=
    Prod.ext (handsOut_init h).acquire (use_init h (u := .acquire) rfl)
  have hrelease : s.release id .blank = s := use_init h (u := .release .blank) rfl
  unfold newLogger
  rw [hacquire]
  dsimp only
  rw [hrelease]
  rfl

theorem handoff_newLogger {source : Nat} {held : List Held} (h : s.HoldsBack source held) :
    ((s.newLogger source).2.handoff source (s.newLogger source).1).HoldsBack source held := by
  obtain ⟨records, hrecords, hall⟩ := h
  have hnew := newLogger_init hrecords
  have hback : (s.newLogger source).2.HoldsBack source held := by
    rw [hnew]
    exact ⟨records, hrecords, hall⟩
  refine handoff_plain hback ?_ ?_ ?_ ?_
  · rw [hnew]
  · rw [hnew]
  · rw [hnew]
  · rw [hnew]
    exact threshold_of_last (s := s) rfl rfl

end System

end Logbook
