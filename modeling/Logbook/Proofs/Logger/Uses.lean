import Logbook.Proofs.Logger.Agreement

/-!
# What operations touch

Handles and entries name backends by numbers, and an operation of the system comes to a few things
that are asked of these backends. Which ones is said here once for every operation. What an
operation keeps, of the backends that it names and of all others, follows from what the single uses
keep.

| operation               | what it asks                                        |
|-------------------------|-----------------------------------------------------|
| `entry`                 | `acquire`                                           |
| `intoLogger`, `release` | `release`                                           |
| `newLogger`             | `acquire` and `release`                             |
| `commit`                | `finalize`                                          |
| `replay`                | `acquire` and `finalize`                            |
| `handoff`               | `takePending` of its source, and of its target what |
|                         | a new handle, the records and the last sync ask     |

Results:
1. `Backend.HandsOut.use`: whatever is asked of a backend, it hands out fresh records.
2. `System.Uses.backend`: what uses of some kinds keep, once for all invariants.
3. `System.commit_uses`, `System.handoff_uses` and the like: the operations.
4. `System.entry_eq`, `System.replayer_eq`: what a call and the handle of a handoff start with.
-/

namespace Logbook

/-! ## 1. Backends by their number -/

namespace System

variable {s : System} {id : Nat} {b b' : Backend}

theorem lt_length_of_backend (h : s.backend id = b) (hb : b ≠ .null) : id < s.backends.length := by
  refine Nat.lt_of_not_le fun hle => hb ?_
  rw [← h, backend, List.getD_eq_getElem?_getD, List.getElem?_eq_none hle]
  rfl

theorem setBackend_at (h : id < s.backends.length) (b : Backend) :
    (s.setBackend id b).backend id = b := by
  simp [setBackend, backend, h]

theorem setBackend_apart {id' : Nat} (h : id' ≠ id) (b : Backend) :
    (s.setBackend id b).backend id' = s.backend id' := by
  simp [setBackend, backend, h.symm]

/-- A backend that is set may also have a number that is not in use; then nothing is changed. -/
theorem setBackend_cases (s : System) (id : Nat) (b : Backend) (id' : Nat) :
    (s.setBackend id b).backend id' = s.backend id' ∨
      id' = id ∧ (s.setBackend id b).backend id' = b := by
  by_cases hid : id' = id
  · subst hid
    by_cases hlt : id' < s.backends.length
    · exact .inr ⟨rfl, setBackend_at hlt b⟩
    · exact .inl (by simp [setBackend, backend, hlt])
  · exact .inl (setBackend_apart hid b)

theorem setBackend_self (h : s.backend id = b) : s.setBackend id b = s := by
  have hlist : s.backends.set id b = s.backends := by
    refine List.ext_getElem? fun i => ?_
    rw [List.getElem?_set]
    split
    · next heq =>
      subst heq
      split
      · next hlt =>
        rw [← h, backend, List.getD_eq_getElem?_getD, List.getElem?_eq_getElem hlt]
        rfl
      · next hle => exact (List.getElem?_eq_none (Nat.le_of_not_lt hle)).symm
    · rfl
  rw [setBackend, hlist]

theorem addBackend_old (h : id < s.backends.length) (b : Backend) :
    (s.addBackend b).2.backend id = s.backend id := by
  simp [addBackend, backend, List.getElem?_append_left h]

theorem addBackend_new (s : System) (b : Backend) :
    (s.addBackend b).2.backend s.backends.length = b := by
  simp [addBackend, backend]

theorem addBackend_cases (s : System) (b : Backend) (id : Nat) :
    (s.addBackend b).2.backend id = s.backend id ∨ (s.addBackend b).2.backend id = b := by
  rcases Nat.lt_trichotomy id s.backends.length with hlt | rfl | hgt
  · exact .inl (addBackend_old hlt b)
  · exact .inr (s.addBackend_new b)
  · refine .inl ?_
    rw [backend, backend, addBackend, List.getD_eq_getElem?_getD, List.getD_eq_getElem?_getD,
      List.getElem?_eq_none (Nat.le_of_lt hgt), List.getElem?_eq_none]
    rw [List.length_append]
    exact hgt

/-- Only the list of backends matters. -/
theorem backend_congr {s' : System} (h : s'.backends = s.backends) (id : Nat) :
    s'.backend id = s.backend id := by
  rw [backend, h, backend]

end System

/-! ## 2. Uses of a backend -/

/-- The sync at the end of a handoff, of which a failure is reported but not counted. -/
def JsonBackend.syncLast (b : JsonBackend) (host : Host) : JsonBackend × Host :=
  match b.sync host with
  | (.ok (), b, host) => (b, host)
  | (.error e, b, host) => (b, host.report (.syncAfterHandoff e))

/-- Something that is asked of a backend. -/
inductive Backend.Use where
  | acquire
  | release (r : Record)
  | finalize (stack : List Frame) (r : Record)
  | sync
  | syncLast
  | mount
  | unmount
  | tick
  | resetMetrics
  | takePending
  | close

namespace Backend

/-- The backend and the host after a use. -/
def use (b : Backend) (host : Host) : Use → Backend × Host
  | .acquire => (b.acquire.2, host)
  | .release r => (b.release r, host)
  | .finalize stack r => b.finalize stack r host
  | .sync => (b.sync host).2
  | .syncLast =>
    match b with
    | .json b => (.json (b.syncLast host).1, (b.syncLast host).2)
    | b => (b, host)
  | .mount => (b.mount, host)
  | .unmount => b.unmount host
  | .tick =>
    match b with
    | .json b => (.json (b.tick host).1, (b.tick host).2)
    | b => (b, host)
  | .resetMetrics =>
    match b with
    | .json b => (.json { b with metrics := .zero }, host)
    | b => (b, host)
  | .takePending => (b.takePending.2, host)
  | .close => (.null, b.close host)

/-- Whether a use leaves the records alone that are held back. -/
def Use.keepsPending : Use → Bool
  | finalize _ _ | takePending | close => false
  | acquire | release _ | sync | syncLast | mount | unmount | tick | resetMetrics => true

/-- A backend that holds back is not changed by such a use, and the host does not notice. -/
theorem init_use (pending : List Record) (host : Host) {u : Use} (hu : u.keepsPending = true) :
    (init pending).use host u = (init pending, host) := by
  cases u with
  | finalize | takePending | close => cases hu
  | _ => rfl

/-- A backend that hands out fresh records with a threshold and a depth. -/
def HandsOut (threshold : Level) (caller : CallerDepth) : Backend → Prop
  | json b => b.pool.IsFresh threshold caller
  | init _ => threshold = .debug ∧ caller = ⟨0, .none⟩
  | null => threshold = .debug ∧ caller = ⟨0, .none⟩

end Backend

namespace JsonBackend

theorem sync_pool (b : JsonBackend) (host : Host) : (b.sync host).2.1.pool = b.pool := by
  unfold sync
  split <;> rfl

theorem syncLast_fst (b : JsonBackend) (host : Host) :
    (b.syncLast host).1 = (b.sync host).2.1 := by
  unfold syncLast
  split
  · next h => rw [h]
  · next h => rw [h]

theorem syncReporting_pool (b : JsonBackend) (report : LogError → Report) (host : Host) :
    (b.syncReporting report host).1.pool = b.pool := by
  unfold syncReporting
  have hsync := b.sync_pool host
  split
  · next h => rwa [h] at hsync
  · next h => rwa [h] at hsync

theorem writeLine_pool (b : JsonBackend) (line : Bytes) (host : Host) :
    (b.writeLine line host).1.pool = b.pool := by
  unfold writeLine
  split <;> rfl

/-- The record goes back to the pool whether its line could be written or not. -/
theorem finalize_fresh {b : JsonBackend} {threshold : Level} {caller : CallerDepth}
    (h : b.pool.IsFresh threshold caller) (stack : List Frame) (r : Record) (host : Host) :
    (b.finalize stack r host).1.pool.IsFresh threshold caller := by
  unfold finalize
  split
  · exact h.release r
  · dsimp only
    refine Pool.IsFresh.release ?_ _
    rw [writeLine_pool]
    exact h

end JsonBackend

namespace Backend.HandsOut

variable {b : Backend} {threshold : Level} {caller : CallerDepth}

theorem acquire (h : b.HandsOut threshold caller) : b.acquire.1 = .fresh threshold caller := by
  cases b with
  | json b => exact Pool.IsFresh.acquire h |>.1
  | init pending =>
    obtain ⟨rfl, rfl⟩ := h
    rfl
  | null =>
    obtain ⟨rfl, rfl⟩ := h
    rfl

/-- Whatever is asked of a backend, it hands out fresh records with the same threshold and depth,
until it is given up. -/
theorem use (h : b.HandsOut threshold caller) (host : Host) {u : Use} (hu : u ≠ .close) :
    (b.use host u).1.HandsOut threshold caller := by
  cases b with
  | json b =>
    have hpool : b.pool.IsFresh threshold caller := h
    have hsync : (b.sync host).2.1.pool.IsFresh threshold caller :=
      (b.sync_pool host).symm ▸ hpool
    cases u with
    | acquire => exact hpool.acquire.2
    | release r => exact hpool.release r
    | finalize stack r => exact b.finalize_fresh hpool stack r host
    | sync => exact hsync
    | syncLast =>
      show (b.syncLast host).1.pool.IsFresh _ _
      rw [b.syncLast_fst]
      exact hsync
    | mount => exact hpool
    | unmount =>
      show ({ b with mounted := false }.syncReporting .finalSync host).1.pool.IsFresh _ _
      rw [JsonBackend.syncReporting_pool]
      exact hpool
    | tick =>
      show (b.syncReporting .periodicSync host).1.pool.IsFresh _ _
      rw [JsonBackend.syncReporting_pool]
      exact hpool
    | resetMetrics => exact hpool
    | takePending => exact hpool
    | close => exact absurd rfl hu
  | init pending =>
    cases u with
    | finalize stack r =>
      dsimp only [Backend.use, Backend.finalize]
      split <;> exact h
    | close => exact absurd rfl hu
    | _ => exact h
  | null =>
    cases u with
    | close => exact absurd rfl hu
    | _ => exact h

end Backend.HandsOut

/-! ## 3. Uses of a system -/

namespace System

/-- Asks something of the backend with a number. -/
def use (s : System) (id : Nat) (u : Backend.Use) : System :=
  { s with host := ((s.backend id).use s.host u).2 }.setBackend id
    ((s.backend id).use s.host u).1

/-- A threshold for a new family of handles. -/
def addFamily (s : System) (threshold : Level) : System :=
  { s with thresholds := s.thresholds ++ [threshold] }

/-- From one state to another nothing has happened but uses of the allowed kinds, and handles have
been made. -/
inductive Uses (allowed : Nat → Backend.Use → Prop) (s : System) : System → Prop
  | nothing : Uses allowed s s
  | use {s' : System} {id : Nat} {u : Backend.Use} :
      Uses allowed s s' → allowed id u → Uses allowed s (s'.use id u)
  | addFamily {s' : System} (threshold : Level) :
      Uses allowed s s' → Uses allowed s (s'.addFamily threshold)

variable {s s' s'' : System} {allowed : Nat → Backend.Use → Prop}

theorem use_cases (s : System) (id : Nat) (u : Backend.Use) (id' : Nat) :
    (s.use id u).backend id' = s.backend id' ∨
      id' = id ∧ (s.use id u).backend id' = ((s.backend id).use s.host u).1 :=
  setBackend_cases { s with host := _ } id _ id'

theorem use_at {id : Nat} (h : id < s.backends.length) (u : Backend.Use) :
    (s.use id u).backend id = ((s.backend id).use s.host u).1 :=
  setBackend_at (s := { s with host := _ }) h _

theorem use_apart {id id' : Nat} (h : id' ≠ id) (u : Backend.Use) :
    (s.use id u).backend id' = s.backend id' :=
  setBackend_apart (s := { s with host := _ }) h _

/-- A use that a backend does not notice changes nothing. -/
theorem use_init {id : Nat} {pending : List Record} (h : s.backend id = .init pending)
    {u : Backend.Use} (hu : u.keepsPending = true) : s.use id u = s := by
  rw [System.use, h, Backend.init_use pending s.host hu]
  exact setBackend_self h

namespace Uses

theorem one {id : Nat} {u : Backend.Use} (h : allowed id u) : s.Uses allowed (s.use id u) :=
  .use .nothing h

theorem trans (h : s.Uses allowed s') (h' : s'.Uses allowed s'') : s.Uses allowed s'' := by
  induction h' with
  | nothing => exact h
  | use _ hu ih => exact ih.use hu
  | addFamily threshold _ ih => exact ih.addFamily threshold

/-- What every allowed use of a backend keeps is kept. -/
theorem backend {id : Nat} {P : Backend → Prop} (h : s.Uses allowed s')
    (hkept : ∀ b host u, allowed id u → P b → P (b.use host u).1) (hs : P (s.backend id)) :
    P (s'.backend id) := by
  induction h with
  | nothing => exact hs
  | @use s' id' u _ hu ih =>
    obtain hsame | ⟨rfl, hnew⟩ := s'.use_cases id' u id
    · rw [hsame]
      exact ih
    · rw [hnew]
      exact hkept _ _ _ hu ih
  | addFamily threshold _ ih => exact ih

/-- A backend that is not used stays as it is. -/
theorem apart {id : Nat} (h : s.Uses allowed s') (hid : ∀ u, ¬ allowed id u) :
    s'.backend id = s.backend id :=
  h.backend (P := (· = s.backend id)) (fun _ _ u hu => absurd hu (hid u)) rfl

/-- What is held back stays as it is. -/
theorem keepsPending {id : Nat} (h : s.Uses allowed s')
    (hid : ∀ u, allowed id u → u.keepsPending = true) {pending : List Record}
    (hs : s.backend id = .init pending) : s'.backend id = .init pending := by
  refine h.backend (P := (· = .init pending)) ?_ hs
  rintro b host u hu rfl
  rw [Backend.init_use pending host (hid u hu)]

theorem length (h : s.Uses allowed s') : s'.backends.length = s.backends.length := by
  induction h with
  | nothing => rfl
  | use _ _ ih => exact List.length_set.trans ih
  | addFamily threshold _ ih => exact ih

end Uses

/-- A handle that is there keeps its threshold when others are made. -/
theorem threshold_of_more {more : List Level} (h : s'.thresholds = s.thresholds ++ more)
    {l : Logger} (hl : l.family < s.thresholds.length) : s'.threshold l = s.threshold l := by
  rw [threshold, threshold, h, List.getD_eq_getElem?_getD, List.getD_eq_getElem?_getD,
    List.getElem?_append_left hl]

theorem threshold_of_last {threshold : Level} (h : s'.thresholds = s.thresholds ++ [threshold])
    {l : Logger} (hl : l.family = s.thresholds.length) : s'.threshold l = threshold := by
  rw [System.threshold, h, hl, List.getD_eq_getElem?_getD, List.getElem?_concat_length,
    Option.getD_some]

/-! ## 4. Operations -/

theorem acquire_uses {id : Nat} (h : allowed id .acquire) : s.Uses allowed (s.acquire id).2 :=
  .one h

theorem release_uses {id : Nat} {r : Record} (h : allowed id (.release r)) :
    s.Uses allowed (s.release id r) :=
  .one h

theorem newLogger_uses {id : Nat} (hacquire : allowed id .acquire)
    (hrelease : ∀ r, allowed id (.release r)) : s.Uses allowed (s.newLogger id).2 :=
  .addFamily _ (.use (.one hacquire) (hrelease _))

theorem entry_uses {l : Logger} (h : allowed l.backend .acquire) :
    s.Uses allowed (s.entry l).2 :=
  .one h

theorem intoLogger_uses {e : Entry} (h : ∀ r, allowed e.backend (.release r)) :
    s.Uses allowed (s.intoLogger e).2 :=
  .use (.addFamily _ .nothing) (h _)

theorem finalize_uses {id : Nat} {stack : List Frame} {r : Record}
    (h : allowed id (.finalize stack r)) : s.Uses allowed (s.finalize id stack r) :=
  .one h

theorem commit_uses {e : Entry} (h : ∀ stack r, allowed e.backend (.finalize stack r))
    (level : Level) (message : String) (site : CallSite) :
    s.Uses allowed (s.commit e level message site) :=
  finalize_uses (h _ _)

theorem sync_uses {l : Logger} (h : allowed l.backend .sync) : s.Uses allowed (s.sync l).2 :=
  .one h

theorem mount_uses {l : Logger} (h : allowed l.backend .mount) : s.Uses allowed (s.mount l) :=
  .one h

theorem unmount_uses {l : Logger} (h : allowed l.backend .unmount) :
    s.Uses allowed (s.unmount l) :=
  .one h

theorem closeBackend_uses {id : Nat} (h : allowed id .close) :
    s.Uses allowed (s.closeBackend id) :=
  .one h

theorem tick_uses {id : Nat} {b : JsonBackend} (hb : s.backend id = .json b)
    (h : allowed id .tick) :
    s.Uses allowed
      ({ s with host := (b.tick s.host).2 }.setBackend id (.json (b.tick s.host).1)) := by
  have huse := Uses.one (s := s) h
  rw [System.use, hb] at huse
  exact huse

theorem resetMetrics_uses {l : Logger} (h : allowed l.backend .resetMetrics) :
    s.Uses allowed (s.resetMetrics l) := by
  have huse := Uses.one (s := s) h
  unfold resetMetrics
  split
  · next b hb =>
    rw [System.use, hb] at huse
    exact huse
  · exact .nothing

/-! ## 5. Replaying -/

/-- The entry that is emitted when a record is replayed. -/
def replayEntry (s : System) (l : Logger) (r : Record) : Entry :=
  (match r.time? with
    | some t => (s.entry l).1.withField "time" (.time t)
    | none => (s.entry l).1).withFields r.keys r.vals

theorem replay_eq (s : System) (l : Logger) (r : Record) :
    s.replay l r = (s.entry l).2.commit (s.replayEntry l r) r.level r.message .nowhere := by
  unfold replay replayEntry
  cases r.time? with
  | none => rfl
  | some t => rfl

end System

theorem Entry.withField_backend (e : Entry) (key : String) (value : Value) :
    (e.withField key value).backend = e.backend := by
  unfold Entry.withField
  cases Attachment.of key value <;> rfl

namespace System

variable {s : System} {allowed : Nat → Backend.Use → Prop}

theorem replayEntry_backend (s : System) (l : Logger) (r : Record) :
    (s.replayEntry l r).backend = l.backend := by
  rw [replayEntry]
  cases r.time? with
  | none => rfl
  | some t => exact Entry.withField_backend (s.entry l).1 "time" (.time t)

theorem replay_uses {l : Logger} (hacquire : allowed l.backend .acquire)
    (hfinalize : ∀ stack r, allowed l.backend (.finalize stack r)) (r : Record) :
    s.Uses allowed (s.replay l r) := by
  rw [replay_eq]
  refine (entry_uses hacquire).trans (commit_uses (fun stack r => ?_) _ _ _)
  rw [replayEntry_backend]
  exact hfinalize stack r

theorem replayAll_uses {l : Logger} (hacquire : allowed l.backend .acquire)
    (hfinalize : ∀ stack r, allowed l.backend (.finalize stack r)) (records : List Record) :
    s.Uses allowed (s.replayAll l records) := by
  induction records generalizing s with
  | nil => exact .nothing
  | cons r rest ih => exact (replay_uses hacquire hfinalize r).trans ih

theorem replay_thresholds (s : System) (l : Logger) (r : Record) :
    (s.replay l r).thresholds = s.thresholds := by
  rw [replay_eq]
  rfl

/-- The handle through which records are replayed to `next`: it has the threshold and the base
fields of `next`, and records no caller. -/
def replayer (s : System) (next : Logger) : Logger × System :=
  (s.entry next).2.intoLogger
    (((s.entry next).1.withField "depth" (.text "disable")).withField "logger" (.bool true))

theorem replayer_backend (s : System) (next : Logger) :
    (s.replayer next).1.backend = next.backend := by
  show (Entry.withField _ _ _).backend = next.backend
  rw [Entry.withField_backend, Entry.withField_backend]
  rfl

theorem replayer_uses {next : Logger} (hacquire : allowed next.backend .acquire)
    (hrelease : ∀ r, allowed next.backend (.release r)) :
    s.Uses allowed (s.replayer next).2 := by
  refine (entry_uses hacquire).trans (intoLogger_uses fun r => ?_)
  rw [Entry.withField_backend, Entry.withField_backend]
  exact hrelease r

/-! ## 6. What calls start with -/

/-- A call starts with the threshold, the depth and the base fields of its handle, and with nothing
else. -/
theorem entry_eq {l : Logger} {threshold : Level} {caller : CallerDepth}
    (h : (s.backend l.backend).HandsOut threshold caller) :
    (s.entry l).1 = ⟨l.backend, { Record.blank with
      threshold := s.threshold l, caller := l.caller, keys := l.keys, vals := l.vals },
      false⟩ := by
  have hrecord : (s.acquire l.backend).1 = .fresh threshold caller := h.acquire
  show (⟨l.backend, { (s.acquire l.backend).1 with
    threshold := s.threshold l, caller := l.caller,
    keys := (s.acquire l.backend).1.keys ++ l.keys,
    vals := (s.acquire l.backend).1.vals ++ l.vals }, false⟩ : Entry) = _
  rw [hrecord]
  rfl

/-- The handle for a replay has the threshold and the base fields of `next`, and records no caller,
whatever `next` does. -/
theorem replayer_eq {next : Logger} {threshold : Level} {caller : CallerDepth}
    (h : (s.backend next.backend).HandsOut threshold caller) :
    (s.replayer next).1 = ⟨next.backend, s.thresholds.length,
        { next.caller with mode := .disabled }, next.keys, next.vals⟩ ∧
      (s.replayer next).2.thresholds = s.thresholds ++ [s.threshold next] := by
  unfold replayer
  rw [entry_eq h]
  exact ⟨rfl, rfl⟩

theorem replayer_threshold {next : Logger} {threshold : Level} {caller : CallerDepth}
    (h : (s.backend next.backend).HandsOut threshold caller) :
    (s.replayer next).2.threshold (s.replayer next).1 = s.threshold next := by
  obtain ⟨hhandle, hthresholds⟩ := replayer_eq h
  exact threshold_of_last hthresholds (by rw [hhandle])

/-! ## 7. Handoffs -/

/-- The end of a handoff: a sync that failed is reported. -/
theorem use_syncLast (s : System) (l : Logger) :
    s.use l.backend .syncLast =
      match s.sync l with
      | (.ok (), s) => s
      | (.error e, s) => { s with host := s.host.report (.syncAfterHandoff e) } := by
  unfold System.use sync
  cases s.backend l.backend with
  | json b =>
    dsimp only [Backend.use, Backend.sync, JsonBackend.syncLast]
    rcases b.sync s.host with ⟨_ | ⟨⟨⟩⟩, b', host⟩
    · rfl
    · rfl
  | init pending => rfl
  | null => rfl

/-- A handoff takes the records from a backend of any kind, and if there are some it makes a handle
for them, replays them and syncs. -/
theorem handoff_taken (s : System) (source : Nat) (next : Logger) :
    s.handoff source next =
      let taken := s.use source .takePending
      if (s.backend source).takePending.1.isEmpty then taken
      else
        ((taken.replayer next).2.replayAll (taken.replayer next).1
          (s.backend source).takePending.1).use next.backend .syncLast := by
  dsimp only
  rw [use_syncLast]
  rfl

theorem handoff_eq {source : Nat} {records : List Record} (h : s.backend source = .init records)
    (next : Logger) :
    s.handoff source next =
      if records.isEmpty then s.setBackend source (.init [])
      else
        (((s.setBackend source (.init [])).replayer next).2.replayAll
          ((s.setBackend source (.init [])).replayer next).1 records).use next.backend
            .syncLast := by
  have htaken : s.use source .takePending = s.setBackend source (.init []) := by
    rw [System.use, h]
    rfl
  have hrecords : (s.backend source).takePending.1 = records := by
    rw [h]
    rfl
  rw [handoff_taken, htaken, hrecords]

/-- Once the records have been taken, only the backend that they go to is used. -/
theorem taken_uses {next : Logger} (hnext : ∀ u, allowed next.backend u) (source : Nat) :
    (s.use source .takePending).Uses allowed (s.handoff source next) := by
  rw [handoff_taken]
  dsimp only
  split
  · exact .nothing
  · refine (replayer_uses (hnext _) fun r => hnext _).trans ?_
    refine (replayAll_uses ?_ ?_ _).trans (.one (hnext _))
    all_goals rw [replayer_backend]
    · exact hnext _
    · exact fun stack r => hnext _

theorem handoff_uses {source : Nat} {next : Logger} (hsource : allowed source .takePending)
    (hnext : ∀ u, allowed next.backend u) : s.Uses allowed (s.handoff source next) :=
  (Uses.one hsource).trans (taken_uses hnext source)

/-- A backend that is neither the source nor the target of a handoff stays as it is. -/
theorem handoff_apart {source id : Nat} {next : Logger} (hsource : id ≠ source)
    (hnext : id ≠ next.backend) : (s.handoff source next).backend id = s.backend id := by
  have htaken : (s.use source .takePending).Uses (fun id _ => id = next.backend)
      (s.handoff source next) := taken_uses (fun _ => rfl) source
  exact (htaken.apart fun _ => hnext).trans (use_apart hsource _)

end System

end Logbook
