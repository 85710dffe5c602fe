import Logbook.Proofs.Logger.Journal

/-!
# Records leak nothing

Records are taken from a pool, filled in, emptied and put back. Still, what a backend writes is what
the journal of the same actions says, in which no record is ever used twice: a record in the pool is
like a fresh one, and a call holds what its own history put into it.

Results:
1. `Taker.console`, `Taker.memory`, `Taker.scripted`: sinks that take every line.
2. `Pool.IsFresh.acquire`, `Pool.IsFresh.release`: the pool holds fresh records only.
3. `complete_buffer`: a record that holds a draft becomes the line of the draft.
4. `Agrees.act`: one action.
5. `written_eq_journal`: any number of actions.
-/

namespace Logbook

/-! ## 1. Sinks that take every line -/

/-- A way in which a sink takes everything, and what it has received. -/
structure Taker where
  takes : Sink → Host → Prop
  received : Sink → Host → Bytes
  write : ∀ {sink : Sink} {host : Host} (bytes : Bytes), takes sink host →
    ∃ sink' host', sink.write bytes host = (.ok (), sink', host') ∧ takes sink' host' ∧
      received sink' host' = received sink host ++ bytes ∧
      host'.zone = host.zone ∧ host'.now = host.now
  clock : ∀ {sink : Sink} {host : Host} (now : Time.Moment) (failed : Bool), takes sink host →
    takes sink { host with now := now, clockFailed := failed } ∧
      received sink { host with now := now, clockFailed := failed } = received sink host

/-- The console takes everything. -/
def Taker.console : Taker where
  takes sink _ := sink = .console
  received _ host := host.console
  write {sink host} bytes h := by
    subst h
    cases bytes with
    | nil => exact ⟨_, _, rfl, rfl, (List.append_nil _).symm, rfl, rfl⟩
    | cons b rest => exact ⟨_, _, rfl, rfl, rfl, rfl, rfl⟩
  clock _ _ h := ⟨h, rfl⟩

theorem buffer_remember (host : Host) (name : String) (bytes : Bytes) :
    (host.remember name bytes).buffer name = host.buffer name ++ bytes := by
  rw [Host.buffer, Host.remember, Host.setBuffer, List.lookup_cons_self, Option.getD_some]

/-- A buffer in memory takes everything. -/
def Taker.memory (name : String) : Taker where
  takes sink _ := sink = .memory name
  received _ host := host.buffer name
  write {sink host} bytes h := by
    subst h
    cases bytes with
    | nil => exact ⟨_, _, rfl, rfl, (List.append_nil _).symm, rfl, rfl⟩
    | cons b rest => exact ⟨_, _, rfl, rfl, buffer_remember host name (b :: rest), rfl, rfl⟩
  clock _ _ h := ⟨h, rfl⟩

/-- Steps of a plan that neither fail nor take nothing. -/
def Scripted.IsWilling (plan : List WriteStep) : Prop :=
  ∀ step ∈ plan, step ≠ .atMost 0 ∧ ∀ reason, step ≠ .fail reason

theorem Scripted.IsWilling.offer {plan : List WriteStep} (h : IsWilling plan) (bytes : Bytes) :
    ∃ plan', Scripted.offer plan bytes = (.ok (), bytes, plan') ∧ IsWilling plan' := by
  induction plan generalizing bytes with
  | nil => cases bytes <;> exact ⟨[], rfl, h⟩
  | cons step plan ih =>
    have hrest : IsWilling plan := fun step hs => h step (List.mem_cons_of_mem _ hs)
    cases bytes with
    | nil => exact ⟨step :: plan, by rw [Scripted.offer], h⟩
    | cons b rest =>
      obtain ⟨hzero, hfail⟩ := h step List.mem_cons_self
      cases step with
      | accept => exact ⟨plan, rfl, hrest⟩
      | interrupted => exact ih hrest (b :: rest)
      | fail reason => exact absurd rfl (hfail reason)
      | atMost n =>
        obtain ⟨plan', ho, hw⟩ := ih hrest ((b :: rest).drop n)
        have hn : n ≠ 0 := fun hn => hzero (hn ▸ rfl)
        refine ⟨plan', ?_, hw⟩
        simp only [Scripted.offer, if_neg hn, ho, List.take_append_drop]

/-- A scripted sink takes everything if its plan is willing. -/
def Taker.scripted (name : String) : Taker where
  takes sink _ := ∃ s, sink = .scripted s ∧ s.name = name ∧ Scripted.IsWilling s.writes
  received _ host := host.buffer name
  write {sink host} bytes h := by
    obtain ⟨s, rfl, rfl, hw⟩ := h
    cases bytes with
    | nil => exact ⟨_, _, rfl, ⟨s, rfl, rfl, hw⟩, (List.append_nil _).symm, rfl, rfl⟩
    | cons b rest =>
      obtain ⟨plan, ho, hplan⟩ := hw.offer (b :: rest)
      refine ⟨.scripted { s with writes := plan }, host.remember s.name (b :: rest), ?_,
        ⟨_, rfl, rfl, hplan⟩, buffer_remember host s.name (b :: rest), rfl, rfl⟩
      simp [Sink.write, Scripted.write, ho]
  clock _ _ h := ⟨h, rfl⟩

/-! ## 2. Pools -/

/-- A pool that hands out fresh records only. -/
structure Pool.IsFresh (pool : Pool) (threshold : Level) (caller : CallerDepth) : Prop where
  threshold_eq : pool.threshold = threshold
  caller_eq : pool.caller = caller
  idle : ∀ r ∈ pool.idle, r = Record.fresh threshold caller

theorem Pool.isFresh_empty (capacity : Nat) (threshold : Level) (caller : CallerDepth) :
    (Pool.empty capacity threshold caller).IsFresh threshold caller :=
  ⟨rfl, rfl, fun _ h => absurd h List.not_mem_nil⟩

theorem Pool.IsFresh.acquire {pool : Pool} {threshold : Level} {caller : CallerDepth}
    (h : pool.IsFresh threshold caller) :
    pool.acquire.1 = Record.fresh threshold caller ∧ pool.acquire.2.IsFresh threshold caller := by
  rw [Pool.acquire]
  cases hi : pool.idle with
  | nil => exact ⟨by rw [h.threshold_eq, h.caller_eq], h⟩
  | cons r rest =>
    refine ⟨h.idle r (hi ▸ List.mem_cons_self), h.threshold_eq, h.caller_eq, fun r' hr' => ?_⟩
    exact h.idle r' (hi ▸ List.mem_cons_of_mem r hr')

/-- Whatever a record held, it is fresh when it is put back. -/
theorem Pool.IsFresh.release {pool : Pool} {threshold : Level} {caller : CallerDepth}
    (h : pool.IsFresh threshold caller) (r : Record) :
    (pool.release r).IsFresh threshold caller := by
  unfold Pool.release
  split
  · refine ⟨h.threshold_eq, h.caller_eq, fun r' hr' => ?_⟩
    rcases List.mem_append.mp hr' with hold | hnew
    · exact h.idle r' hold
    · rw [List.mem_singleton.mp hnew, ← h.threshold_eq, ← h.caller_eq]
      rfl
  · exact h

/-! ## 3. Lines -/

/-- A backend whose sink takes everything and whose pool is fresh. -/
structure JsonBackend.IsReady (b : JsonBackend) (taker : Taker) (threshold : Level)
    (caller : CallerDepth) (host : Host) : Prop where
  takes : taker.takes b.sink host
  pool : b.pool.IsFresh threshold caller

theorem timeOr_eq (host : Host) (own? : Option Time.Stamp) :
    ∃ failed, host.timeOr own? =
      (own?.getD host.localNow, { host with now := host.now, clockFailed := failed }) := by
  cases own? with
  | none => exact ⟨_, rfl⟩
  | some t => exact ⟨host.clockFailed, rfl⟩

/-- A line is taken as a whole and counted. -/
theorem JsonBackend.writeLine_takes {b : JsonBackend} {taker : Taker} {host : Host}
    (h : taker.takes b.sink host) (line : Bytes) :
    ∃ sink host', b.writeLine line host =
        ({ b with sink := sink, metrics := b.metrics.countLine line.length }, host') ∧
      taker.takes sink host' ∧ taker.received sink host' = taker.received b.sink host ++ line ∧
      host'.zone = host.zone ∧ host'.now = host.now := by
  obtain ⟨sink, host', hwrite, htaken⟩ := taker.write line h
  rw [JsonBackend.writeLine, hwrite]
  exact ⟨sink, host', rfl, htaken⟩

/-- A finished record of a call is written as a whole, unless it holds nothing, and goes back to the
pool. -/
theorem JsonBackend.IsReady.finalize {b : JsonBackend} {taker : Taker} {threshold : Level}
    {caller : CallerDepth} {host : Host} (h : b.IsReady taker threshold caller host)
    (stack : List Frame) (r : Record) :
    ∃ b' host', b.finalize stack r host = (b', host') ∧
      b'.IsReady taker threshold caller host' ∧ b'.format = b.format ∧
      host'.zone = host.zone ∧ host'.now = host.now ∧
      taker.received b'.sink host' = taker.received b.sink host ++
        if r.isEmpty then [] else (b.complete stack (r.time?.getD host.localNow) r).buffer := by
  unfold JsonBackend.finalize
  split
  · next hempty =>
    exact ⟨_, _, rfl, ⟨h.takes, h.pool.release r⟩, rfl, rfl, rfl, (List.append_nil _).symm⟩
  next hempty =>
  obtain ⟨failed, htime⟩ := timeOr_eq host r.time?
  obtain ⟨htakes, hreceived⟩ := taker.clock host.now failed h.takes
  obtain ⟨sink', host', hw, htakes', hreceived', hzone, hnow⟩ :=
    b.writeLine_takes htakes (b.complete stack (r.time?.getD host.localNow) r).buffer
  simp only [htime, hw]
  refine ⟨_, _, rfl, ⟨htakes', h.pool.release _⟩, rfl, hzone, hnow, ?_⟩
  exact hreceived'.trans (by rw [hreceived])

theorem balance_zip (r : Record) :
    r.balance.keys.length = r.balance.vals.length ∧
      r.balance.keys.zip r.balance.vals = r.keys.zip r.vals ++
        if r.keys.length = r.vals.length then []
        else [(Record.mismatchKey, .text Record.mismatchMessage)] := by
  rw [Record.balance, Record.isBalanced]
  by_cases h : r.keys.length = r.vals.length
  · simp [h]
  · have hlen : (r.keys.take (min r.keys.length r.vals.length)).length =
        (r.vals.take (min r.keys.length r.vals.length)).length := by simp
    rw [if_neg (by simp [h]), if_neg h]
    refine ⟨by simp, ?_⟩
    rw [List.zip_append hlen, ← List.zip_eq_zip_take_min]
    rfl

theorem balance_eq (r : Record) :
    r.balance = { r with keys := r.balance.keys, vals := r.balance.vals } := by
  unfold Record.balance
  split <;> rfl

theorem addFields_zip {r : Record} (fields : List (String × Value))
    (h : r.keys.length = r.vals.length) :
    (r.addFields fields).keys.zip (r.addFields fields).vals = r.keys.zip r.vals ++ fields := by
  rw [Record.addFields, List.zip_append h]
  congr 1
  induction fields with
  | nil => rfl
  | cons field rest ih => rw [List.map_cons, List.map_cons, List.zip_cons_cons, ih]

theorem Level.passes_iff {level threshold : Level} :
    level.passes threshold = true ↔ threshold.rank ≤ level.rank := by
  cases level <;> cases threshold <;> decide

section

variable {r : Record} {level : Level}

/-- A call whose level is high enough goes to the backend with all that it was given. -/
theorem System.committed_of_le (h : r.threshold.rank ≤ level.rank) (message : String)
    (site : CallSite) :
    System.committed r level message site = { r with
      level := level, message := message, location? := site.location?,
      module? := site.module? } :=
  if_pos (Level.passes_iff.mpr h)

/-- Of any other call nothing is left to show. -/
theorem System.committed_of_lt (h : level.rank < r.threshold.rank) (message : String)
    (site : CallSite) :
    System.committed r level message site = { r with message := "", keys := [], vals := [] } :=
  if_neg fun hpass => Nat.not_le_of_lt h (Level.passes_iff.mp hpass)

end

namespace Journal

/-- A call on the system that holds what a draft says. -/
def Draft.entry (d : Draft) : Entry where
  backend := 0
  record := { Record.blank with
    threshold := d.threshold
    caller := d.depth
    keys := d.keys
    vals := d.vals
    time? := d.time? }
  marked := d.isMarked

/-- What a record asks to know of its caller is added as further fields. -/
theorem Draft.capture_eq (d : Draft) {site : CallSite} {r : Record} (hcaller : r.caller = d.depth)
    (hlocation : r.location? = site.location?) (hmodule : r.module? = site.module?) :
    r.capture site.stack = r.addFields (d.captured site) := by
  rw [Record.capture, Draft.captured, hcaller, hlocation, hmodule]
  cases d.depth.mode with
  | location => rfl
  | stack => rfl
  | none => simp [Record.addFields]
  | disabled => simp [Record.addFields]

/-- The record of a draft becomes the line of the draft. -/
theorem Draft.complete_buffer (d : Draft) (b : JsonBackend) (now : Time.Stamp) (level : Level)
    (message : String) (site : CallSite) :
    (b.complete site.stack (d.time?.getD now) { d.entry.record with
      level := level, message := message, location? := site.location?,
      module? := site.module? }).buffer = d.line b.format now level message site := by
  generalize hr : { d.entry.record with
    level := level, message := message, location? := site.location?,
    module? := site.module? } = r
  obtain ⟨hlen, hzip⟩ := balance_zip r
  have hkeys : r.keys = d.keys := by rw [← hr, Draft.entry]
  have hvals : r.vals = d.vals := by rw [← hr, Draft.entry]
  have hcapture : r.balance.capture site.stack = r.balance.addFields (d.captured site) := by
    refine d.capture_eq ?_ ?_ ?_ <;> rw [balance_eq, ← hr, Draft.entry]
  have hfields := addFields_zip (d.captured site) hlen
  rw [hzip, hkeys, hvals] at hfields
  have hlevel : (r.balance.addFields (d.captured site)).level = level := by
    rw [Record.addFields, balance_eq, ← hr]
  have hmessage : (r.balance.addFields (d.captured site)).message = message := by
    rw [Record.addFields, balance_eq, ← hr]
  rw [JsonBackend.complete, hcapture, Record.withLine, Record.line, Line.ofParts, Line.fields,
    hfields, hlevel, hmessage]
  rfl

/-- A draft that is emitted becomes its line, or nothing where its level or its emptiness
suppresses it. -/
theorem Draft.committed_written (d : Draft) (b : JsonBackend) (now : Time.Stamp) (level : Level)
    (message : String) (site : CallSite) :
    (if (System.committed d.entry.record level message site).isEmpty then []
      else (b.complete site.stack
        ((System.committed d.entry.record level message site).time?.getD now)
        (System.committed d.entry.record level message site)).buffer) =
      d.written b.format now level message site := by
  rcases Nat.lt_or_ge level.rank d.threshold.rank with hlow | hhigh
  · rw [System.committed_of_lt (r := d.entry.record) hlow, written, isWritten,
      decide_eq_false (Nat.not_le_of_lt hlow)]
    rfl
  · have hline := d.complete_buffer b now level message site
    rw [System.committed_of_le (r := d.entry.record) hhigh, written, isWritten,
      decide_eq_true hhigh, Bool.true_and]
    cases he : message.isEmpty && d.keys.isEmpty && d.vals.isEmpty with
    | true => exact if_pos he
    | false => exact (if_neg fun hc => Bool.false_ne_true (he.symm.trans hc)).trans hline

/-! ## 4. Single actions -/

/-- What an addition does to a call. -/
theorem Draft.entry_add (d : Draft) (a : Addition) :
    Draft.entry { d with additions := d.additions ++ [a] } =
      ⟨0, { d.entry.record with
        caller := a.depth d.depth
        keys := d.keys ++ a.keys
        vals := d.vals ++ a.vals
        time? := a.time?.or d.time? }, d.isMarked || a.marks⟩ := by
  have htime : (List.filterMap (·.time?) (d.additions ++ [a])).getLast? = a.time?.or d.time? := by
    rw [List.filterMap_append, List.getLast?_append, Draft.time?]
    cases ha : a.time? <;> simp [ha]
  simp only [Draft.entry, Draft.keys, Draft.vals, Draft.depth, Draft.isMarked, List.flatMap_append,
    List.foldl_append, List.any_append, List.append_assoc]
  rw [Draft.time?, htime]
  simp

section

attribute [local simp] Addition.keys Addition.vals Addition.time? Addition.depth Addition.marks
  isControl Entry.withField Entry.withFields Attachment.of Entry.attach Draft.entry

theorem Draft.entry_one (d : Draft) (key : String) (value : Value) :
    Draft.entry { d with additions := d.additions ++ [.one key value] } =
      d.entry.withField key value := by
  rw [d.entry_add]
  cases value with
  | time t => by_cases hk : key = "time" <;> simp [hk]
  | int n => by_cases hk : key = "depth" <;> simp [hk]
  | uint n => by_cases hk : key = "depth" <;> simp [hk]
  | text s => by_cases hk : key = "depth" <;> simp [hk]
  | bool b =>
    cases b with
    | false => simp
    | true => by_cases hk : key = "logger" <;> simp [hk]
  | _ => simp

theorem Draft.entry_many (d : Draft) (keys : List String) (vals : List Value) :
    Draft.entry { d with additions := d.additions ++ [.many keys vals] } =
      d.entry.withFields keys vals := by
  rw [d.entry_add]
  simp

end

/-- A handle on the system as the journal knows it. -/
def Handle.logger (h : Handle) : Logger := ⟨0, h.family, h.caller, h.keys, h.vals⟩

end Journal

/-- A system and a journal that tell the same. Before the first action the sink had received
`before`. -/
structure Bench.Agrees (taker : Taker) (before : Bytes) (b : Bench) (j : Journal) : Prop where
  backend : ∃ json : JsonBackend, b.system.backends = [.json json] ∧ json.format = j.format ∧
    json.IsReady taker j.threshold (.ofMode j.capture) b.system.host ∧
    taker.received json.sink b.system.host = before ++ j.written
  thresholds : b.system.thresholds = j.levels
  zone : b.system.host.zone = j.zone
  now : b.system.host.now = j.now
  handles : b.handles = j.handles.map Journal.Handle.logger
  calls : b.calls = j.drafts.map (Option.map Journal.Draft.entry)

theorem live?_map {α β : Type} (f : α → β) (l : List (Option α)) (i : Nat) :
    live? (l.map (Option.map f)) i = (live? l i).map f := by
  rw [live?, live?, List.getElem?_map]
  rcases l[i]? with _ | _ | a <;> rfl

namespace System

variable {s : System} {json : JsonBackend}

theorem acquire_eq (h : s.backends = [.json json]) :
    s.acquire 0 = (json.acquire.1, { s with backends := [.json json.acquire.2] }) := by
  simp [acquire, backend, setBackend, h, Backend.acquire]

theorem release_eq (h : s.backends = [.json json]) (r : Record) :
    s.release 0 r = { s with backends := [.json (json.release r)] } := by
  simp [release, backend, setBackend, h, Backend.release]

theorem finalize_eq (h : s.backends = [.json json]) (stack : List Frame) (r : Record) :
    s.finalize 0 stack r = { s with
      host := (json.finalize stack r s.host).2
      backends := [.json (json.finalize stack r s.host).1] } := by
  simp [finalize, backend, setBackend, h, Backend.finalize]

end System

namespace Bench.Agrees

variable {taker : Taker} {before : Bytes} {b : Bench} {j : Journal}

theorem clock (h : b.Agrees taker before j) (now : Time.Moment) :
    (b.act (.clock now)).Agrees taker before (j.note (.clock now)) := by
  obtain ⟨json, hb, hformat, hready, hreceived⟩ := h.backend
  obtain ⟨htakes, hsame⟩ := taker.clock now b.system.host.clockFailed hready.takes
  exact ⟨⟨json, hb, hformat, ⟨htakes, hready.pool⟩, hsame.trans hreceived⟩, h.thresholds, h.zone,
    rfl, h.handles, h.calls⟩

/-- A handle is there on both sides or on neither. -/
theorem handle (h : b.Agrees taker before j) (handle : Nat) :
    b.handles[handle]? = none ∧ j.handles[handle]? = none ∨
      ∃ l : Journal.Handle, b.handles[handle]? = some l.logger ∧ j.handles[handle]? = some l := by
  rw [h.handles, List.getElem?_map]
  cases j.handles[handle]? with
  | none => exact .inl ⟨rfl, rfl⟩
  | some l => exact .inr ⟨l, rfl, rfl⟩

/-- A call is live on both sides or on neither. -/
theorem call (h : b.Agrees taker before j) (call : Nat) :
    live? b.calls call = none ∧ live? j.drafts call = none ∨
      ∃ d : Journal.Draft, live? b.calls call = some d.entry ∧ live? j.drafts call = some d := by
  rw [h.calls, live?_map]
  cases live? j.drafts call with
  | none => exact .inl ⟨rfl, rfl⟩
  | some d => exact .inr ⟨d, rfl, rfl⟩

theorem clone (h : b.Agrees taker before j) (handle : Nat) :
    (b.act (.clone handle)).Agrees taker before (j.note (.clone handle)) := by
  obtain ⟨hb, hj⟩ | ⟨l, hb, hj⟩ := h.handle handle
  · simp only [act, Journal.note, hb, hj]
    exact h
  · simp only [act, Journal.note, hb, hj]
    refine ⟨h.backend, h.thresholds, h.zone, h.now, ?_, h.calls⟩
    simp [h.handles]

theorem setLevel (h : b.Agrees taker before j) (handle : Nat) (level : Level) :
    (b.act (.setLevel handle level)).Agrees taker before (j.note (.setLevel handle level)) := by
  obtain ⟨hb, hj⟩ | ⟨l, hb, hj⟩ := h.handle handle
  · simp only [act, Journal.note, hb, hj]
    exact h
  · simp only [act, Journal.note, hb, hj]
    refine ⟨h.backend, ?_, h.zone, h.now, h.handles, h.calls⟩
    simp [System.setThreshold, h.thresholds, Journal.Handle.logger]

theorem new (h : b.Agrees taker before j) :
    (b.act .new).Agrees taker before (j.note .new) := by
  obtain ⟨json, hb, hformat, hready, hreceived⟩ := h.backend
  obtain ⟨hfresh, hpool⟩ := hready.pool.acquire
  have hsecond : ({ b.system with backends := [.json json.acquire.2] } : System).backends =
      [.json json.acquire.2] := rfl
  -- the record that is taken to read the threshold off goes back to the pool
  have hnew : b.system.newLogger 0 =
      (⟨0, j.levels.length, .ofMode j.capture, [], []⟩, { b.system with
        backends := [.json (json.acquire.2.release json.acquire.1)]
        thresholds := j.levels ++ [j.threshold] }) := by
    rw [System.newLogger, System.acquire_eq hb]
    dsimp only
    rw [System.release_eq hsecond, System.derive]
    dsimp only
    rw [h.thresholds, show json.acquire.1 = _ from hfresh]
    rfl
  simp only [act, Journal.note, hnew]
  refine ⟨⟨_, rfl, hformat, ⟨hready.takes, hpool.release _⟩, hreceived⟩, rfl, h.zone, h.now, ?_,
    h.calls⟩
  rw [h.handles, List.map_append]
  rfl

theorem start (h : b.Agrees taker before j) (handle : Nat) :
    (b.act (.start handle)).Agrees taker before (j.note (.start handle)) := by
  obtain ⟨json, hb, hformat, hready, hreceived⟩ := h.backend
  obtain ⟨hfresh, hpool⟩ := hready.pool.acquire
  obtain ⟨hh, hj⟩ | ⟨l, hh, hj⟩ := h.handle handle
  · simp only [act, Journal.note, hh, hj]
    exact h
  · simp only [act, Journal.note, hh, hj]
    have hentry : b.system.entry l.logger =
        (Journal.Draft.entry ⟨j.levels.getD l.family .debug, l.caller, l.keys, l.vals, []⟩,
          { b.system with backends := [.json json.acquire.2] }) := by
      rw [System.entry, show l.logger.backend = 0 from rfl, System.acquire_eq hb]
      dsimp only
      rw [show json.acquire.1 = _ from hfresh, System.threshold, h.thresholds]
      simp [Journal.Draft.entry, Journal.Draft.keys, Journal.Draft.vals, Journal.Draft.depth,
        Journal.Draft.time?, Journal.Draft.isMarked, Journal.Handle.logger, Record.fresh,
        Record.blank]
    rw [hentry]
    refine ⟨⟨_, rfl, hformat, ⟨hready.takes, hpool⟩, hreceived⟩, h.thresholds, h.zone, h.now,
      h.handles, ?_⟩
    rw [h.calls, List.map_append]
    rfl

/-- An addition that the system and the journal understand alike. -/
theorem change (h : b.Agrees taker before j) (call : Nat) {f : Entry → Entry}
    {addition : Journal.Addition}
    (hf : ∀ d : Journal.Draft,
      Journal.Draft.entry { d with additions := d.additions ++ [addition] } = f d.entry) :
    (b.change call f).Agrees taker before (j.add call addition) := by
  obtain ⟨hc, hj⟩ | ⟨d, hc, hj⟩ := h.call call
  · simp only [Bench.change, Journal.add, hc, hj]
    exact h
  · simp only [Bench.change, Journal.add, hc, hj]
    refine ⟨h.backend, h.thresholds, h.zone, h.now, h.handles, ?_⟩
    dsimp only
    rw [← hf, h.calls, List.map_set]
    rfl

theorem intoLogger (h : b.Agrees taker before j) (call : Nat) :
    (b.act (.intoLogger call)).Agrees taker before (j.note (.intoLogger call)) := by
  obtain ⟨json, hb, hformat, hready, hreceived⟩ := h.backend
  obtain ⟨hc, hj⟩ | ⟨d, hc, hj⟩ := h.call call
  · simp only [act, Journal.note, hc, hj]
    exact h
  · simp only [act, Journal.note, hc, hj]
    have hderived : (b.system.derive 0 d.threshold d.depth d.keys d.vals).2.backends =
        [.json json] := hb
    -- what the record that goes back holds does not matter: the pool resets what it hands out
    have hinto : ∃ r, b.system.intoLogger d.entry =
        (⟨0, j.levels.length, d.depth, d.keys, d.vals⟩, { b.system with
          backends := [.json (json.release r)]
          thresholds := j.levels ++ [d.threshold] }) := by
      refine ⟨{ d.entry.record with keys := [], vals := [] }, ?_⟩
      show ((b.system.derive 0 d.threshold d.depth d.keys d.vals).1,
        (b.system.derive 0 d.threshold d.depth d.keys d.vals).2.release 0 _) = _
      rw [System.release_eq hderived, System.derive, h.thresholds]
    obtain ⟨r, hr⟩ := hinto
    rw [hr]
    refine ⟨⟨_, rfl, hformat, ⟨hready.takes, hready.pool.release _⟩, hreceived⟩, rfl, h.zone, h.now,
      ?_, ?_⟩
    · rw [h.handles, List.map_append]
      rfl
    · rw [h.calls, List.map_set]
      rfl

theorem emit (h : b.Agrees taker before j) (call : Nat) (level : Level) (message : String)
    (site : CallSite) :
    (b.act (.emit call level message site)).Agrees taker before
      (j.note (.emit call level message site)) := by
  obtain ⟨json, hb, hformat, hready, hreceived⟩ := h.backend
  obtain ⟨hc, hj⟩ | ⟨d, hc, hj⟩ := h.call call
  · simp only [act, Journal.note, hc, hj]
    exact h
  · simp only [act, Journal.note, hc, hj]
    obtain ⟨json', host', hfin, hready', hformat', hzone, hnow, hreceived'⟩ :=
      hready.finalize site.stack (System.committed d.entry.record level message site)
    -- a line without a time of its own is dated by the clock, which both sides share
    have hlocal : b.system.host.localNow = j.zone.stamp j.now := by
      rw [Host.localNow, h.zone, h.now]
    rw [System.commit, show d.entry.backend = 0 from rfl, System.finalize_eq hb, hfin]
    refine ⟨⟨json', rfl, hformat'.trans hformat, hready', ?_⟩, h.thresholds, hzone.trans h.zone,
      hnow.trans h.now, h.handles, ?_⟩
    · dsimp only
      rw [hreceived', hreceived, List.append_assoc, hlocal, d.committed_written, hformat]
    · rw [h.calls, List.map_set]
      rfl

theorem drop (h : b.Agrees taker before j) (call : Nat) :
    (b.act (.drop call)).Agrees taker before (j.note (.drop call)) := by
  refine ⟨h.backend, h.thresholds, h.zone, h.now, h.handles, ?_⟩
  simp [act, Journal.note, h.calls, List.map_set]

/-- One action. -/
theorem act (h : b.Agrees taker before j) (action : Action) :
    (b.act action).Agrees taker before (j.note action) := by
  cases action with
  | clock now => exact h.clock now
  | new => exact h.new
  | clone handle => exact h.clone handle
  | setLevel handle level => exact h.setLevel handle level
  | start handle => exact h.start handle
  | withField call key value => exact h.change call fun d => d.entry_one key value
  | withFields call keys vals => exact h.change call fun d => d.entry_many keys vals
  | intoLogger call => exact h.intoLogger call
  | emit call level message site => exact h.emit call level message site
  | drop call => exact h.drop call

/-- Any number of actions. -/
theorem actAll (h : b.Agrees taker before j) (actions : List Action) :
    (b.actAll actions).Agrees taker before (j.noteAll actions) := by
  induction actions generalizing b j with
  | nil => exact h
  | cons action rest ih => exact ih (h.act action)

end Bench.Agrees

/-! ## 5. Any number of actions -/

/-- A journal without an entry. -/
def Journal.start (threshold : Level) (capture : Capture) (format : TimeFormat) (host : Host) :
    Journal where
  zone := host.zone
  now := host.now
  format := format
  threshold := threshold
  capture := capture
  levels := []
  handles := []
  drafts := []
  written := []

theorem start_agrees {taker : Taker} {sink : Sink} {host : Host} (threshold : Level)
    (capture : Capture) (format : TimeFormat) (interval : Nat) (h : taker.takes sink host) :
    (Bench.start sink threshold capture format interval host).Agrees taker
      (taker.received sink host) (.start threshold capture format host) :=
  ⟨⟨_, rfl, rfl, ⟨h, Pool.isFresh_empty _ _ _⟩, (List.append_nil _).symm⟩, rfl, rfl, rfl, rfl, rfl⟩

/-- After any actions, the sink of a backend that takes everything has received what the journal of
the actions says, and nothing else. -/
theorem written_eq_journal (taker : Taker) (sink : Sink) (threshold : Level) (capture : Capture)
    (format : TimeFormat) (interval : Nat) (host : Host) (actions : List Action)
    (h : taker.takes sink host) :
    ∃ b : JsonBackend,
      ((Bench.start sink threshold capture format interval host).actAll actions).system.backend 0 =
        .json b ∧
      taker.received b.sink
        ((Bench.start sink threshold capture format interval host).actAll actions).system.host =
          taker.received sink host ++
            ((Journal.start threshold capture format host).noteAll actions).written := by
  have hall := (start_agrees threshold capture format interval h).actAll actions
  obtain ⟨json, hb, -, -, hreceived⟩ := hall.backend
  exact ⟨json, by rw [System.backend, hb]; rfl, hreceived⟩

/-- Two handles and three calls at the same time: one of them is dropped, one is suppressed, one
has unequal lists and a time, and a later one is started after records have come back. -/
def interleaved : List Action :=
  [.new, .start 0, .withField 0 "user" (.text "ana"), .start 0,
    .withField 1 "depth" (.text "stack"), .withFields 1 ["a", "b"] [.int 1],
    .withField 1 "time" (.time ⟨⟨0, 0⟩, 0⟩), .intoLogger 0,
    .setLevel 1 .error, .clone 1, .start 2, .emit 2 .info "too low" .nowhere,
    .emit 1 .warning "late" ⟨none, none, [⟨"main::run", "src/main.rs", 7⟩]⟩, .start 1, .start 1,
    .drop 3, .clock ⟨60, 0⟩, .emit 4 .fatal "" .nowhere]

theorem written_eq_journal_interleaved :
    (Taker.memory "out").takes (.memory "out") (.start "/" (.fixed 0) ⟨0, 0⟩) ∧
    ∃ b : JsonBackend,
      ((Bench.start (.memory "out") .info .none .unix 0 (.start "/" (.fixed 0) ⟨0, 0⟩)).actAll
        interleaved).system.backend 0 = .json b ∧
      (Taker.memory "out").received b.sink
        ((Bench.start (.memory "out") .info .none .unix 0 (.start "/" (.fixed 0) ⟨0, 0⟩)).actAll
          interleaved).system.host =
        (Taker.memory "out").received (.memory "out") (.start "/" (.fixed 0) ⟨0, 0⟩) ++
          ((Journal.start .info .none .unix (.start "/" (.fixed 0) ⟨0, 0⟩)).noteAll
            interleaved).written :=
  ⟨rfl, written_eq_journal (.memory "out") (.memory "out") .info .none .unix 0
    (.start "/" (.fixed 0) ⟨0, 0⟩) interleaved rfl⟩

end Logbook
