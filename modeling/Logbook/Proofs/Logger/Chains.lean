import Mathlib.Logic.Function.Basic
import Logbook.Proofs.Logger.Relay

/-!
# Chains of handoffs

Handoffs compose: through a chain of handles, each on a backend that holds back, to one that writes,
a record

* is dropped if its level is below any of the thresholds on the way, and
* gets the base fields of all handles, those of the later ones first.

So the backend that writes does what it would do in a single handoff, whatever its sink is. What
backends on the way have held back themselves comes before.

Results:
1. `System.arrived_append`, `System.through_eq`: what arrives through a chain.
2. `System.Shows.handOn`: what a backend that writes makes of a chain.
3. `handoffs_compose`: chains from any state that can be reached.
-/

namespace Logbook

/-! ## 1. Chains -/

namespace System

variable {s : System}

/-- Hands over through handles one after the other. -/
def handOn (s : System) (source : Nat) : List Logger → System
  | [] => s
  | next :: rest => (s.handoff source next).handOn next.backend rest

/-- What all backends hold back after a handoff, if they held back `store` before. -/
def pour (s : System) (store : Nat → List Held) (source : Nat) (next : Logger) :
    Nat → List Held :=
  let taken := Function.update store source []
  Function.update taken next.backend
    (taken next.backend ++ passed (s.threshold next) next.keys next.vals (store source))

theorem pour_next (store : Nat → List Held) (source : Nat) (next : Logger) :
    s.pour store source next next.backend = (if next.backend = source then [] else
      store next.backend) ++ passed (s.threshold next) next.keys next.vals (store source) := by
  rw [pour, Function.update_self, Function.update_apply]

theorem pour_source {source : Nat} {next : Logger} (h : next.backend ≠ source)
    (store : Nat → List Held) : s.pour store source next source = [] := by
  rw [pour, Function.update_of_ne (Ne.symm h), Function.update_self]

theorem pour_other {source id : Nat} {next : Logger} (hsource : id ≠ source)
    (hnext : id ≠ next.backend) (store : Nat → List Held) :
    s.pour store source next id = store id := by
  rw [pour, Function.update_of_ne hnext, Function.update_of_ne hsource]

/-- What the last backend of a chain of handoffs holds back in the end. -/
def arrived (s : System) : (Nat → List Held) → Nat → List Logger → List Held
  | store, source, [] => store source
  | store, source, next :: rest => s.arrived (s.pour store source next) next.backend rest

/-- What comes through handles one after the other. -/
def through (s : System) (handles : List Logger) (held : List Held) : List Held :=
  handles.foldl (fun held m => passed (s.threshold m) m.keys m.vals held) held

/-- Where a handoff starts, what is held back last arrives last, and what was there before arrives
as it would without it. -/
theorem arrived_append (store : Nat → List Held) (source : Nat) (handles : List Logger)
    (before held : List Held) :
    s.arrived (Function.update store source (before ++ held)) source handles =
      s.arrived (Function.update store source before) source handles ++ s.through handles held := by
  induction handles generalizing store source before held with
  | nil => simp only [arrived, through, Function.update_self, List.foldl_nil]
  | cons next rest ih =>
    -- the target holds what it held, and then what comes from either part
    have hpour (l : List Held) : s.pour (Function.update store source l) source next =
        Function.update (Function.update store source []) next.backend
          (Function.update store source [] next.backend ++
            passed (s.threshold next) next.keys next.vals l) := by
      simp only [pour, Function.update_idem, Function.update_self]
    rw [arrived, arrived, hpour, hpour, passed_append, ← List.append_assoc]
    exact ih _ _ _ _

theorem arrived_nil {store : Nat → List Held} {source : Nat} {handles : List Logger}
    (hsource : store source = []) (hhandles : ∀ m ∈ handles, store m.backend = []) :
    s.arrived store source handles = [] := by
  induction handles generalizing store source with
  | nil => exact hsource
  | cons next rest ih =>
    obtain ⟨hnext, hrest⟩ := List.forall_mem_cons.mp hhandles
    have hnothing {id : Nat} (hid : store id = []) : s.pour store source next id = [] := by
      simp only [pour, Function.update_apply, hsource, hnext, hid]
      split
      · split <;> rfl
      · split <;> rfl
    exact ih (hnothing hnext) fun m hm => hnothing (hrest m hm)

/-- What reaches the thresholds of some handles. -/
def reaching (s : System) (handles : List Logger) (held : List Held) : List Held :=
  held.filter fun told => handles.all fun m => (s.threshold m).rank ≤ told.level.rank

/-- What comes through handles: what reaches all thresholds, with the base fields of the later
handles first. -/
theorem through_eq (handles : List Logger) (held : List Held) :
    s.through handles held = (s.reaching handles held).map
      (·.behind (handles.reverse.flatMap (·.keys)) (handles.reverse.flatMap (·.vals))) := by
  induction handles generalizing held with
  | nil =>
    have hall : s.reaching [] held = held := List.filter_eq_self.mpr fun _ _ => rfl
    rw [hall]
    exact (List.map_id held).symm
  | cons next rest ih =>
    have hstep : s.through (next :: rest) held =
        s.through rest (passed (s.threshold next) next.keys next.vals held) := rfl
    -- base fields do not change a level, so thresholds can all be looked at first
    rw [hstep, ih, passed, reaching, reaching, List.filter_map, List.filter_filter, List.map_map,
      List.reverse_cons, List.flatMap_append, List.flatMap_append]
    simp only [Function.comp_def, Held.behind, List.all_cons, List.flatMap_cons, List.flatMap_nil,
      List.append_nil, List.append_assoc, Bool.and_comm]

/-- A backend that holds back. -/
def IsEarly (s : System) (id : Nat) : Prop := ∃ records, s.backend id = .init records

/-- What all backends that hold back hold back. -/
def Stores (s : System) (store : Nat → List Held) : Prop :=
  ∀ id records, s.backend id = .init records → List.Forall₂ Record.Tells records (store id)

theorem Stores.holdsBack {store : Nat → List Held} (h : s.Stores store) {id : Nat}
    (hid : s.IsEarly id) : s.HoldsBack id (store id) := by
  obtain ⟨records, hrecords⟩ := hid
  exact ⟨records, hrecords, h id records hrecords⟩

/-- Between two states, backends that hold back have been handed records and nothing else has
happened. -/
structure Relays (s s' : System) : Prop where
  early : ∀ id, s.IsEarly id → s'.IsEarly id
  others : ∀ id, ¬ s.IsEarly id → s'.backend id = s.backend id
  host : s'.host = s.host
  thresholds : ∃ more, s'.thresholds = s.thresholds ++ more

theorem Relays.threshold {s' : System} (h : s.Relays s') {l : Logger}
    (hl : l.family < s.thresholds.length) : s'.threshold l = s.threshold l := by
  obtain ⟨more, hmore⟩ := h.thresholds
  exact threshold_of_more hmore hl

theorem Relays.family {s' : System} (h : s.Relays s') {l : Logger}
    (hl : l.family < s.thresholds.length) : l.family < s'.thresholds.length := by
  obtain ⟨more, hmore⟩ := h.thresholds
  rw [hmore, List.length_append]
  exact Nat.lt_add_right _ hl

/-- One handoff of a chain. -/
theorem handoff_relays {store : Nat → List Held} (h : s.Stores store) {source : Nat}
    {next : Logger} (hsource : s.IsEarly source) (hnext : s.IsEarly next.backend) :
    s.Relays (s.handoff source next) ∧
      (s.handoff source next).Stores (s.pour store source next) := by
  obtain ⟨⟨records, hrecords, hall⟩, hempty, hothers, hhost, hmore⟩ :=
    handoff_held (h.holdsBack hsource) (h.holdsBack hnext)
  refine ⟨⟨fun id hid => ?_, fun id hid => ?_, hhost, hmore⟩, fun id kept hkept => ?_⟩
  · by_cases hidNext : id = next.backend
    · exact ⟨records, hidNext ▸ hrecords⟩
    by_cases hidSource : id = source
    · obtain ⟨none, hnone, -⟩ := hempty fun hsame => hidNext (hidSource.trans hsame.symm)
      exact ⟨none, hidSource ▸ hnone⟩
    · obtain ⟨own, hown⟩ := hid
      exact ⟨own, (hothers id hidSource hidNext).trans hown⟩
  · exact hothers id (fun hsame => hid (hsame ▸ hsource)) fun hsame => hid (hsame ▸ hnext)
  · by_cases hidNext : id = next.backend
    · subst hidNext
      obtain rfl : records = kept := Backend.init.inj (hrecords.symm.trans hkept)
      rw [pour_next]
      exact hall
    by_cases hidSource : id = source
    · subst hidSource
      obtain ⟨none, hnone, htells⟩ := hempty fun hsame => hidNext hsame.symm
      obtain rfl : none = kept := Backend.init.inj (hnone.symm.trans hkept)
      rw [pour_source (Ne.symm hidNext)]
      exact htells
    · rw [pour_other hidSource hidNext]
      exact h id kept ((hothers id hidSource hidNext).symm.trans hkept)

theorem pour_congr {s' : System} {next : Logger} (h : s'.threshold next = s.threshold next)
    (store : Nat → List Held) (source : Nat) :
    s'.pour store source next = s.pour store source next := by
  rw [pour, pour, h]

theorem arrived_congr {s' : System} {handles : List Logger}
    (h : ∀ m ∈ handles, s'.threshold m = s.threshold m) (store : Nat → List Held) (source : Nat) :
    s'.arrived store source handles = s.arrived store source handles := by
  induction handles generalizing store source with
  | nil => rfl
  | cons next rest ih =>
    obtain ⟨hnext, hrest⟩ := List.forall_mem_cons.mp h
    rw [arrived, arrived, pour_congr hnext]
    exact ih hrest _ _

theorem IsOrderly.stores (h : s.IsOrderly) : ∃ store, s.Stores store := by
  choose store hstore using fun id => (h id).tells
  refine ⟨store, fun id records hrecords => ?_⟩
  have htells := hstore id
  rw [hrecords] at htells
  exact htells

theorem Stores.update {store : Nat → List Held} (h : s.Stores store) {source : Nat}
    {records : List Record} {held : List Held} (hlt : source < s.backends.length)
    (hall : List.Forall₂ Record.Tells records held) :
    (s.setBackend source (.init records)).Stores (Function.update store source held) := by
  intro id kept hkept
  by_cases hid : id = source
  · subst hid
    rw [setBackend_at hlt] at hkept
    obtain rfl : records = kept := Backend.init.inj hkept
    rw [Function.update_self]
    exact hall
  · rw [setBackend_apart hid] at hkept
    rw [Function.update_of_ne hid]
    exact h id kept hkept

theorem IsEarly.setBackend {source : Nat} {records : List Record} {id : Nat} (h : s.IsEarly id) :
    (s.setBackend source (.init records)).IsEarly id := by
  obtain hsame | ⟨-, hnew⟩ := s.setBackend_cases source (.init records) id
  · rw [IsEarly, hsame]
    exact h
  · exact ⟨records, hnew⟩

end System

/-! ## 2. Chains to a backend that writes -/

theorem Held.line_behind (told : Held) (format : TimeFormat) (keys later : List String)
    (vals laterVals : List Value) :
    (told.behind keys vals).line format later laterVals =
      told.line format (later ++ keys) (laterVals ++ vals) := by
  rw [line, line, fields, fields, behind]
  dsimp only
  rw [← List.append_assoc later, ← List.append_assoc laterVals]

namespace JsonBackend

variable (b : JsonBackend)

/-- Base fields may be put before the fields of the calls or come with the handle. -/
theorem receive_behind (threshold : Level) (keys later : List String) (vals laterVals : List Value)
    (held : List Held) (host : Host) :
    b.receive threshold later laterVals (held.map (·.behind keys vals)) host =
      b.receive threshold (later ++ keys) (laterVals ++ vals) held host := by
  have hone (b : JsonBackend) (told : Held) (host : Host) :
      b.offer threshold later laterVals (told.behind keys vals) host =
        b.offer threshold (later ++ keys) (laterVals ++ vals) told host := by
    rw [offer, offer, Held.line_behind]
    rfl
  have hall (b : JsonBackend) (host : Host) :
      offerAll threshold later laterVals (held.map (·.behind keys vals)) b host =
        offerAll threshold (later ++ keys) (laterVals ++ vals) held b host := by
    induction held generalizing b host with
    | nil => rfl
    | cons told rest ih =>
      rw [List.map_cons, offerAll, offerAll, hone]
      exact ih _ _
  rw [receive, receive, hall, List.isEmpty_map]

end JsonBackend

namespace System

variable {s : System} {id : Nat} {b : JsonBackend} {host : Host}

/-- A chain of handoffs that ends in a backend that writes. -/
theorem Shows.handOn {store : Nat → List Held} (hstore : s.Stores store) {source : Nat}
    {handles : List Logger} {last : Logger} (hsource : s.IsEarly source)
    (hhandles : ∀ m ∈ handles, m.family < s.thresholds.length ∧ s.IsEarly m.backend)
    (hlast : last.family < s.thresholds.length) (h : s.Shows last.backend b host) :
    (s.handOn source (handles ++ [last])).Shows last.backend
      (b.receive (s.threshold last) last.keys last.vals (s.arrived store source handles) host).1
      (b.receive (s.threshold last) last.keys last.vals (s.arrived store source handles)
        host).2 := by
  induction handles generalizing s store source with
  | nil =>
    obtain ⟨records, hrecords⟩ := hsource
    exact h.handoff hrecords (hstore source records hrecords)
  | cons next rest ih =>
    obtain ⟨⟨hfamily, hnext⟩, hrest⟩ := List.forall_mem_cons.mp hhandles
    obtain ⟨hrelays, hstores⟩ := handoff_relays hstore hsource hnext
    have hready : (s.handoff source next).Shows last.backend b host := by
      obtain ⟨hhost, pool, threshold, caller, hb, hfresh⟩ := h
      have hother : ¬ s.IsEarly last.backend := by
        rintro ⟨records, hrecords⟩
        rw [hb] at hrecords
        cases hrecords
      exact ⟨hrelays.host.trans hhost, pool, threshold, caller,
        (hrelays.others _ hother).trans hb, hfresh⟩
    have hchain := ih hstores (hrelays.early _ hnext)
      (fun m hm => ⟨hrelays.family (hrest m hm).1, hrelays.early _ (hrest m hm).2⟩)
      (hrelays.family hlast) hready
    -- the handles of the system keep their thresholds along the chain
    have hthreshold : ∀ m ∈ rest, (s.handoff source next).threshold m = s.threshold m :=
      fun m hm => hrelays.threshold (hrest m hm).1
    rw [arrived_congr hthreshold, hrelays.threshold hlast] at hchain
    exact hchain

end System

/-! ## 3. Chains and single handoffs -/

/-- Two states with the same host and, at a number, backends that differ in nothing but what is in
their pools. -/
def System.SameAt (id : Nat) (s s' : System) : Prop :=
  s'.host = s.host ∧
    ∃ b pool, s.backend id = .json b ∧ s'.backend id = .json { b with pool := pool }

theorem System.Shows.sameAt {s s' : System} {id : Nat} {b : JsonBackend} {host : Host}
    (h : s.Shows id b host) (h' : s'.Shows id b host) : System.SameAt id s s' := by
  obtain ⟨hhost, pool, -, -, hb, -⟩ := h
  obtain ⟨hhost', pool', -, -, hb', -⟩ := h'
  exact ⟨hhost'.trans hhost.symm, _, pool', hb, hb'⟩

/-- A handle with the base fields of others before, those of the later ones first. -/
def Logger.joined (last : Logger) (handles : List Logger) : Logger :=
  { last with
    keys := (handles ++ [last]).reverse.flatMap (·.keys)
    vals := (handles ++ [last]).reverse.flatMap (·.vals) }

theorem Logger.joined_keys (last : Logger) (handles : List Logger) :
    (last.joined handles).keys = last.keys ++ handles.reverse.flatMap (·.keys) := by
  rw [joined, List.reverse_append]
  rfl

theorem Logger.joined_vals (last : Logger) (handles : List Logger) :
    (last.joined handles).vals = last.vals ++ handles.reverse.flatMap (·.vals) := by
  rw [joined, List.reverse_append]
  rfl

namespace System

variable {s : System}

/-- A chain does what a single handoff does of everything that arrives in the end. What the first
backend held back arrives last. -/
theorem handOn_composes (horderly : s.IsOrderly) {source : Nat} {held : List Held}
    (hsource : s.HoldsBack source held) {handles : List Logger} {last : Logger} {b : JsonBackend}
    (hhandles : ∀ m ∈ handles, m.family < s.thresholds.length ∧ s.IsEarly m.backend)
    (hlast : last.family < s.thresholds.length) (hb : s.backend last.backend = .json b) :
    ∃ before : List Held,
      ((∀ m ∈ handles, m.backend ≠ source → s.backend m.backend = .init []) → before = []) ∧
      (∀ kept, List.Forall₂ Record.Tells kept before →
        SameAt last.backend ((s.setBackend source (.init kept)).handoff source last)
          ((s.setBackend source (.init [])).handOn source (handles ++ [last]))) ∧
      (∀ kept, List.Forall₂ Record.Tells kept (before ++ s.through handles held) →
        SameAt last.backend ((s.setBackend source (.init kept)).handoff source last)
          (s.handOn source (handles ++ [last]))) ∧
      (before = [] → ∀ kept, List.Forall₂ Record.Tells kept (s.reaching handles held) →
        SameAt last.backend
          ((s.setBackend source (.init kept)).handoff source (last.joined handles))
          (s.handOn source (handles ++ [last]))) := by
  obtain ⟨store, hstore⟩ := horderly.stores
  obtain ⟨records, hrecords, hall⟩ := hsource
  have hlt : source < s.backends.length := lt_length_of_backend hrecords (by simp)
  have hshows := horderly.shows hb
  have hready (kept : List Record) :
      (s.setBackend source (.init kept)).Shows last.backend b s.host := hshows.hold hrecords kept
  have hstored : s.Stores (Function.update store source ([] ++ held)) := by
    have hupdated := hstore.update hlt hall
    rwa [setBackend_self hrecords] at hupdated
  have hchain := Shows.handOn hstored ⟨records, hrecords⟩ hhandles hlast hshows
  have hchain₀ := Shows.handOn (hstore.update hlt .nil) ⟨[], setBackend_at hlt _⟩
    (fun m hm => ⟨(hhandles m hm).1, (hhandles m hm).2.setBackend⟩) hlast (hready [])
  have hthere : (s.setBackend source (.init [])).arrived (Function.update store source []) source
      handles = s.arrived (Function.update store source []) source handles := by
    refine arrived_congr (fun m _ => ?_) _ _
    rfl
  rw [hthere] at hchain₀
  rw [arrived_append] at hchain
  generalize hbefore : s.arrived (Function.update store source []) source handles = before
    at hchain hchain₀
  have hsingle {kept : List Record} {told : List Held} (next : Logger)
      (hnext : next.backend = last.backend) (hkept : List.Forall₂ Record.Tells kept told) :
      ((s.setBackend source (.init kept)).handoff source next).Shows last.backend
        (b.receive (s.threshold next) next.keys next.vals told s.host).1
        (b.receive (s.threshold next) next.keys next.vals told s.host).2 := by
    have hstart := hready kept
    rw [← hnext] at hstart ⊢
    exact hstart.handoff (setBackend_at hlt _) hkept
  refine ⟨before, fun hempty => ?_, fun kept hkept => (hsingle last rfl hkept).sameAt hchain₀,
    fun kept hkept => (hsingle last rfl hkept).sameAt hchain, ?_⟩
  · rw [← hbefore]
    refine arrived_nil (Function.update_self ..) fun m hm => ?_
    by_cases hm' : m.backend = source
    · rw [hm', Function.update_self]
    · have htells := hstore m.backend [] (hempty m hm hm')
      rw [Function.update_of_ne hm']
      exact List.forall₂_nil_left_iff.mp htells
  · rintro rfl kept hkept
    rw [List.nil_append, through_eq, b.receive_behind] at hchain
    have hjoined := hsingle (last.joined handles) rfl hkept
    rw [Logger.joined_keys, Logger.joined_vals] at hjoined
    exact hjoined.sameAt hchain

end System

/-- From any state that can be reached:

1. A handoff to a handle on a backend that holds back moves there what reaches the threshold of the
   handle, in order and behind what is there, with the base fields of the handle put before its own,
   and does nothing else.
2. A chain of such handoffs and a last one to a backend that writes does there, whatever the sink
   is, what a single handoff does of what reaches all thresholds on the way, with the base fields of
   the later handles first. This comes behind `before`, which is what arrives of other backends on
   the way.
3. A handoff to a plain handle on the same backend changes nothing of what is held back. -/
theorem handoffs_compose {s : System} (run : s.Reached) {source : Nat} {held : List Held}
    (hsource : s.HoldsBack source held) :
    (∀ next own, s.HoldsBack next.backend own →
      (s.handoff source next).HoldsBack next.backend ((if next.backend = source then [] else own) ++
        passed (s.threshold next) next.keys next.vals held) ∧
      (next.backend ≠ source → (s.handoff source next).HoldsBack source []) ∧
      (∀ id, id ≠ source → id ≠ next.backend → (s.handoff source next).backend id = s.backend id) ∧
      (s.handoff source next).host = s.host) ∧
    (∀ handles last b,
      (∀ m ∈ handles, m.family < s.thresholds.length ∧ s.IsEarly m.backend) →
      last.family < s.thresholds.length → s.backend last.backend = .json b →
      ∃ before : List Held,
        ((∀ m ∈ handles, m.backend ≠ source → s.backend m.backend = .init []) → before = []) ∧
        (∀ kept, List.Forall₂ Record.Tells kept before →
          System.SameAt last.backend ((s.setBackend source (.init kept)).handoff source last)
            ((s.setBackend source (.init [])).handOn source (handles ++ [last]))) ∧
        (∀ kept, List.Forall₂ Record.Tells kept (before ++ s.through handles held) →
          System.SameAt last.backend ((s.setBackend source (.init kept)).handoff source last)
            (s.handOn source (handles ++ [last]))) ∧
        (before = [] → ∀ kept, List.Forall₂ Record.Tells kept (s.reaching handles held) →
          System.SameAt last.backend
            ((s.setBackend source (.init kept)).handoff source (last.joined handles))
            (s.handOn source (handles ++ [last])))) ∧
    (∀ next, next.backend = source → next.keys = [] → next.vals = [] → s.threshold next = .debug →
      (s.handoff source next).HoldsBack source held) ∧
    ((s.newLogger source).2.handoff source (s.newLogger source).1).HoldsBack source held := by
  refine ⟨fun next own hnext => ?_, fun handles last b hhandles hlast hb => ?_,
    fun next => System.handoff_plain hsource, System.handoff_newLogger hsource⟩
  · obtain ⟨hback, hempty, hothers, hhost, -⟩ := System.handoff_held hsource hnext
    exact ⟨hback, hempty, hothers, hhost⟩
  · exact System.handOn_composes run.orderly hsource hhandles hlast hb

/-- What was told by a quiet call, and by one whose keys and values do not match. -/
def quietCall : Held := ⟨.debug, "tick", (Time.Zone.fixed 0).stamp ⟨0, 0⟩, [], []⟩

def unevenCall : Held :=
  ⟨.warning, "slow", (Time.Zone.fixed 0).stamp ⟨60, 0⟩, ["time", "depth"], [.int 7]⟩

/-- A record of what was told. -/
def Held.record (told : Held) : Record :=
  { Record.blank with
    level := told.level
    message := told.message
    keys := told.keys
    vals := told.vals
    time? := some told.time }

/-- The backend 0 holds back two calls and the backend 1 none; the backend 2 writes. -/
def relaying : System :=
  let s := (((System.start (.start "/" (.fixed 0) ⟨0, 0⟩)).addBackend (.init [])).2.addBackend
    (.init [])).2
  let s := (s.addBackend (.json (.new (.memory "out") .debug .none .unix 0))).2
  let s := ((s.newLogger 1).2.newLogger 2).2.setThreshold ⟨1, 0, ⟨0, .none⟩, [], []⟩ .info
  (s.finalize 0 [] quietCall.record).finalize 0 [] unevenCall.record

/-- Handles on the backends 1 and 2, each with a base field, the first one with the threshold
`info`. -/
def viaLogger : Logger := ⟨1, 0, ⟨0, .none⟩, ["via"], []⟩

def lastLogger : Logger := ⟨2, 1, ⟨0, .none⟩, ["svc"], [.int 1]⟩

/-- The chain does what a handoff of the second call does, to a handle with both keys. -/
theorem handoffs_compose_relaying :
    relaying.Reached ∧ relaying.HoldsBack 0 [quietCall, unevenCall] ∧
      (relaying.handoff 0 viaLogger).HoldsBack 1 [unevenCall.behind ["via"] []] ∧
      (relaying.handoff 0 ⟨0, 1, ⟨0, .none⟩, [], []⟩).HoldsBack 0 [quietCall, unevenCall] ∧
      System.SameAt 2
        ((relaying.setBackend 0 (.init [unevenCall.record])).handoff 0
          ⟨2, 1, ⟨0, .none⟩, ["svc", "via"], [.int 1]⟩)
        (relaying.handOn 0 [viaLogger, lastLogger]) := by
  have run : relaying.Reached :=
    (((((((System.Reached.start _).step (.connect .init)).step (.connect .init)).step
      (.connect (.json (.memory "out") .debug .none .unix 0))).step (.newLogger 1)).step
        (.newLogger 2)).step (.setThreshold ⟨1, 0, ⟨0, .none⟩, [], []⟩ .info)).step
          (.finalize 0 [] quietCall.record) |>.step (.finalize 0 [] unevenCall.record)
  have hsource : relaying.HoldsBack 0 [quietCall, unevenCall] :=
    ⟨[quietCall.record, unevenCall.record], rfl, .cons ⟨rfl, rfl, rfl, rfl, rfl, rfl⟩
      (.cons ⟨rfl, rfl, rfl, rfl, rfl, rfl⟩ .nil)⟩
  obtain ⟨hone, hchain, hself, -⟩ := handoffs_compose run hsource
  have hhandles : ∀ m ∈ [viaLogger],
      m.family < relaying.thresholds.length ∧ relaying.IsEarly m.backend := by
    intro m hm
    rw [List.mem_singleton.mp hm]
    exact ⟨by decide, [], rfl⟩
  obtain ⟨before, hbefore, -, -, hsame⟩ := hchain [viaLogger] lastLogger _ hhandles (by decide) rfl
  have hempty : ∀ m ∈ [viaLogger], m.backend ≠ 0 → relaying.backend m.backend = .init [] := by
    intro m hm _
    rw [List.mem_singleton.mp hm]
    rfl
  have hreaching : relaying.reaching [viaLogger] [quietCall, unevenCall] = [unevenCall] := rfl
  refine ⟨run, hsource, (hone viaLogger [] ⟨[], rfl, .nil⟩).1,
    hself ⟨0, 1, ⟨0, .none⟩, [], []⟩ rfl rfl rfl rfl, hsame (hbefore hempty) [unevenCall.record] ?_⟩
  rw [hreaching]
  exact .cons ⟨rfl, rfl, rfl, rfl, rfl, rfl⟩ .nil

end Logbook
