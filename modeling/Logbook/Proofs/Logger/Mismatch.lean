import Logbook.Proofs.Logger.Reached
import Logbook.Proofs.Logger.Tally

/-!
# Fields that do not match

Keys and values may be given to a call in lists that do not match, and a member of the line is meant
to tell of it. The two lists are compared once, when the call is emitted, with all that its handles
have given to it before. So what is told of is a difference between all keys and all values, and not
one between the lists of a single addition.

Results:
1. `Entry.Carries.fields`: a call holds the keys and the values of everything that was added to it
   and to the handles it comes from, in that order.
2. `Entry.line_eq`: the members of its line.
3. `commit_handsOver`: the line goes to the sink as it is.
4. `mismatch_told_iff`: when the line of a call tells of a mismatch.
5. `even_total_hides_mismatch`: two uneven additions of which the line tells nothing.
-/

namespace Logbook

open Journal (Addition)

/-! ## 1. What was added to a call -/

/-- Whether as many keys as values were added in total. -/
def Journal.Addition.Balanced (added : List Addition) : Prop :=
  (added.flatMap (·.keys)).length = (added.flatMap (·.vals)).length

instance (added : List Addition) : Decidable (Journal.Addition.Balanced added) :=
  inferInstanceAs (Decidable (_ = _))

/-- What was added to a call one after the other, first of all to the handles that it comes from.
Anything may have happened on the system in between. A handle that was copied is the same handle. -/
inductive Entry.Carries : Entry → List Addition → Prop
  | ofNew {s s' : System} (id : Nat) : s'.Reached → Carries (s'.entry (s.newLogger id).1).1 []
  | ofMade {s s' : System} {e : Entry} {added : List Addition} : Carries e added → s'.Reached →
      Carries (s'.entry (s.intoLogger e).1).1 added
  | withField {e : Entry} {added : List Addition} (key : String) (value : Value) :
      Carries e added → Carries (e.withField key value) (added ++ [.one key value])
  | withFields {e : Entry} {added : List Addition} (keys : List String) (vals : List Value) :
      Carries e added → Carries (e.withFields keys vals) (added ++ [.many keys vals])

/-- A call starts with the fields of its handle. -/
theorem System.entry_fields {s : System} (h : s.IsOrderly) (l : Logger) :
    (s.entry l).1.record.keys = l.keys ∧ (s.entry l).1.record.vals = l.vals := by
  obtain ⟨threshold, caller, hfresh⟩ := (h l.backend).handsOut
  rw [System.entry_eq hfresh]
  exact ⟨rfl, rfl⟩

theorem Entry.withField_fields (e : Entry) (key : String) (value : Value) :
    (e.withField key value).record.keys = e.record.keys ++ (Addition.one key value).keys ∧
      (e.withField key value).record.vals = e.record.vals ++ (Addition.one key value).vals := by
  unfold Entry.withField Attachment.of Addition.keys Addition.vals Journal.isControl
  cases value with
  | time t => by_cases hk : key = "time" <;> simp [hk, attach]
  | int n => by_cases hk : key = "depth" <;> simp [hk, attach]
  | uint n => by_cases hk : key = "depth" <;> simp [hk, attach]
  | text s => by_cases hk : key = "depth" <;> simp [hk, attach]
  | bool b =>
    cases b with
    | false => simp [attach]
    | true => by_cases hk : key = "logger" <;> simp [hk, attach]
  | _ => simp [attach]

/-- A call holds the keys and the values of everything that was added to it. -/
theorem Entry.Carries.fields {e : Entry} {added : List Addition} (h : e.Carries added) :
    e.record.keys = added.flatMap (·.keys) ∧ e.record.vals = added.flatMap (·.vals) := by
  induction h with
  | ofNew id run => exact System.entry_fields run.orderly _
  | ofMade _ run ih =>
    obtain ⟨hkeys, hvals⟩ := System.entry_fields run.orderly _
    exact ⟨hkeys.trans ih.1, hvals.trans ih.2⟩
  | withField key value _ ih =>
    obtain ⟨hkeys, hvals⟩ := Entry.withField_fields _ key value
    rw [hkeys, hvals, ih.1, ih.2, List.flatMap_append, List.flatMap_append]
    simp
  | withFields keys vals _ ih =>
    rw [List.flatMap_append, List.flatMap_append, ← ih.1, ← ih.2]
    simp [Entry.withFields, Addition.keys, Addition.vals]

/-! ## 2. The members of a line -/

namespace Entry

/-- The member that tells of a mismatch. -/
def mismatch : String × Value := (Record.mismatchKey, .text Record.mismatchMessage)

/-- The members that tell where a call was emitted. -/
def captured (e : Entry) (site : CallSite) : List (String × Value) :=
  match e.record.caller.mode with
  | .location =>
    locationFields site.stack site.location? site.module? e.record.caller.skip.toNat
  | .stack => [stackField site.stack e.record.caller.skip.toNat]
  | .none | .disabled => []

/-- The members of the line of a call between its level and its message: keys and values in pairs as
far as both go, the one that tells of a mismatch, and those that tell of the place. -/
def members (e : Entry) (site : CallSite) : List (String × Value) :=
  e.record.keys.zip e.record.vals ++
    (if e.record.keys.length = e.record.vals.length then [] else [mismatch]) ++ e.captured site

theorem emitted_capture (e : Entry) (level : Level) (message : String) (site : CallSite) :
    (e.emitted level message site).balance.capture site.stack =
      (e.emitted level message site).balance.addFields (e.captured site) := by
  rw [balance_eq, Record.capture, captured]
  cases hmode : e.record.caller.mode with
  | location => simp only [emitted, hmode]
  | stack => simp only [emitted, hmode]
  | none => simp [emitted, hmode, Record.addFields]
  | disabled => simp [emitted, hmode, Record.addFields]

/-- The line of a call, by its members. -/
theorem line_eq (e : Entry) (format : TimeFormat) (now : Time.Stamp) (level : Level)
    (message : String) (site : CallSite) :
    e.line format now level message site =
      Line.ofParts (format.render (e.record.time?.getD now)) level ((e.members site).map (·.1))
        ((e.members site).map (·.2)) message := by
  obtain ⟨hlen, hzip⟩ := balance_zip (e.emitted level message site)
  have hmembers := addFields_zip (e.captured site) hlen
  rw [hzip] at hmembers
  have hfields : ((e.members site).map (·.1)).zip ((e.members site).map (·.2)) = e.members site :=
    (List.zip_of_prod rfl rfl).symm
  have hlevel : ((e.emitted level message site).balance.addFields (e.captured site)).level =
      level := by
    rw [Record.addFields, balance_eq]
    rfl
  have hmessage : ((e.emitted level message site).balance.addFields (e.captured site)).message =
      message := by
    rw [Record.addFields, balance_eq]
    rfl
  rw [line, emitted_capture, Record.line, Line.ofParts, Line.ofParts, Line.fields, Line.fields,
    hmembers, hfields, hlevel, hmessage]
  rfl

end Entry

/-! ## 3. Lines that go to the sink -/

/-- A line has been given to the sink of a backend as it is. Nothing else of the system has changed
but whether the clock has failed, what the backend has counted and reported, and its pool. -/
def System.HandsOver (s : System) (id : Nat) (line : Bytes) (s' : System) : Prop :=
  ∃ b failed r, s.backend id = .json b ∧
    s' = { s with host := (b.writeLine line { s.host with clockFailed := failed }).2 }.setBackend id
      (.json ((b.writeLine line { s.host with clockFailed := failed }).1.release r))

/-- A call of which something is shown gives its line to the sink. -/
theorem commit_handsOver {s : System} {e : Entry} {b : JsonBackend}
    (hb : s.backend e.backend = .json b) {level : Level} {message : String}
    (hshown : e.isShown level message = true) (site : CallSite) :
    s.HandsOver e.backend (e.line b.format s.host.localNow level message site)
      (s.commit e level message site) := by
  obtain ⟨hcommitted, hsome⟩ := Entry.committed_of_isShown hshown site
  obtain ⟨failed, hfinal⟩ := JsonBackend.finalize_eq (b := b) hsome site.stack s.host
  refine ⟨b, failed, b.complete site.stack
    ((e.emitted level message site).time?.getD s.host.localNow) (e.emitted level message site),
    hb, ?_⟩
  rw [System.commit, System.finalize, hb, Backend.finalize, hcommitted, hfinal]
  rfl

/-! ## 4. When a mismatch is told of -/

/-- A call is shown if its level is high enough, and it has a message or something was added to it
that is a field. -/
theorem Entry.Carries.isShown_iff {e : Entry} {added : List Addition} (h : e.Carries added)
    {level : Level} {message : String} :
    e.isShown level message = true ↔ e.record.threshold.rank ≤ level.rank ∧
      (message ≠ "" ∨ ∃ a ∈ added, a.keys ≠ [] ∨ a.vals ≠ []) := by
  obtain ⟨hkeys, hvals⟩ := h.fields
  have hfields : (e.record.keys.isEmpty && e.record.vals.isEmpty) = true ↔
      ∀ a ∈ added, a.keys = [] ∧ a.vals = [] := by
    rw [Bool.and_eq_true, List.isEmpty_iff, List.isEmpty_iff, hkeys, hvals,
      List.flatMap_eq_nil_iff, List.flatMap_eq_nil_iff, ← forall₂_and]
  have hnothing : (message.isEmpty && e.record.keys.isEmpty && e.record.vals.isEmpty) = true ↔
      ¬(message ≠ "" ∨ ∃ a ∈ added, a.keys ≠ [] ∨ a.vals ≠ []) := by
    rw [Bool.and_assoc, Bool.and_eq_true, hfields, String.isEmpty_iff]
    simp only [not_or, not_exists, not_and, ne_eq, not_not]
  rw [Entry.isShown, Bool.and_eq_true, decide_eq_true_eq, Bool.not_eq_true', ← Bool.not_eq_true,
    hnothing, not_not]

/-- A call to which something uneven was added is shown at every level that is enabled. -/
theorem Entry.Carries.isShown {e : Entry} {added : List Addition} (h : e.Carries added)
    {level : Level} (hlevel : level.passes e.record.threshold = true)
    (huneven : ∃ a ∈ added, a.keys.length ≠ a.vals.length) (message : String) :
    e.isShown level message = true := by
  obtain ⟨a, hmem, hne⟩ := huneven
  have hsome : a.keys ≠ [] ∨ a.vals ≠ [] := by
    by_contra hnone
    obtain ⟨hkeys, hvals⟩ := not_or.mp hnone
    exact hne (by rw [not_not.mp hkeys, not_not.mp hvals]; rfl)
  exact h.isShown_iff.mpr ⟨Level.passes_iff.mp hlevel, .inr ⟨a, hmem, hsome⟩⟩

/-- What tells of the place does not tell of a mismatch. -/
theorem Entry.mismatch_notMem_captured (e : Entry) (site : CallSite) :
    Entry.mismatch ∉ e.captured site := by
  intro hmem
  have hkey : Record.mismatchKey ∈ (e.captured site).map (·.1) := List.mem_map_of_mem hmem
  rw [Entry.captured] at hkey
  cases hmode : e.record.caller.mode <;> rw [hmode] at hkey
  all_goals revert hkey; simp [locationFields, stackField, Record.mismatchKey]

/-- An enabled call on a backend that writes gives its line to the sink, whatever was added to it.
If something uneven was, the line tells of a mismatch if and only if there are not as many keys as
values in total, or the member that tells of one was given to the call as a field. -/
theorem mismatch_told_iff {s : System} {e : Entry} {added : List Addition} {b : JsonBackend}
    (hcarries : e.Carries added) (hb : s.backend e.backend = .json b) (level : Level)
    (message : String) (site : CallSite) (hlevel : level.passes e.record.threshold = true)
    (huneven : ∃ a ∈ added, a.keys.length ≠ a.vals.length) :
    s.HandsOver e.backend (Line.ofParts (b.format.render (e.record.time?.getD s.host.localNow))
        level ((e.members site).map (·.1)) ((e.members site).map (·.2)) message)
      (s.commit e level message site) ∧
    (Entry.mismatch ∈ e.members site ↔
      ¬Addition.Balanced added ∨
        Entry.mismatch ∈ (added.flatMap (·.keys)).zip (added.flatMap (·.vals))) := by
  obtain ⟨hkeys, hvals⟩ := hcarries.fields
  have hhands := commit_handsOver hb (hcarries.isShown hlevel huneven message) site
  rw [e.line_eq] at hhands
  refine ⟨hhands, ?_⟩
  have hplace := e.mismatch_notMem_captured site
  rw [Entry.members, List.mem_append, List.mem_append, Addition.Balanced, ← hkeys, ← hvals]
  split
  next heven => simp [heven, hplace]
  next hodd => simp [hodd]

/-- A system with a backend that writes to memory. -/
def unhandled : System :=
  ((System.start (.start "/" (.fixed 0) ⟨0, 0⟩)).addBackend
    (.json (.new (.memory "out") .debug .none .unix 0))).2

/-- The system with a handle on the backend. -/
def handled : System := (unhandled.newLogger 0).2

theorem handled_reached : handled.Reached :=
  ((System.Reached.start _).step (.connect (.json (.memory "out") .debug .none .unix 0))).step
    (.newLogger 0)

/-- A call on the handle. -/
def handledCall : Entry := (handled.entry (unhandled.newLogger 0).1).1

theorem handledCall_carries : handledCall.Carries [] := .ofNew 0 handled_reached

/-- The call with two keys and one value. -/
def lackingCall : Entry := handledCall.withFields ["a", "b"] [.int 1]

/-- A call on a handle that was made of the one with two keys and one value, with another field. -/
def derivedCall : Entry :=
  let made := handled.intoLogger lackingCall
  (made.2.entry made.1).1.withField "c" .null

/-- The line of the call tells of what its handle was given. -/
theorem mismatch_told_iff_derived :
    derivedCall.Carries [.many ["a", "b"] [.int 1], .one "c" .null] ∧
      Entry.mismatch ∈ derivedCall.members .nowhere := by
  have hcarries : derivedCall.Carries [.many ["a", "b"] [.int 1], .one "c" .null] :=
    ((handledCall_carries.withFields _ _).ofMade
      (handled_reached.step (.intoLogger lackingCall))).withField _ _
  have huneven : ∃ a ∈ [Addition.many ["a", "b"] [.int 1], .one "c" .null],
      a.keys.length ≠ a.vals.length := ⟨_, List.mem_cons_self .., by decide⟩
  have htold := (mismatch_told_iff (s := handled) hcarries rfl .info "m" .nowhere rfl huneven).2
  exact ⟨hcarries, htold.mpr (.inl (by decide))⟩

/-- To a call with two keys and one value, a key and two values are added. Its line has three
members and none that tells of a mismatch. -/
theorem even_total_hides_mismatch :
    let e := lackingCall.withFields ["c"] [.int 2, .int 3]
    let added : List Addition := [.many ["a", "b"] [.int 1], .many ["c"] [.int 2, .int 3]]
    e.Carries added ∧ handled.Reached ∧ Level.info.passes e.record.threshold = true ∧
      (∀ a ∈ added, a.keys.length ≠ a.vals.length) ∧
      (handled.commit e .info "m" .nowhere).host.buffer "out" =
        Utf8.encode ("\x7b\"time\":\"0\",\"level\":\"INFO\",\"a\":1,\"b\":2,\"c\":3," ++
          "\"message\":\"m\"\x7d\n").toList := by
  exact ⟨(handledCall_carries.withFields _ _).withFields _ _, handled_reached, rfl, by decide,
    by decide +kernel⟩

end Logbook
