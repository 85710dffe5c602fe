import Logbook.Proofs.Logger.Tally
import Logbook.Proofs.Logger.Reached

/-!
# Levels of handles

Which level a handle has, and by which level a call is gated, looked up in what has been done: the
deeds on a backend and its handles, the latest first. The system itself keeps no history. It shares
a threshold between the handles of a family, copies it into the record of a call and from there to
the handle that is made of the call, and reads the default off a record that may have been in use
before.

| handle made by | level until it is set             | family               |
|----------------|-----------------------------------|----------------------|
| `new`          | the default of the backend        | its own              |
| `clone`        | that of the original              | that of the original |
| `intoLogger`   | the one the call was started with | its own              |

Records may also be taken from the backend and given back to it by hand, in any state.

Results:
1. `Deeds.level`, `Deeds.startedWith`: levels by the history.
2. `System.IsOver.uses`: what is asked of the backend leaves its default level as it is.
3. `Bench.Follows.perform`: one deed.
4. `levels_follow`: any number of deeds.
-/

namespace Logbook

/-! ## 1. The history -/

/-- What is done with a backend: an action with its handles and the calls started from them, or a
record that is taken from it or given back to it by hand. -/
inductive Deed where
  | action (a : Action)
  | borrow
  | giveBack (r : Record)

namespace Deeds

/-- The handles and calls that there are. -/
structure Roll where
  /-- How many handles have been made. -/
  handles : Nat
  /-- For each call that was started, whether it is still live. -/
  live : List Bool

def Roll.isLive (r : Roll) (call : Nat) : Bool := r.live.getD call false

/-- Takes note of a deed. -/
def Roll.note (r : Roll) : Deed → Roll
  | .action .new => { r with handles := r.handles + 1 }
  | .action (.clone original) =>
    if original < r.handles then { r with handles := r.handles + 1 } else r
  | .action (.start handle) => if handle < r.handles then { r with live := r.live ++ [true] } else r
  | .action (.intoLogger call) =>
    if r.isLive call then ⟨r.handles + 1, r.live.set call false⟩ else r
  | .action (.emit call _ _ _) => { r with live := r.live.set call false }
  | .action (.drop call) => { r with live := r.live.set call false }
  | .action (.clock _) | .action (.setLevel _ _) | .action (.withField _ _ _)
  | .action (.withFields _ _ _) | .borrow | .giveBack _ => r

/-- The handles and calls that there are after some deeds, the latest first. -/
def roll : List Deed → Roll
  | [] => ⟨0, []⟩
  | deed :: past => (roll past).note deed

/-- The first handle of the family of a handle: a clone belongs to the family of its original, and
every other handle founds one. -/
def founder : List Deed → Nat → Nat
  | [], handle => handle
  | .action (.clone original) :: past, handle =>
    if handle = (roll past).handles ∧ original < handle then founder past original
    else founder past handle
  | _ :: past, handle => founder past handle

mutual

/-- The level of a handle: the last one that was set on a handle of its family, and otherwise the
one that it inherited when it was made. -/
def level (default : Level) : List Deed → Nat → Level
  | [], _ => default
  | .action .new :: past, handle =>
    if handle = (roll past).handles then default else level default past handle
  | .action (.clone original) :: past, handle =>
    if handle = (roll past).handles ∧ original < handle then level default past original
    else level default past handle
  | .action (.setLevel member l) :: past, handle =>
    if member < (roll past).handles ∧ founder past member = founder past handle then l
    else level default past handle
  | .action (.intoLogger call) :: past, handle =>
    if handle = (roll past).handles ∧ (roll past).isLive call = true then
      startedWith default past call
    else level default past handle
  | _ :: past, handle => level default past handle

/-- The level that the handle of a call had when the call was started. -/
def startedWith (default : Level) : List Deed → Nat → Level
  | [], _ => default
  | .action (.start handle) :: past, call =>
    if call = (roll past).live.length ∧ handle < (roll past).handles then level default past handle
    else startedWith default past call
  | _ :: past, call => startedWith default past call

end

/-- The founder of a family is not made after its members. -/
theorem founder_le (past : List Deed) (handle : Nat) : founder past handle ≤ handle := by
  induction past generalizing handle with
  | nil => exact Nat.le_refl _
  | cons deed past ih =>
    cases deed with
    | borrow => exact ih handle
    | giveBack r => exact ih handle
    | action a =>
      cases a with
      | clone original =>
        unfold founder
        split
        · next h => exact Nat.le_trans (ih original) (Nat.le_of_lt h.2)
        · exact ih handle
      | _ => exact ih handle

theorem handles_le_note (r : Roll) (deed : Deed) : r.handles ≤ (r.note deed).handles := by
  cases deed with
  | borrow => exact Nat.le_refl _
  | giveBack r => exact Nat.le_refl _
  | action a =>
    cases a with
    | new => exact Nat.le_succ _
    | clone original =>
      rw [Roll.note]
      split
      · exact Nat.le_succ _
      · exact Nat.le_refl _
    | start handle =>
      rw [Roll.note]
      split
      · exact Nat.le_refl _
      · exact Nat.le_refl _
    | intoLogger call =>
      rw [Roll.note]
      split
      · exact Nat.le_succ _
      · exact Nat.le_refl _
    | _ => exact Nat.le_refl _

/-- A handle that has not been made yet would found a family. -/
theorem founder_new {past : List Deed} {handle : Nat} (h : (roll past).handles ≤ handle) :
    founder past handle = handle := by
  induction past with
  | nil => rfl
  | cons deed past ih =>
    have hpast : founder past handle = handle :=
      ih (Nat.le_trans (handles_le_note (roll past) deed) h)
    cases deed with
    | borrow => exact hpast
    | giveBack r => exact hpast
    | action a =>
      cases a with
      | clone original =>
        unfold founder
        split
        · next hmade =>
          -- the clone would have been made by now
          have hcount : (roll (.action (.clone original) :: past)).handles =
              (roll past).handles + 1 := by
            rw [roll, Roll.note, if_pos (hmade.1 ▸ hmade.2)]
          rw [hcount, ← hmade.1] at h
          exact absurd h (Nat.not_succ_le_self handle)
        · exact hpast
      | _ => exact hpast

end Deeds

/-! ## 2. Handles, calls and the backend -/

/-- An element of a list that was made longer by one. -/
theorem getElem?_snoc {α : Type} {l : List α} {new a : α} {i : Nat}
    (h : (l ++ [new])[i]? = some a) : l[i]? = some a ∧ i < l.length ∨ i = l.length ∧ a = new := by
  obtain hlt | heq | hgt := Nat.lt_trichotomy i l.length
  · rw [List.getElem?_append_left hlt] at h
    exact .inl ⟨h, hlt⟩
  · rw [heq, List.getElem?_concat_length] at h
    exact .inr ⟨heq, (Option.some.inj h).symm⟩
  · rw [List.getElem?_eq_none (by rw [List.length_append, List.length_singleton]; omega)] at h
    cases h

/-- Handles on the backend 0, `count` of them, whose thresholds are their levels and which share a
threshold if they have the same founder. -/
structure Handles (thresholds : List Level) (handles : List Logger) (count : Nat)
    (founder : Nat → Nat) (level : Nat → Level) : Prop where
  count_eq : handles.length = count
  sound : ∀ h l, handles[h]? = some l →
    l.backend = 0 ∧ l.family < thresholds.length ∧ thresholds.getD l.family .debug = level h
  family : ∀ g h k l, handles[g]? = some k → handles[h]? = some l →
    (k.family = l.family ↔ founder g = founder h)

namespace Handles

variable {thresholds : List Level} {handles : List Logger} {count : Nat}
  {founder founder' : Nat → Nat} {level level' : Nat → Level}

/-- A handle with a family of its own. -/
theorem found (t : Handles thresholds handles count founder level) {l : Logger}
    (hbackend : l.backend = 0) (hfamily : l.family = thresholds.length)
    (hfounder : ∀ h < count, founder h < count) (hnew : founder count = count)
    (hlevel : ∀ h < count, level' h = level h) :
    Handles (thresholds ++ [level' count]) (handles ++ [l]) (count + 1) founder level' where
  count_eq := by rw [List.length_append, t.count_eq, List.length_singleton]
  sound h k hk := by
    rw [List.length_append, List.length_singleton]
    obtain ⟨hold, hlt⟩ | ⟨rfl, rfl⟩ := getElem?_snoc hk
    · obtain ⟨hb, hf, hvalue⟩ := t.sound h k hold
      refine ⟨hb, Nat.lt_succ_of_lt hf, ?_⟩
      rw [hlevel h (t.count_eq ▸ hlt), ← hvalue, List.getD_eq_getElem?_getD,
        List.getElem?_append_left hf, ← List.getD_eq_getElem?_getD]
    · refine ⟨hbackend, hfamily ▸ Nat.lt_succ_self _, ?_⟩
      rw [hfamily, t.count_eq, List.getD_eq_getElem?_getD, List.getElem?_concat_length,
        Option.getD_some]
  family g h j k hj hk := by
    obtain ⟨hg, hglt⟩ | ⟨rfl, rfl⟩ := getElem?_snoc hj
    · obtain ⟨hh, hhlt⟩ | ⟨rfl, rfl⟩ := getElem?_snoc hk
      · exact t.family g h j k hg hh
      · have hother : founder g < count := hfounder g (t.count_eq ▸ hglt)
        rw [hfamily, t.count_eq, hnew]
        exact iff_of_false (Nat.ne_of_lt (t.sound g j hg).2.1) (Nat.ne_of_lt hother)
    · obtain ⟨hh, hhlt⟩ | ⟨rfl, rfl⟩ := getElem?_snoc hk
      · have hother : founder h < count := hfounder h (t.count_eq ▸ hhlt)
        rw [hfamily, t.count_eq, hnew]
        exact iff_of_false (Nat.ne_of_gt (t.sound h k hh).2.1) (Nat.ne_of_gt hother)
      · exact iff_of_true rfl rfl

/-- Another handle of the same family. -/
theorem clone (t : Handles thresholds handles count founder level) {original : Nat} {l : Logger}
    (horiginal : handles[original]? = some l) (hfounder : ∀ h < count, founder' h = founder h)
    (hfounderNew : founder' count = founder original) (hlevel : ∀ h < count, level' h = level h)
    (hlevelNew : level' count = level original) :
    Handles thresholds (handles ++ [l]) (count + 1) founder' level' := by
  -- the handles as before, the new one read as the original
  have hread {h : Nat} {k : Logger} (hk : (handles ++ [l])[h]? = some k) :
      ∃ g, handles[g]? = some k ∧ founder' h = founder g ∧ level' h = level g := by
    obtain ⟨hold, hlt⟩ | ⟨rfl, rfl⟩ := getElem?_snoc hk
    · rw [t.count_eq] at hlt
      exact ⟨h, hold, hfounder h hlt, hlevel h hlt⟩
    · rw [t.count_eq]
      exact ⟨original, horiginal, hfounderNew, hlevelNew⟩
  refine ⟨by rw [List.length_append, t.count_eq, List.length_singleton], ?_, ?_⟩
  · intro h k hk
    obtain ⟨g, hg, -, hvalue⟩ := hread hk
    rw [hvalue]
    exact t.sound g k hg
  · intro h i j k hj hk
    obtain ⟨g, hg, hfg, -⟩ := hread hj
    obtain ⟨g', hg', hfg', -⟩ := hread hk
    rw [hfg, hfg']
    exact t.family g g' j k hg hg'

/-- The threshold of a family is set. -/
theorem set (t : Handles thresholds handles count founder level) {member : Nat} {l : Logger}
    (hmember : handles[member]? = some l) (new : Level)
    (hlevel : ∀ h, level' h = if founder member = founder h then new else level h) :
    Handles (thresholds.set l.family new) handles count founder level' := by
  refine ⟨t.count_eq, fun h k hk => ?_, t.family⟩
  obtain ⟨hb, hf, hvalue⟩ := t.sound h k hk
  refine ⟨hb, by rwa [List.length_set], ?_⟩
  rw [hlevel, List.getD_eq_getElem?_getD, List.getElem?_set]
  by_cases hsame : l.family = k.family
  · rw [if_pos ((t.family member h l k hmember hk).mp hsame), if_pos hsame,
      if_pos (hsame ▸ hf), Option.getD_some]
  · rw [if_neg fun he => hsame ((t.family member h l k hmember hk).mpr he), if_neg hsame,
      ← List.getD_eq_getElem?_getD]
    exact hvalue

end Handles

/-- Calls to the backend 0, each with the threshold that it was started with while it is live. -/
structure Calls (calls : List (Option Entry)) (live : List Bool) (startedWith : Nat → Level) :
    Prop where
  live_eq : calls.map Option.isSome = live
  sound : ∀ c e, live? calls c = some e → e.backend = 0 ∧ e.record.threshold = startedWith c

theorem live?_set {α : Type} {calls : List (Option α)} {call c : Nat} {o : Option α} {a : α}
    (h : live? (calls.set call o) c = some a) : c = call ∧ o = some a ∨ live? calls c = some a := by
  unfold live? at h ⊢
  rw [List.getElem?_set] at h
  split at h
  · next heq =>
    subst heq
    split at h
    · exact .inl ⟨rfl, h⟩
    · cases h
  · exact .inr h

theorem set_none_of_live? {α : Type} {calls : List (Option α)} {call : Nat}
    (h : live? calls call = none) : calls.set call none = calls := by
  refine List.ext_getElem? fun i => ?_
  rw [List.getElem?_set]
  split
  · next heq =>
    subst heq
    unfold live? at h
    rcases hc : calls[call]? with _ | _ | a
    · rw [if_neg (Nat.not_lt_of_le (List.getElem?_eq_none_iff.mp hc))]
    · rw [if_pos (List.getElem?_eq_some_iff.mp hc).1]
    · rw [hc] at h
      cases h
  · rfl

namespace Calls

variable {calls : List (Option Entry)} {live : List Bool} {startedWith startedWith' : Nat → Level}

theorem start (t : Calls calls live startedWith) {e : Entry} (hbackend : e.backend = 0)
    (hold : ∀ c < live.length, startedWith' c = startedWith c)
    (hnew : e.record.threshold = startedWith' live.length) :
    Calls (calls ++ [some e]) (live ++ [true]) startedWith' := by
  have hlength : calls.length = live.length := by rw [← t.live_eq, List.length_map]
  refine ⟨by rw [List.map_append, t.live_eq]; rfl, fun c e' hc => ?_⟩
  obtain ⟨hc, hlt⟩ | ⟨rfl, he⟩ := getElem?_snoc (Option.join_eq_some_iff.mp hc)
  · rw [hold c (hlength ▸ hlt)]
    exact t.sound c e' (Option.join_eq_some_iff.mpr hc)
  · obtain rfl : e' = e := Option.some.inj he
    rw [hlength]
    exact ⟨hbackend, hnew⟩

/-- A live call is changed, but not its threshold. -/
theorem change (t : Calls calls live startedWith) {call : Nat} {e e' : Entry}
    (he : live? calls call = some e) (hbackend : e'.backend = e.backend)
    (hthreshold : e'.record.threshold = e.record.threshold) :
    Calls (calls.set call (some e')) live startedWith := by
  refine ⟨?_, fun c k hc => ?_⟩
  · have hlive : (calls.map Option.isSome)[call]? = some true := by
      rw [List.getElem?_map, Option.join_eq_some_iff.mp he]
      rfl
    obtain ⟨hlt, htrue⟩ := List.getElem?_eq_some_iff.mp hlive
    rw [List.map_set, ← t.live_eq, Option.isSome_some, ← htrue]
    exact List.set_getElem_self hlt
  · obtain ⟨rfl, hk⟩ | hold := live?_set hc
    · obtain rfl : e' = k := Option.some.inj hk
      rw [hbackend, hthreshold]
      exact t.sound c e he
    · exact t.sound c k hold

/-- A call is used up. -/
theorem use (t : Calls calls live startedWith) (call : Nat) :
    Calls (calls.set call none) (live.set call false) startedWith := by
  refine ⟨by rw [List.map_set, t.live_eq]; rfl, fun c e hc => ?_⟩
  obtain ⟨-, hnone⟩ | hold := live?_set hc
  · cases hnone
  · exact t.sound c e hold

/-- A call is live in the history if it is. -/
theorem isLive_iff (t : Calls calls live startedWith) (call : Nat) :
    live.getD call false = true ↔ ∃ e, live? calls call = some e := by
  rw [List.getD_eq_getElem?_getD, ← t.live_eq, List.getElem?_map, live?]
  rcases calls[call]? with _ | _ | e
  · refine iff_of_false Bool.false_ne_true ?_
    rintro ⟨e, he⟩
    cases he
  · refine iff_of_false Bool.false_ne_true ?_
    rintro ⟨e, he⟩
    cases he
  · exact iff_of_true rfl ⟨e, rfl⟩

end Calls

/-- A system whose backend 0 hands out records with a threshold. -/
structure System.IsOver (default : Level) (s : System) : Prop where
  connected : 0 < s.backends.length
  hands : ∃ caller, (s.backend 0).HandsOut default caller

namespace System.IsOver

variable {default : Level} {s s' : System}

theorem acquire (h : s.IsOver default) : (s.acquire 0).1.threshold = default := by
  obtain ⟨caller, hfresh⟩ := h.hands
  have hrecord : (s.acquire 0).1 = .fresh default caller := hfresh.acquire
  rw [hrecord]
  rfl

/-- Unless it is given up, the backend stays what it is. -/
theorem uses (h : s.IsOver default) (hs : s.Uses (fun _ u => u ≠ .close) s') :
    s'.IsOver default := by
  obtain ⟨caller, hfresh⟩ := h.hands
  exact ⟨hs.length.symm ▸ h.connected, caller,
    hs.backend (fun _ host _ hu hb => hb.use host hu) hfresh⟩

/-- Only the backends matter. -/
theorem of_backends (h : s.IsOver default) (hs : s'.backends = s.backends) :
    s'.IsOver default :=
  ⟨hs ▸ h.connected, backend_congr hs 0 ▸ h.hands⟩

end System.IsOver

/-! ## 3. Single deeds -/

namespace Bench

/-- A system with one backend of any kind and no handle yet. -/
def onBackend (backend : Backend) (host : Host) : Bench where
  system := ((System.start host).addBackend backend).2
  handles := []
  calls := []

def perform (b : Bench) : Deed → Bench
  | .action a => b.act a
  | .borrow => { b with system := (b.system.acquire 0).2 }
  | .giveBack r => { b with system := b.system.release 0 r }

/-- Does deeds one after the other. -/
def performAll (b : Bench) (deeds : List Deed) : Bench := deeds.foldl perform b

end Bench

open Deeds

/-- A system that is as a history has it, the latest deed first. -/
structure Bench.Follows (default : Level) (b : Bench) (past : List Deed) : Prop where
  backend : b.system.IsOver default
  handles : Handles b.system.thresholds b.handles (roll past).handles (founder past)
    (level default past)
  calls : Calls b.calls (roll past).live (startedWith default past)

namespace Bench.Follows

variable {default : Level} {b : Bench} {past : List Deed}

/-- A handle is there on both sides or on neither. -/
theorem handle (h : b.Follows default past) (handle : Nat) :
    b.handles[handle]? = none ∧ ¬ handle < (roll past).handles ∨
      ∃ l, b.handles[handle]? = some l ∧ l.backend = 0 ∧ handle < (roll past).handles := by
  rw [← h.handles.count_eq]
  by_cases hlt : handle < b.handles.length
  · have hl : b.handles[handle]? = some b.handles[handle] := List.getElem?_eq_getElem hlt
    exact .inr ⟨_, hl, (h.handles.sound handle _ hl).1, hlt⟩
  · exact .inl ⟨List.getElem?_eq_none (Nat.le_of_not_lt hlt), hlt⟩

/-- A call is live on both sides or on neither. -/
theorem call (h : b.Follows default past) (call : Nat) :
    live? b.calls call = none ∧ ¬ (roll past).isLive call = true ∨
      ∃ e, live? b.calls call = some e ∧ e.backend = 0 ∧
        e.record.threshold = startedWith default past call ∧ (roll past).isLive call = true := by
  have hiff := h.calls.isLive_iff call
  cases he : live? b.calls call with
  | none =>
    refine .inl ⟨rfl, fun hlive => ?_⟩
    obtain ⟨e, hsome⟩ := hiff.mp hlive
    cases he.symm.trans hsome
  | some e =>
    obtain ⟨hbackend, hthreshold⟩ := h.calls.sound call e he
    exact .inr ⟨e, rfl, hbackend, hthreshold, hiff.mpr ⟨e, he⟩⟩

theorem founder_lt {past : List Deed} {n : Nat} : ∀ h < n, founder past h < n :=
  fun h hlt => Nat.lt_of_le_of_lt (founder_le past h) hlt

theorem new (h : b.Follows default past) :
    (b.act .new).Follows default (.action .new :: past) := by
  have hlevel : (b.system.acquire 0).1.threshold =
      level default (.action .new :: past) (roll past).handles := by
    rw [h.backend.acquire, level, if_pos rfl]
  refine ⟨h.backend.uses (System.newLogger_uses (by simp) (by simp)), ?_, h.calls⟩
  show Handles (b.system.thresholds ++ [(b.system.acquire 0).1.threshold])
    (b.handles ++ [_]) ((roll past).handles + 1) (founder past)
    (level default (.action .new :: past))
  rw [hlevel]
  refine h.handles.found
    (l := ⟨0, b.system.thresholds.length, (b.system.acquire 0).1.caller, [], []⟩) rfl rfl
    founder_lt (founder_new (Nat.le_refl _)) fun g hg => ?_
  rw [level, if_neg (Nat.ne_of_lt hg)]

theorem clone (h : b.Follows default past) (original : Nat) :
    (b.act (.clone original)).Follows default (.action (.clone original) :: past) := by
  obtain ⟨hnone, hlt⟩ | ⟨l, hl, -, hlt⟩ := h.handle original
  · have hroll : roll (.action (.clone original) :: past) = roll past := by
      rw [roll, Roll.note, if_neg hlt]
    have hfounder : founder (.action (.clone original) :: past) = founder past := by
      funext g
      rw [founder, if_neg]
      rintro ⟨rfl, hg⟩
      exact hlt hg
    have hlevel : level default (.action (.clone original) :: past) = level default past := by
      funext g
      rw [level, if_neg]
      rintro ⟨rfl, hg⟩
      exact hlt hg
    rw [Bench.act, hnone]
    refine ⟨h.backend, ?_, ?_⟩
    · rw [hroll, hfounder, hlevel]
      exact h.handles
    · rw [hroll]
      exact h.calls
  · have hroll : roll (.action (.clone original) :: past) =
        ⟨(roll past).handles + 1, (roll past).live⟩ := by
      rw [roll, Roll.note, if_pos hlt]
    rw [Bench.act, hl]
    refine ⟨h.backend, ?_, ?_⟩
    · rw [hroll]
      refine h.handles.clone hl (fun g hg => ?_) ?_ (fun g hg => ?_) ?_
      · rw [founder, if_neg fun h => Nat.ne_of_lt hg h.1]
      · rw [founder, if_pos ⟨rfl, hlt⟩]
      · rw [level, if_neg fun h => Nat.ne_of_lt hg h.1]
      · rw [level, if_pos ⟨rfl, hlt⟩]
    · rw [hroll]
      exact h.calls

theorem setLevel (h : b.Follows default past) (member : Nat) (new : Level) :
    (b.act (.setLevel member new)).Follows default (.action (.setLevel member new) :: past) := by
  obtain ⟨hnone, hlt⟩ | ⟨l, hl, -, hlt⟩ := h.handle member
  · have hlevel : level default (.action (.setLevel member new) :: past) = level default past := by
      funext g
      rw [level, if_neg fun hg => hlt hg.1]
    rw [Bench.act, hnone]
    refine ⟨h.backend, ?_, h.calls⟩
    rw [hlevel]
    exact h.handles
  · rw [Bench.act, hl]
    refine ⟨h.backend.of_backends rfl, h.handles.set hl new fun g => ?_, h.calls⟩
    rw [level]
    simp only [hlt, true_and]

theorem start (h : b.Follows default past) (handle : Nat) :
    (b.act (.start handle)).Follows default (.action (.start handle) :: past) := by
  obtain ⟨hnone, hlt⟩ | ⟨l, hl, hbackend, hlt⟩ := h.handle handle
  · have hroll : roll (.action (.start handle) :: past) = roll past := by
      rw [roll, Roll.note, if_neg hlt]
    have hstarted : startedWith default (.action (.start handle) :: past) =
        startedWith default past := by
      funext c
      rw [startedWith, if_neg fun hc => hlt hc.2]
    rw [Bench.act, hnone]
    refine ⟨h.backend, ?_, ?_⟩
    · rw [hroll]
      exact h.handles
    · rw [hroll, hstarted]
      exact h.calls
  · have hroll : roll (.action (.start handle) :: past) =
        ⟨(roll past).handles, (roll past).live ++ [true]⟩ := by
      rw [roll, Roll.note, if_pos hlt]
    have hthreshold : b.system.threshold l = level default past handle :=
      (h.handles.sound handle l hl).2.2
    rw [Bench.act, hl]
    refine ⟨?_, ?_, ?_⟩
    · exact h.backend.uses (System.entry_uses (by simp))
    · rw [hroll]
      exact h.handles
    · rw [hroll]
      refine h.calls.start hbackend (fun c hc => ?_) ?_
      · rw [startedWith, if_neg fun h => Nat.ne_of_lt hc h.1]
      · rw [startedWith, if_pos ⟨rfl, hlt⟩]
        exact hthreshold

/-- A call is given something that is no threshold. -/
theorem change (h : b.Follows default past) (call : Nat) {f : Entry → Entry}
    (hf : ∀ e : Entry, (f e).backend = e.backend ∧ (f e).record.threshold = e.record.threshold) :
    (b.change call f).Follows default past := by
  unfold Bench.change
  split
  · next e he => exact ⟨h.backend, h.handles, h.calls.change he (hf e).1 (hf e).2⟩
  · exact h

theorem intoLogger (h : b.Follows default past) (call : Nat) :
    (b.act (.intoLogger call)).Follows default (.action (.intoLogger call) :: past) := by
  obtain ⟨hnone, hlive⟩ | ⟨e, he, hbackend, hthreshold, hlive⟩ := h.call call
  · have hroll : roll (.action (.intoLogger call) :: past) = roll past := by
      rw [roll, Roll.note, if_neg hlive]
    have hlevel : level default (.action (.intoLogger call) :: past) = level default past := by
      funext g
      rw [level, if_neg fun hg => hlive hg.2]
    rw [Bench.act, hnone]
    refine ⟨h.backend, ?_, ?_⟩
    · rw [hroll, hlevel]
      exact h.handles
    · rw [hroll]
      exact h.calls
  · have hroll : roll (.action (.intoLogger call) :: past) =
        ⟨(roll past).handles + 1, (roll past).live.set call false⟩ := by
      rw [roll, Roll.note, if_pos hlive]
    have hlevel : level default (.action (.intoLogger call) :: past) (roll past).handles =
        e.record.threshold := by
      rw [level, if_pos ⟨rfl, hlive⟩, hthreshold]
    rw [Bench.act, he]
    refine ⟨?_, ?_, ?_⟩
    · exact h.backend.uses (System.intoLogger_uses (by simp))
    · rw [hroll]
      show Handles (b.system.thresholds ++ [e.record.threshold]) (b.handles ++ [_])
        ((roll past).handles + 1) (founder past) _
      rw [← hlevel]
      refine h.handles.found
        (l := ⟨e.backend, b.system.thresholds.length, e.record.caller, e.record.keys,
          e.record.vals⟩)
        hbackend rfl founder_lt (founder_new (Nat.le_refl _)) fun g hg => ?_
      rw [level, if_neg fun h => Nat.ne_of_lt hg h.1]
    · rw [hroll]
      exact h.calls.use call

theorem emit (h : b.Follows default past) (call : Nat) (lv : Level) (message : String)
    (site : CallSite) :
    (b.act (.emit call lv message site)).Follows default
      (.action (.emit call lv message site) :: past) := by
  obtain ⟨hnone, hlive⟩ | ⟨e, he, hbackend, -, -⟩ := h.call call
  · have hused := h.calls.use call
    rw [set_none_of_live? hnone] at hused
    rw [Bench.act, hnone]
    exact ⟨h.backend, h.handles, hused⟩
  · rw [Bench.act, he]
    exact ⟨h.backend.uses (System.commit_uses (by simp) lv message site), h.handles,
      h.calls.use call⟩

theorem drop (h : b.Follows default past) (call : Nat) :
    (b.act (.drop call)).Follows default (.action (.drop call) :: past) :=
  ⟨h.backend, h.handles, h.calls.use call⟩

/-- One deed. -/
theorem perform (h : b.Follows default past) (deed : Deed) :
    (b.perform deed).Follows default (deed :: past) := by
  cases deed with
  | borrow => exact ⟨h.backend.uses (System.acquire_uses (by simp)), h.handles, h.calls⟩
  | giveBack r => exact ⟨h.backend.uses (System.release_uses (by simp)), h.handles, h.calls⟩
  | action a =>
    cases a with
    | clock now => exact ⟨h.backend.of_backends rfl, h.handles, h.calls⟩
    | new => exact h.new
    | clone original => exact h.clone original
    | setLevel member new => exact h.setLevel member new
    | start handle => exact h.start handle
    | withField call key value =>
      have hchanged := h.change call (f := (·.withField key value)) fun e => by
        unfold Entry.withField
        cases Attachment.of key value <;> exact ⟨rfl, rfl⟩
      exact ⟨hchanged.backend, hchanged.handles, hchanged.calls⟩
    | withFields call keys vals =>
      have hchanged := h.change call (f := (·.withFields keys vals)) fun e => ⟨rfl, rfl⟩
      exact ⟨hchanged.backend, hchanged.handles, hchanged.calls⟩
    | intoLogger call => exact h.intoLogger call
    | emit call lv message site => exact h.emit call lv message site
    | drop call => exact h.drop call

end Bench.Follows

/-! ## 4. Any number of deeds -/

/-- What becomes of a backend when a call comes to nothing: the call is counted if the backend
counts. -/
inductive Backend.Suppresses : Backend → Backend → Prop
  | json (b : JsonBackend) (pool : Pool) :
      Suppresses (.json b) (.json { b with pool := pool, metrics := b.metrics.countSuppressed })
  | init (pending : List Record) : Suppresses (.init pending) (.init pending)
  | null : Suppresses .null .null

theorem Backend.finalize_empty (b : Backend) (stack : List Frame) {r : Record}
    (hr : r.isEmpty = true) (host : Host) :
    b.Suppresses (b.finalize stack r host).1 ∧ (b.finalize stack r host).2 = host := by
  cases b with
  | json b =>
    have hfinal : b.finalize stack r host =
        ({ b with metrics := b.metrics.countSuppressed }.release r, host) := if_pos hr
    rw [Backend.finalize, hfinal]
    exact ⟨.json b _, rfl⟩
  | init pending =>
    rw [Backend.finalize, if_pos hr]
    exact ⟨.init pending, rfl⟩
  | null => exact ⟨.null, rfl⟩

namespace Bench

theorem Follows.performAll {default : Level} {b : Bench} {past : List Deed}
    (h : b.Follows default past) (deeds : List Deed) :
    (b.performAll deeds).Follows default (deeds.reverse ++ past) := by
  induction deeds generalizing b past with
  | nil => exact h
  | cons deed rest ih =>
    rw [List.reverse_cons, List.append_assoc]
    exact ih (h.perform deed)

theorem follows_onBackend {backend : Backend} {default : Level} (h : backend.IsNew default)
    (host : Host) : (onBackend backend host).Follows default [] where
  backend := ⟨Nat.one_pos, h.handsOut⟩
  handles := ⟨rfl, fun _ _ hl => (nomatch hl), fun _ _ _ _ hk => (nomatch hk)⟩
  calls := ⟨rfl, fun _ _ he => (nomatch he)⟩

/-- A call whose level is below the one it was started with comes to nothing, and every other call
goes to the backend with all that it was given. -/
theorem Follows.emitted {default : Level} {b : Bench} {past : List Deed}
    (h : b.Follows default past) {call : Nat} {e : Entry} (he : live? b.calls call = some e)
    (lv : Level) (message : String) (site : CallSite) :
    ((startedWith default past call).rank ≤ lv.rank →
        (b.act (.emit call lv message site)).system =
          b.system.finalize 0 site.stack (e.emitted lv message site)) ∧
      (lv.rank < (startedWith default past call).rank →
        (b.act (.emit call lv message site)).system.host = b.system.host ∧
        (b.system.backend 0).Suppresses
          ((b.act (.emit call lv message site)).system.backend 0)) := by
  obtain ⟨hbackend, hthreshold⟩ := h.calls.sound call e he
  have hsystem : (b.act (.emit call lv message site)).system =
      b.system.finalize 0 site.stack (System.committed e.record lv message site) := by
    rw [Bench.act, he]
    show b.system.finalize e.backend _ _ = _
    rw [hbackend]
  rw [hsystem, ← hthreshold]
  refine ⟨fun hpass => ?_, fun hstop => ?_⟩
  · rw [System.committed_of_le hpass]
    rfl
  · rw [System.committed_of_lt hstop]
    obtain ⟨hsuppresses, hhost⟩ := (b.system.backend 0).finalize_empty site.stack
      (r := { e.record with message := "", keys := [], vals := [] }) rfl b.system.host
    have hafter : (b.system.finalize 0 site.stack
        { e.record with message := "", keys := [], vals := [] }).backend 0 =
          ((b.system.backend 0).finalize site.stack
            { e.record with message := "", keys := [], vals := [] } b.system.host).1 :=
      System.setBackend_at (s := { b.system with host := _ }) h.backend.connected _
    rw [hafter]
    exact ⟨hhost, hsuppresses⟩

end Bench

/-- After any deeds on a new backend, in any order:

1. A handle has the level that the history says: the last one that was set on a handle of its
   family, and otherwise the one that it inherited.
2. Setting the level of a handle sets it for its family, and for nothing else: not for other
   families, nor for calls that have been started.
3. Another new handle has the default of the backend.
4. A call is gated by the level that its handle had when the call was started. -/
theorem levels_follow {backend : Backend} {default : Level} (hnew : backend.IsNew default)
    (host : Host) (deeds : List Deed) :
    let b := (Bench.onBackend backend host).performAll deeds
    let past := deeds.reverse
    (b.handles.length = (roll past).handles ∧ b.calls.map Option.isSome = (roll past).live ∧
      ∀ h l, b.handles[h]? = some l → b.system.threshold l = level default past h) ∧
    (∀ member l new, b.handles[member]? = some l →
      (b.act (.setLevel member new)).calls = b.calls ∧
      ∀ h k, b.handles[h]? = some k → (b.act (.setLevel member new)).system.threshold k =
        if founder past member = founder past h then new else b.system.threshold k) ∧
    (b.system.newLogger 0).2.threshold (b.system.newLogger 0).1 = default ∧
    ∀ call e, live? b.calls call = some e → ∀ lv message site,
      ((startedWith default past call).rank ≤ lv.rank →
        (b.act (.emit call lv message site)).system =
          b.system.finalize 0 site.stack (e.emitted lv message site)) ∧
      (lv.rank < (startedWith default past call).rank →
        (b.act (.emit call lv message site)).system.host = b.system.host ∧
        (b.system.backend 0).Suppresses
          ((b.act (.emit call lv message site)).system.backend 0)) := by
  intro b past
  have hfollows : b.Follows default past := by
    have hall := (Bench.follows_onBackend hnew host).performAll deeds
    rwa [List.append_nil] at hall
  have hlevel {past : List Deed} {b : Bench} (h : b.Follows default past) :
      ∀ handle l, b.handles[handle]? = some l → b.system.threshold l = level default past handle :=
    fun handle l hl => (h.handles.sound handle l hl).2.2
  refine ⟨⟨hfollows.handles.count_eq, hfollows.calls.live_eq, hlevel hfollows⟩, ?_, ?_,
    fun call e he lv message site => hfollows.emitted he lv message site⟩
  · intro member l new hl
    have hset := hlevel (hfollows.setLevel member new)
    have hlt : member < (roll past).handles := by
      rw [← hfollows.handles.count_eq]
      exact (List.getElem?_eq_some_iff.mp hl).1
    rw [Bench.act, hl] at hset ⊢
    refine ⟨rfl, fun h k hk => (hset h k hk).trans ?_⟩
    rw [level, hlevel hfollows h k hk]
    simp only [hlt, true_and]
  · -- the handle that would be made next
    have hmade := hlevel hfollows.new b.handles.length (b.system.newLogger 0).1
      List.getElem?_concat_length
    rw [level, hfollows.handles.count_eq, if_pos rfl] at hmade
    exact hmade

/-- Four handles, of which the second is a clone of the first, the third is made after the level of
these two was set, and the fourth is made of a call that was started before. Records come and go. -/
def retuned : List Deed :=
  [.action .new, .action (.clone 0), .action (.start 0), .action (.setLevel 1 .error),
    .giveBack { Record.blank with threshold := .fatal }, .action .new, .borrow, .action (.start 0),
    .action (.intoLogger 0), .action (.setLevel 3 .debug), .action (.start 3),
    .action (.setLevel 3 .fatal)]

/-- The system after these deeds. -/
def retunedBench : Bench :=
  (Bench.onBackend (.json (.new .console .info .none .unix 0))
    (.start "/" (.fixed 0) ⟨0, 0⟩)).performAll retuned

/-- The clone has the level that was set, the third handle the default, and the fourth what was set
on it. Of the two calls that are live, the second was started before its handle was silenced. -/
theorem levels_follow_retuned :
    (∃ l, retunedBench.handles[1]? = some l ∧ retunedBench.system.threshold l = .error) ∧
      (∃ l, retunedBench.handles[2]? = some l ∧ retunedBench.system.threshold l = .info) ∧
      (∃ l, retunedBench.handles[3]? = some l ∧ retunedBench.system.threshold l = .fatal) ∧
      (∃ e, live? retunedBench.calls 1 = some e ∧
        (retunedBench.act (.emit 1 .warning "low" .nowhere)).system.host =
          retunedBench.system.host) ∧
      ∃ e, live? retunedBench.calls 2 = some e ∧
        (retunedBench.act (.emit 2 .debug "late" .nowhere)).system =
          retunedBench.system.finalize 0 [] (e.emitted .debug "late" .nowhere) := by
  obtain ⟨⟨-, -, hlevel⟩, -, -, hgated⟩ :=
    levels_follow (.json .console .info .none .unix 0) (.start "/" (.fixed 0) ⟨0, 0⟩) retuned
  refine ⟨⟨_, rfl, (hlevel 1 _ rfl).trans ?_⟩, ⟨_, rfl, (hlevel 2 _ rfl).trans ?_⟩,
    ⟨_, rfl, (hlevel 3 _ rfl).trans ?_⟩, ⟨_, rfl, ((hgated 1 _ rfl _ _ _).2 ?_).1⟩,
    ⟨_, rfl, (hgated 2 _ rfl _ _ _).1 ?_⟩⟩
  all_goals decide

end Logbook
