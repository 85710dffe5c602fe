import Mathlib.Data.List.Basic
import Logbook.Proofs.Logger.Mismatch

/-!
# Values and their keys

A line pairs all keys that a call was given with all values, in their order. So a value stands with
the key that it was given with as long as what was given before is even: a key that got no value
takes the first one that comes later, and every value behind it moves to another key.

Results:
1. `Journal.Addition.getElem?_tagged`: where the keys, or the values, of an addition stand among
   all of them.
2. `Journal.Addition.astray`, `Journal.Addition.pair_mem_iff`: which keys take a value of another
   addition, and when a field that was added on its own stays together.
3. `Entry.Carries.members_eq`: the members of a line as such pairs.
4. `values_keep_their_keys`: for a line that goes to the sink.
5. `later_value_taken`: a key that takes the value of a later field.
-/

namespace Logbook

open Journal (Addition)

namespace Journal.Addition

variable {α : Type} (part : Addition → List α)

/-! ## 1. What comes of which addition -/

/-- Keys or values, each with the number of the addition that gave it. -/
def tagged (added : List Addition) : List (Nat × α) :=
  added.zipIdx.flatMap fun (a, i) => (part a).map (i, ·)

theorem map_snd_tagged (added : List Addition) :
    (tagged part added).map (·.2) = added.flatMap part := by
  rw [tagged, List.map_flatMap, ← List.zipIdx_map_fst 0 added, List.flatMap_map,
    List.zipIdx_map_fst 0 added]
  simp only [List.map_map, Function.comp_def, List.map_id_fun', id_eq]

theorem length_tagged (added : List Addition) :
    (tagged part added).length = (added.flatMap part).length := by
  rw [← map_snd_tagged, List.length_map]

/-- The numbers are those of the additions. -/
theorem lt_of_mem_tagged {part : Addition → List α} {added : List Addition} {p : Nat × α}
    (h : p ∈ tagged part added) : p.1 < added.length := by
  obtain ⟨⟨a, i⟩, hmem, hp⟩ := List.mem_flatMap.mp h
  obtain ⟨x, -, rfl⟩ := List.mem_map.mp hp
  simpa using List.snd_lt_of_mem_zipIdx hmem

/-- What an addition gave stands behind all that was given before. -/
theorem getElem?_tagged (before : List Addition) (a : Addition) (after : List Addition) (n : Nat)
    (x : α) :
    (tagged part (before ++ a :: after))[n]? = some (before.length, x) ↔
      ∃ j, n = (before.flatMap part).length + j ∧ (part a)[j]? = some x := by
  have hsplit : tagged part (before ++ a :: after) = tagged part before ++
      ((part a).map (before.length, ·) ++ (after.zipIdx (before.length + 1)).flatMap
        fun (a, i) => (part a).map (i, ·)) := by
    simp [tagged, List.zipIdx_append]
  have hlater : ∀ m : Nat, ((after.zipIdx (before.length + 1)).flatMap
      fun (a, i) => (part a).map (i, ·))[m]? ≠ some (before.length, x) := by
    intro m hm
    obtain ⟨⟨a', i⟩, hmem, hp⟩ := List.mem_flatMap.mp (List.mem_of_getElem? hm)
    obtain ⟨y, -, heq⟩ := List.mem_map.mp hp
    have hle := List.le_snd_of_mem_zipIdx hmem
    have hi : i = before.length := congrArg Prod.fst heq
    omega
  rw [hsplit, ← length_tagged]
  constructor
  · intro h
    have hbehind : (tagged part before).length ≤ n := by
      by_contra hlt
      rw [List.getElem?_append_left (by omega)] at h
      exact Nat.lt_irrefl _ (lt_of_mem_tagged (List.mem_of_getElem? h))
    rw [List.getElem?_append_right hbehind] at h
    have hown : n - (tagged part before).length < ((part a).map (before.length, ·)).length := by
      by_contra hge
      rw [List.getElem?_append_right (by omega)] at h
      exact hlater _ h
    rw [List.getElem?_append_left hown, List.getElem?_map, Option.map_eq_some_iff] at h
    obtain ⟨y, hy, heq⟩ := h
    exact ⟨n - (tagged part before).length, by omega, hy.trans (congrArg (some ·.2) heq)⟩
  · rintro ⟨j, rfl, hj⟩
    have hlt : j < ((part a).map (before.length, ·)).length := by
      rw [List.length_map]
      exact (List.getElem?_eq_some_iff.mp hj).1
    rw [List.getElem?_append_right (Nat.le_add_right _ _), Nat.add_sub_cancel_left,
      List.getElem?_append_left hlt, List.getElem?_map, hj, Option.map_some]

/-! ## 2. Keys and the values that they take -/

/-- The keys with the values that they take, each with the number of its addition. -/
def pairs (added : List Addition) : List ((Nat × String) × (Nat × Value)) :=
  (tagged keys added).zip (tagged vals added)

/-- A key that takes a value of another addition was added after an uneven start, or without a value
of its own. -/
theorem astray {added : List Addition} {p : (Nat × String) × (Nat × Value)}
    (hp : p ∈ pairs added) (hne : p.1.1 ≠ p.2.1) :
    ¬Balanced (added.take p.1.1) ∨
      ∃ a, added[p.1.1]? = some a ∧ a.vals.length < a.keys.length := by
  obtain ⟨⟨i, key⟩, i', value⟩ := p
  obtain ⟨n, hn⟩ := List.mem_iff_getElem?.mp hp
  obtain ⟨hkey, hvalue⟩ := List.getElem?_zip_eq_some.mp hn
  have hi : i < added.length := lt_of_mem_tagged (List.mem_of_getElem? hkey)
  obtain ⟨before, a, after, rfl, rfl⟩ :
      ∃ before a after, added = before ++ a :: after ∧ before.length = i :=
    ⟨added.take i, added[i], added.drop (i + 1), by simp, List.length_take_of_le (Nat.le_of_lt hi)⟩
  rw [List.take_left, or_iff_not_imp_left, not_not]
  intro heven
  refine ⟨a, by simp, ?_⟩
  by_contra henough
  obtain ⟨j, rfl, hj⟩ := (getElem?_tagged keys before a after n key).mp hkey
  have hj' : j < a.vals.length := by
    have := (List.getElem?_eq_some_iff.mp hj).1
    omega
  have hown := (getElem?_tagged vals before a after _ _).mpr
    ⟨j, congrArg (· + j) heven, List.getElem?_eq_getElem hj'⟩
  exact hne (congrArg Prod.fst (Option.some.inj (hown.symm.trans hvalue)))

/-- A field that was added on its own stays together if and only if it was added after an even
start. -/
theorem pair_mem_iff (before : List Addition) {key : String} {value : Value} (after : List Addition)
    (hfield : isControl key value = false) :
    ((before.length, key), (before.length, value)) ∈ pairs (before ++ .one key value :: after) ↔
      Balanced before := by
  have hkeys : (Addition.one key value).keys = [key] := by simp [keys, hfield]
  have hvals : (Addition.one key value).vals = [value] := by simp [vals, hfield]
  rw [pairs, List.mem_iff_getElem?]
  constructor
  · rintro ⟨n, hn⟩
    obtain ⟨hkey, hvalue⟩ := List.getElem?_zip_eq_some.mp hn
    obtain ⟨j, rfl, hj⟩ := (getElem?_tagged keys before _ after n key).mp hkey
    obtain ⟨j', hsame, hj'⟩ := (getElem?_tagged vals before _ after _ value).mp hvalue
    have hfirst := (List.getElem?_eq_some_iff.mp hj).1
    have hfirst' := (List.getElem?_eq_some_iff.mp hj').1
    rw [hkeys, List.length_singleton] at hfirst
    rw [hvals, List.length_singleton] at hfirst'
    show (before.flatMap keys).length = (before.flatMap vals).length
    omega
  · intro heven
    have hkey := (getElem?_tagged keys before (.one key value) after _ key).mpr
      ⟨0, rfl, by rw [hkeys]; rfl⟩
    have hvalue := (getElem?_tagged vals before (.one key value) after _ value).mpr
      ⟨0, rfl, by rw [hvals]; rfl⟩
    exact ⟨_, List.getElem?_zip_eq_some.mpr ⟨hkey, heven ▸ hvalue⟩⟩

end Journal.Addition

/-! ## 3. The pairs of a line -/

/-- The members of a line are the pairs, followed by the one that tells of a mismatch and those that
tell of the place. -/
theorem Entry.Carries.members_eq {e : Entry} {added : List Addition} (h : e.Carries added)
    (site : CallSite) :
    e.members site = (Addition.pairs added).map (fun p => (p.1.2, p.2.2)) ++
      (if Addition.Balanced added then [] else [Entry.mismatch]) ++ e.captured site := by
  obtain ⟨hkeys, hvals⟩ := h.fields
  have hpairs : (Addition.pairs added).map (fun p => (p.1.2, p.2.2)) =
      (added.flatMap (·.keys)).zip (added.flatMap (·.vals)) := by
    rw [← Addition.map_snd_tagged, ← Addition.map_snd_tagged, List.zip_map]
    rfl
  rw [Entry.members, hkeys, hvals, hpairs]
  rfl

/-- A call of which something is shown gives its line to the sink. A key of the line that stands
with a value of another addition was added when there were not as many keys as values before, or by
an addition with more keys than values; and a field that was added on its own, and that directs
nothing, is a member with its own value if and only if there were as many keys as values before. -/
theorem values_keep_their_keys {s : System} {e : Entry} {added : List Addition} {b : JsonBackend}
    (hcarries : e.Carries added) (hb : s.backend e.backend = .json b) (level : Level)
    (message : String) (site : CallSite) (hshown : e.isShown level message = true) :
    s.HandsOver e.backend (Line.ofParts (b.format.render (e.record.time?.getD s.host.localNow))
        level ((e.members site).map (·.1)) ((e.members site).map (·.2)) message)
      (s.commit e level message site) ∧
    e.members site = (Addition.pairs added).map (fun p => (p.1.2, p.2.2)) ++
      (if Addition.Balanced added then [] else [Entry.mismatch]) ++ e.captured site ∧
    (∀ p ∈ Addition.pairs added, p.1.1 ≠ p.2.1 → ¬Addition.Balanced (added.take p.1.1) ∨
      ∃ a, added[p.1.1]? = some a ∧ a.vals.length < a.keys.length) ∧
    ∀ before key value after, added = before ++ .one key value :: after →
      Journal.isControl key value = false →
        (((before.length, key), (before.length, value)) ∈ Addition.pairs added ↔
          Addition.Balanced before) := by
  refine ⟨e.line_eq .. ▸ commit_handsOver hb hshown site, hcarries.members_eq site,
    fun p hp hne => Addition.astray hp hne, ?_⟩
  rintro before key value after rfl hfield
  exact Addition.pair_mem_iff before after hfield

/-- A call with a field of its handle, two fields that were added at once, and one on its own. -/
def evenCall : Entry :=
  let made := handled.intoLogger (handledCall.withField "a" (.int 1))
  ((made.2.entry made.1).1.withFields ["b", "c"] [.int 2, .int 3]).withField "d" (.int 4)

theorem values_keep_their_keys_even :
    let before : List Addition := [.one "a" (.int 1), .many ["b", "c"] [.int 2, .int 3]]
    evenCall.Carries (before ++ [.one "d" (.int 4)]) ∧
      evenCall.isShown .info "" = true ∧ Journal.isControl "d" (.int 4) = false ∧
      ((2, "d"), (2, .int 4)) ∈ Addition.pairs (before ++ [.one "d" (.int 4)]) := by
  intro before
  have hcarries : evenCall.Carries (before ++ [.one "d" (.int 4)]) :=
    (((handledCall_carries.withField "a" (.int 1)).ofMade
      (handled_reached.step (.intoLogger _))).withFields _ _).withField _ _
  obtain ⟨-, -, -, hown⟩ :=
    values_keep_their_keys (s := handled) hcarries rfl .info "" .nowhere rfl
  exact ⟨hcarries, rfl, rfl, (hown before "d" (.int 4) [] rfl rfl).mpr rfl⟩

/-- A call with two keys and a value is given a field. Its second key takes the value of the field,
and the key of the field is not shown. -/
theorem later_value_taken :
    let e := lackingCall.withField "c" (.int 3)
    let added : List Addition := [.many ["a", "b"] [.int 1], .one "c" (.int 3)]
    e.Carries added ∧ handled.Reached ∧ Level.info.passes e.record.threshold = true ∧
      Journal.isControl "c" (.int 3) = false ∧
      Addition.pairs added = [((0, "a"), (0, .int 1)), ((0, "b"), (1, .int 3))] ∧
      (handled.commit e .info "" .nowhere).host.buffer "out" =
        Utf8.encode ("\x7b\"time\":\"0\",\"level\":\"INFO\",\"a\":1,\"b\":3,\"loggererr\":" ++
          "\"the number of field keys and values are not equal\"\x7d\n").toList := by
  exact ⟨(handledCall_carries.withFields _ _).withField _ _, handled_reached, rfl, rfl, rfl,
    by decide +kernel⟩

end Logbook
