import Logbook.Config
import Logbook.Proofs.Json.Rereading
import Logbook.Proofs.Text.Numbers

/-!
# Spellings of levels

A level has names, whose letters may be small or capital ones of ASCII, and a rank, which is one
digit. These are its spellings. The reader of levels takes all of them, but it takes more: it looks
at the capitals of a text, and the small dotless i has the same capital as the i, and it reads ranks
as whole numbers, which may have a plus sign and zeros in front.

| text                        | level  |                                |
|-----------------------------|--------|--------------------------------|
| `info`, `Info`, `INFO`      | `info` | spell a name                   |
| `1`                         | `info` | spells a rank                  |
| `ınfo`                      | `info` | strays off a name              |
| `+1`, `01`, `+001`          | `info` | stray off a rank               |
| `inf`, ` info`, `5`, `-0`   |        | refused as they are            |

Results:
1. `ofCapitals?_iff`, `capitals_mem_names`: names.
2. `rank_read_iff`: ranks.
3. `ofText?_iff`, `Spells.not_strays`: which texts are read.
4. `ofJson_string`: the same in a document.
5. `spelling_read_iff`: when a text is read only if it spells a level.
6. `signed_rank_read`: texts that spell no level and are read.
-/

namespace Logbook

/-! ## Texts that spell levels -/

namespace Level

/-- The names of levels, in capitals. One level has a second name, on which readers of the lines
match. -/
def names : List (List Char × Level) :=
  [("DEBUG".toList, debug), ("INFO".toList, info), ("WARIRNG".toList, warning),
    ("WARNING".toList, warning), ("ERROR".toList, error), ("FATAL".toList, fatal)]

/-- A text that spells a level: one of its names, apart from the case of ASCII letters, or the
digit of its rank. -/
inductive Spells : String → Level → Prop
  | name {s : String} {level : Level} : (s.toList.map Char.toUpper, level) ∈ names → Spells s level
  | rank (level : Level) : Spells (String.ofList (Decimal.digitsOf level.rank)) level

/-- The dotless i as an i. -/
def dotted (c : Char) : Char := if c = 'ı' then 'i' else c

/-- What may stand before the digit of a rank. -/
def rankLead (plus : Bool) (zeros : Nat) : List Char :=
  Text.plusSign plus ++ List.replicate zeros '0'

/-- A text that is taken for a spelling of a level without being one: a name with a dotless i, or a
rank with a plus sign or zeros in front. -/
inductive Strays : String → Level → Prop
  | dotless {s : String} {level : Level} : 'ı' ∈ s.toList →
      (s.toList.map (fun c => (dotted c).toUpper), level) ∈ names → Strays s level
  | padded {plus : Bool} {zeros : Nat} (level : Level) : rankLead plus zeros ≠ [] →
      Strays (String.ofList (rankLead plus zeros ++ Decimal.digitsOf level.rank)) level

/-! ## 1. Names -/

theorem ofCapitals?_iff {s : List Char} {level : Level} :
    ofCapitals? s = some level ↔ (s, level) ∈ names := by
  have hnames : (s, level) ∈ names ↔
      s = "DEBUG".toList ∧ level = debug ∨ s = "INFO".toList ∧ level = info ∨
      s = "WARIRNG".toList ∧ level = warning ∨ s = "WARNING".toList ∧ level = warning ∨
      s = "ERROR".toList ∧ level = error ∨ s = "FATAL".toList ∧ level = fatal := by
    simp only [names, List.mem_cons, List.not_mem_nil, or_false, Prod.mk.injEq]
  rw [hnames]
  constructor
  · intro h
    unfold ofCapitals? at h
    repeat' split at h
    all_goals cases h
    all_goals simp [*]
  · rintro (⟨rfl, rfl⟩ | ⟨rfl, rfl⟩ | ⟨rfl, rfl⟩ | ⟨rfl, rfl⟩ | ⟨rfl, rfl⟩ | ⟨rfl, rfl⟩) <;> rfl

/-- The letters of the names are capitals, and none of them is an S. -/
theorem capital_of_names {t : List Char} {level : Level} (h : (t, level) ∈ names) :
    ∀ c ∈ t, c.isUpper = true ∧ c ≠ 'S' := by
  have hall : (names.all fun entry => entry.1.all fun c => c.isUpper && c != 'S') = true := by
    decide
  intro c hc
  have hletter := List.all_eq_true.mp (List.all_eq_true.mp hall (t, level) h) c hc
  rwa [Bool.and_eq_true, bne_iff_ne] at hletter

/-- The capitals of a text make a name if and only if its ASCII capitals do, apart from the dotless
i. The long s, which has a capital in ASCII as well, is in no name. -/
theorem capitals_mem_names {s : List Char} {level : Level} :
    (s.map capital, level) ∈ names ↔ (s.map (fun c => (dotted c).toUpper), level) ∈ names := by
  by_cases hs : 'ſ' ∈ s
  · have hleft : (s.map capital, level) ∉ names := fun h =>
      (capital_of_names h 'S' (List.mem_map_of_mem (f := capital) hs)).2 rfl
    have hright : (s.map (fun c => (dotted c).toUpper), level) ∉ names := fun h =>
      absurd (capital_of_names h 'ſ'
        (List.mem_map_of_mem (f := fun c => (dotted c).toUpper) hs)).1 (by decide)
    exact iff_of_false hleft hright
  · have hsame : s.map capital = s.map fun c => (dotted c).toUpper := by
      refine List.map_congr_left fun c hc => ?_
      unfold capital dotted
      split
      · rfl
      split
      · next hlong => exact absurd (hlong ▸ hc) hs
      · rfl
    rw [hsame]

/-- Without a dotless i in it, a text has ASCII capitals only. -/
theorem map_dotted {s : List Char} (h : 'ı' ∉ s) :
    s.map (fun c => (dotted c).toUpper) = s.map Char.toUpper := by
  refine List.map_congr_left fun c hc => ?_
  rw [dotted, if_neg]
  rintro rfl
  exact h hc

theorem dotless_not_mem_of_names {s : List Char} {level : Level}
    (h : (s.map Char.toUpper, level) ∈ names) : 'ı' ∉ s := fun hmem =>
  absurd (capital_of_names h 'ı' (List.mem_map_of_mem (f := Char.toUpper) hmem)).1 (by decide)

/-! ## 2. Ranks -/

theorem ofRank?_iff {n : Nat} {level : Level} : ofRank? n = some level ↔ n = level.rank := by
  constructor
  · intro h
    match n with
    | 0 | 1 | 2 | 3 | 4 => cases h; rfl
    | n + 5 => cases h
  · rintro rfl
    cases level <;> rfl

theorem rank_read_iff {s : List Char} {level : Level} :
    (Text.readNat? 255 s).bind ofRank? = some level ↔
      ∃ plus zeros, s = rankLead plus zeros ++ Decimal.digitsOf level.rank := by
  have hrank : level.rank ≤ 255 := by cases level <;> decide
  rw [Option.bind_eq_some_iff]
  constructor
  · rintro ⟨n, hread, hlevel⟩
    obtain ⟨plus, digits, rfl, hdigits, rfl, -⟩ := Text.readNat?_iff.mp hread
    obtain ⟨zeros, hzeros⟩ := Text.exists_zeros_digitsOf hdigits
    rw [ofRank?_iff.mp hlevel] at hzeros
    exact ⟨plus, zeros, by rw [hzeros, rankLead, List.append_assoc]⟩
  · rintro ⟨plus, zeros, rfl⟩
    obtain ⟨hne, hall⟩ := Decimal.isDigits_digitsOf level.rank
    refine ⟨level.rank, Text.readNat?_iff.mpr ⟨plus, List.replicate zeros '0' ++
      Decimal.digitsOf level.rank, List.append_assoc _ _ _, ⟨by simp [hne], ?_⟩, ?_, hrank⟩,
      ofRank?_iff.mpr rfl⟩
    · intro c hc
      rcases List.mem_append.mp hc with hzero | hdigit
      · rw [List.eq_of_mem_replicate hzero]
        rfl
      · exact hall c hdigit
    · rw [Decimal.natOfDigits_append, Decimal.natOfDigits_zeros, Nat.zero_mul, Nat.zero_add,
        Decimal.natOfDigits_digitsOf]

/-- A digit is the capital of itself, and no letter. -/
theorem not_isUpper_digit {c : Char} (h : c.isDigit = true) :
    (capital c).isUpper = false ∧ c.toUpper.isUpper = false :=
  Text.forall_digit (P := fun c => (capital c).isUpper = false ∧ c.toUpper.isUpper = false)
    (by decide) h

/-- There is a digit in a rank, with whatever stands in front. -/
theorem exists_digit (lead : List Char) (level : Level) :
    ∃ c ∈ lead ++ Decimal.digitsOf level.rank, c.isDigit = true := by
  obtain ⟨hne, hall⟩ := Decimal.isDigits_digitsOf level.rank
  obtain ⟨c, hc⟩ := List.exists_mem_of_ne_nil _ hne
  exact ⟨c, List.mem_append_right _ hc, hall c hc⟩

/-! ## 3. Texts that are read -/

/-- A text with a digit in it is read as a rank only. -/
theorem ofText?_of_digit {s : String} (h : ∃ c ∈ s.toList, c.isDigit = true) :
    ofText? s = (Text.readNat? 255 s.toList).bind ofRank? := by
  obtain ⟨c, hmem, hdigit⟩ := h
  have hnone : ofCapitals? (s.toList.map capital) = none := by
    rw [Option.eq_none_iff_forall_ne_some]
    intro level hlevel
    have hupper := (capital_of_names (ofCapitals?_iff.mp hlevel) (capital c)
      (List.mem_map_of_mem hmem)).1
    exact Bool.false_ne_true ((not_isUpper_digit hdigit).1.symm.trans hupper)
  rw [ofText?, hnone, Option.none_or]

theorem ofText?_rank (plus : Bool) (zeros : Nat) (level : Level) :
    ofText? (String.ofList (rankLead plus zeros ++ Decimal.digitsOf level.rank)) = some level := by
  rw [ofText?_of_digit, String.toList_ofList]
  · exact rank_read_iff.mpr ⟨plus, zeros, rfl⟩
  · rw [String.toList_ofList]
    exact exists_digit _ level

theorem ofText?_name {s : String} {level : Level}
    (h : (s.toList.map (fun c => (dotted c).toUpper), level) ∈ names) :
    ofText? s = some level := by
  rw [ofText?, ofCapitals?_iff.mpr (capitals_mem_names.mpr h), Option.some_or]

/-- The texts that are read are those that spell a level and those that stray. -/
theorem ofText?_iff {s : String} {level : Level} :
    ofText? s = some level ↔ Spells s level ∨ Strays s level := by
  constructor
  · intro h
    rw [ofText?, Option.or_eq_some_iff] at h
    rcases h with hname | ⟨-, hrank⟩
    · have hmem := capitals_mem_names.mp (ofCapitals?_iff.mp hname)
      by_cases hdotless : 'ı' ∈ s.toList
      · exact .inr (.dotless hdotless hmem)
      · rw [map_dotted hdotless] at hmem
        exact .inl (.name hmem)
    · obtain ⟨plus, zeros, hs⟩ := rank_read_iff.mp hrank
      rw [← String.ofList_toList (s := s), hs]
      by_cases hlead : rankLead plus zeros = []
      · rw [hlead, List.nil_append]
        exact .inl (.rank level)
      · exact .inr (.padded level hlead)
  · rintro (hspells | hstrays)
    · cases hspells with
      | name h =>
        rw [← map_dotted (dotless_not_mem_of_names h)] at h
        exact ofText?_name h
      | rank => exact ofText?_rank false 0 level
    · cases hstrays with
      | dotless _ h => exact ofText?_name h
      | padded level _ => exact ofText?_rank _ _ level

/-- No text does both. -/
theorem Spells.not_strays {s : String} {level level' : Level} (h : Spells s level) :
    ¬ Strays s level' := by
  intro hstrays
  cases h with
  | name hname =>
    cases hstrays with
    | dotless hmem _ => exact dotless_not_mem_of_names hname hmem
    | padded _ _ =>
      rw [String.toList_ofList] at hname
      obtain ⟨c, hmem, hdigit⟩ := exists_digit (rankLead _ _) level'
      have hupper := (capital_of_names hname c.toUpper (List.mem_map_of_mem hmem)).1
      exact Bool.false_ne_true ((not_isUpper_digit hdigit).2.symm.trans hupper)
  | rank =>
    generalize hs : String.ofList (Decimal.digitsOf level.rank) = s at hstrays
    cases hstrays with
    | dotless hmem _ =>
      rw [← hs, String.toList_ofList] at hmem
      exact absurd ((Decimal.isDigits_digitsOf level.rank).2 'ı' hmem) (by decide)
    | padded _ hlead =>
      have hone (level : Level) : (Decimal.digitsOf level.rank).length = 1 := by
        cases level <;> rfl
      have hlength := congrArg List.length (String.ofList_injective hs)
      rw [List.length_append, hone, hone] at hlength
      exact hlead (List.eq_nil_of_length_eq_zero (by omega))

/-! ## 4. Documents -/

theorem readLevel_isUnits {before inside : List Char} {units : List Json.StringUnit}
    (hbefore : Json.IsGap before) (hinside : Json.IsUnits inside units)
    (hpaired : Json.IsPaired units) (rest : List Char) :
    Config.readLevel (before ++ ('"' :: (inside ++ '"' :: rest))) =
      (Config.levelOfText (String.ofList (Json.joinUnits units))).map
        fun level => (level, rest) := by
  rw [Config.readLevel, Json.skipGap_append hbefore (.cons rfl)]
  split
  · next heq => cases heq
  · next heq =>
    obtain ⟨-, rfl⟩ := List.cons.inj heq
    rw [Json.readStringRest_isUnits hinside hpaired]
    rfl
  · next heq => exact absurd (List.cons.inj heq).1 (by decide)
  · next hquote _ heq => exact absurd (List.cons.inj heq).1.symm hquote

/-- A level is read from a JSON text of a string as it is from the string. -/
theorem ofJson_string {s text : String} (h : Json.IsStringDocument s text) :
    ofJson text = (ofText s).mapError fun error => .described error.message := by
  cases h with
  | @mk before inside after units hbefore hinside hpaired hafter hs =>
    have hend : Json.endDocument after = .ok () := by
      have hskip : Json.skipGap after = [] := by
        have hnil := Json.skipGap_append hafter (s := []) (fun _ hc => by cases hc)
        rwa [List.append_nil] at hnil
      rw [Json.endDocument, hskip]
      rfl
    rw [ofJson, String.toList_ofList, readLevel_isUnits hbefore hinside hpaired, ← hs,
      String.ofList_toList, Config.levelOfText]
    cases ofText s with
    | error error => rfl
    | ok level =>
      show (Json.endDocument after >>= fun _ => .ok level) = _
      rw [hend]
      rfl

/-! ## 5. Spellings and what is read -/

theorem ofText_iff {s : String} {level : Level} :
    ofText s = .ok level ↔ Spells s level ∨ Strays s level := by
  rw [← ofText?_iff, ofText]
  cases ofText? s <;> simp

theorem ofText_error_iff {s : String} {error : LogError} :
    ofText s = .error error ↔
      error = .unrecognizedLevel s ∧ ∀ level, ¬ Spells s level ∧ ¬ Strays s level := by
  have hnone : (∀ level, ¬ Spells s level ∧ ¬ Strays s level) ↔ ofText? s = none := by
    simp only [Option.eq_none_iff_forall_ne_some, Ne, ofText?_iff, not_or]
  rw [hnone, ofText]
  cases ofText? s <;> simp [eq_comm]

/-- A level is read from the texts that spell one and from those that stray off a spelling, and
every other text is refused as it is. A JSON text of a string is read as the string. So the reader
keeps to the spellings at the texts that do not stray, and at no others. -/
theorem spelling_read_iff (s : String) :
    (∀ level, ofText s = .ok level ↔ Spells s level ∨ Strays s level) ∧
      (∀ error, ofText s = .error error ↔
        error = .unrecognizedLevel s ∧ ∀ level, ¬ Spells s level ∧ ¬ Strays s level) ∧
      (∀ text, Json.IsStringDocument s text →
        ofJson text = (ofText s).mapError fun error => .described error.message) ∧
      ((∀ level, ofText s = .ok level ↔ Spells s level) ↔ ∀ level, ¬ Strays s level) := by
  refine ⟨fun _ => ofText_iff, fun _ => ofText_error_iff, fun _ h => ofJson_string h, ?_⟩
  constructor
  · intro hexact level hstrays
    exact ((hexact level).mp (ofText_iff.mpr (.inr hstrays))).not_strays hstrays
  · intro hnone level
    rw [ofText_iff, or_iff_left (hnone level)]

/-- A name in small letters, of which one is given by its code. -/
theorem spelling_read_iff_escaped :
    Json.IsStringDocument "fatal" " \"f\\u0061tal\"\n" ∧
      ofJson " \"f\\u0061tal\"\n" = .ok .fatal := by
  have htext : Json.IsStringDocument "fatal" " \"f\\u0061tal\"\n" := by
    have hgap (c : Char) (hc : Json.isGap c = true) : Json.IsGap [c] := by
      simpa [Json.IsGap] using hc
    refine @Json.IsStringDocument.mk "fatal" [' '] "f\\u0061tal".toList ['\n']
      ("fatal".toList.map .char) (hgap _ rfl) ?_ ?_ (hgap _ rfl) (by decide)
    · exact .plain (by decide) (by decide) (by decide) (.code (n := 0x61) rfl (.plain (by decide)
        (by decide) (by decide) (.plain (by decide) (by decide) (by decide) (.plain (by decide)
          (by decide) (by decide) .nil))))
    · exact .char (.char (.char (.char (.char .nil))))
  refine ⟨htext, ((spelling_read_iff "fatal").2.2.1 _ htext).trans ?_⟩
  rw [((spelling_read_iff "fatal").1 .fatal).mpr (.inl (.name (by decide)))]
  rfl

/-! ## 6. Texts that stray -/

/-- A rank with a plus sign, one with a zero in front and a name with a dotless i are read, though
none of them spells a level. -/
theorem signed_rank_read :
    ofText "+3" = .ok .error ∧ ofText "03" = .ok .error ∧ ofText "ınfo" = .ok .info ∧
      ∀ level, ¬ Spells "+3" level ∧ ¬ Spells "03" level ∧ ¬ Spells "ınfo" level := by
  have hsigned : Strays "+3" .error := @Strays.padded true 0 .error (by decide)
  have hpadded : Strays "03" .error := @Strays.padded false 1 .error (by decide)
  have hdotless : Strays "ınfo" .info := .dotless (by decide) (by decide)
  exact ⟨rfl, rfl, rfl, fun level => ⟨fun h => h.not_strays hsigned, fun h => h.not_strays hpadded,
    fun h => h.not_strays hdotless⟩⟩

end Level

end Logbook
