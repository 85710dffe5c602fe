import Mathlib.Data.List.DropRight
import Logbook.Config
import Logbook.Proofs.Json.Rereading

/-!
# Settings written and read again

A document may spell its settings in many ways: names by their second spelling, levels in any case
or by number, time formats with blanks around them or so malformed that the default takes their
place. What has been read no longer has any of this. It is written in one way, and that is read as
the same settings, with nothing to report.

What carries this is a property of settings that every step of reading keeps: their numbers fit 64
bits, and their time format is the one that its own name means. A pattern that was read is trimmed,
is not empty, is not the name of another format, and has no malformed specifier.

Results:
1. `TimeFormat.ofText_isReadable`: a time format that was read is the one its name means.
2. `Config.ofJson_isReadable`: settings that were read can be read again.
3. `Config.readMembers_written`: the members of a document as it is written.
4. `Config.ofJson_toJson`: the round trip.
-/

namespace Logbook

/-! ## 1. Time formats -/

namespace Text

theorem dropWhile_rdropWhile {α : Type} {p : α → Bool} {s : List α}
    (h : s.dropWhile p = s) : (s.rdropWhile p).dropWhile p = s.rdropWhile p := by
  rw [List.dropWhile_eq_self_iff] at h ⊢
  intro hl
  have hhead := (List.rdropWhile_prefix p (l := s)).getElem hl
  rw [hhead]
  exact h _

theorem trim_trim (s : List Char) : trim (trim s) = trim s := by
  have hfront : (s.dropWhile isBlank).dropWhile isBlank = s.dropWhile isBlank :=
    List.dropWhile_idempotent _ _
  show ((List.rdropWhile isBlank (s.dropWhile isBlank)).dropWhile isBlank).rdropWhile isBlank = _
  rw [dropWhile_rdropWhile hfront]
  exact List.rdropWhile_idempotent _ _

theorem trimString_trimString (s : String) : trimString (trimString s) = trimString s := by
  rw [trimString, trimString, String.toList_ofList, trim_trim]

end Text

namespace TimeFormat

/-- A format that its own name means. -/
def IsReadable (format : TimeFormat) : Prop :=
  ofTrimmed? (Text.trimString format.name) = some format

theorem default_isReadable : default.IsReadable := by
  unfold IsReadable
  decide +kernel

/-- The name of the format that a text means is the text itself, unless the text is empty. -/
theorem name_of_ofTrimmed? {s : String} {format : TimeFormat} (h : ofTrimmed? s = some format) :
    format = default ∨ format.name = s := by
  unfold ofTrimmed? at h
  grind [name]

theorem ofTrimmed?_isReadable {s : String} {format : TimeFormat} (hs : Text.trimString s = s)
    (h : ofTrimmed? s = some format) : format.IsReadable := by
  rcases name_of_ofTrimmed? h with rfl | hname
  · exact default_isReadable
  · rw [IsReadable, hname, hs]
    exact h

theorem ofText_isReadable (s : String) : (ofText s).IsReadable := by
  unfold ofText
  cases h : ofTrimmed? (Text.trimString s) with
  | none => exact default_isReadable
  | some format => exact ofTrimmed?_isReadable (Text.trimString_trimString s) h

theorem IsReadable.ofText_name {format : TimeFormat} (h : format.IsReadable) :
    ofText format.name = format := by
  rw [ofText, h]
  rfl

theorem IsReadable.reports_name {format : TimeFormat} (h : format.IsReadable) :
    reports format.name = [] := by
  rw [reports, h]
  rfl

end TimeFormat

namespace Config

/-! ## 2. What reading gives -/

/-- Settings that can be written and read again. -/
structure IsReadable (config : Config) : Prop where
  maxSize : config.maxSize ≤ Json.largestWord
  syncInterval : config.syncInterval ≤ Json.largestWord
  timeFormat : config.timeFormat.IsReadable

theorem default_isReadable : default.IsReadable :=
  ⟨by decide, by decide, TimeFormat.default_isReadable⟩

theorem Draft.put_isReadable {α : Type} {draft : Draft} {store : Draft → α → Draft}
    {result : Except Json.Error (α × List Char)} (h : draft.config.IsReadable)
    (hstore : ∀ a rest, result = .ok (a, rest) → (store draft a).config.IsReadable) :
    (draft.put result store).1.config.IsReadable := by
  unfold Draft.put
  split
  · next a rest => exact hstore a rest rfl
  · exact h

theorem Draft.readMember_isReadable {draft : Draft} (h : draft.config.IsReadable) (s : List Char)
    (m : Member) : (draft.readMember s m).1.config.IsReadable := by
  obtain ⟨hmax, hsync, htime⟩ := h
  cases m with
  | std => exact put_isReadable ⟨hmax, hsync, htime⟩ fun _ _ _ => ⟨hmax, hsync, htime⟩
  | path => exact put_isReadable ⟨hmax, hsync, htime⟩ fun _ _ _ => ⟨hmax, hsync, htime⟩
  | maxSize =>
    exact put_isReadable ⟨hmax, hsync, htime⟩ fun _ _ hread =>
      ⟨Json.le_largestWord_of_readNat hread, hsync, htime⟩
  | link => exact put_isReadable ⟨hmax, hsync, htime⟩ fun _ _ _ => ⟨hmax, hsync, htime⟩
  | level => exact put_isReadable ⟨hmax, hsync, htime⟩ fun _ _ _ => ⟨hmax, hsync, htime⟩
  | timeFormat =>
    exact put_isReadable ⟨hmax, hsync, htime⟩ fun v _ _ =>
      ⟨hmax, hsync, TimeFormat.ofText_isReadable v⟩
  | fileLine => exact put_isReadable ⟨hmax, hsync, htime⟩ fun _ _ _ => ⟨hmax, hsync, htime⟩
  | syncInterval =>
    exact put_isReadable ⟨hmax, hsync, htime⟩ fun _ _ hread =>
      ⟨hmax, Json.le_largestWord_of_readNat hread, htime⟩

theorem Outcome.andThen_isReadable {outcome : Outcome} {next : Draft → List Char → Outcome}
    (h : outcome.1.config.IsReadable)
    (hnext : ∀ draft s, draft.config.IsReadable → (next draft s).1.config.IsReadable) :
    (outcome.andThen next).1.config.IsReadable := by
  obtain ⟨draft, _ | rest⟩ := outcome
  · exact h
  · exact hnext draft rest h

theorem readMembers_isReadable (turns : Nat) {draft : Draft} (h : draft.config.IsReadable)
    (seen : List Member) (first : Bool) (s : List Char) :
    (readMembers turns draft seen first s).1.config.IsReadable := by
  induction turns generalizing draft seen first s with
  | zero => exact h
  | succ turns ih =>
    unfold readMembers
    split
    · exact h
    · exact h
    split
    · split
      · exact h
      split
      · exact h
      · exact Outcome.andThen_isReadable (Draft.readMember_isReadable h _ _)
          fun draft s hd => ih hd _ false s
    · split
      · exact h
      · exact ih h _ _ _

theorem readItems_isReadable (members : List Member) {draft : Draft} (h : draft.config.IsReadable)
    (first : Bool) (s : List Char) : (readItems draft first s members).1.config.IsReadable := by
  induction members generalizing draft first s with
  | nil => exact h
  | cons m members ih =>
    unfold readItems
    split
    · exact h
    · exact h
    · exact Outcome.andThen_isReadable (Draft.readMember_isReadable h _ m)
        fun draft s hd => ih hd false s

theorem readFront_isReadable (s : List Char) : (readFront s).1.config.IsReadable := by
  unfold readFront
  dsimp only
  split
  · exact default_isReadable
  · exact readMembers_isReadable _ default_isReadable _ _ _
  · exact readItems_isReadable _ default_isReadable _ _
  · exact default_isReadable

theorem ofJson_isReadable {text : String} {config : Config} (h : (ofJson text).1 = .ok config) :
    config.IsReadable := by
  have hfront := readFront_isReadable text.toList
  unfold ofJson at h
  split at h
  · cases h
  · next draft rest heq =>
    rw [heq] at hfront
    cases hend : Json.endDocument rest with
    | error e =>
      rw [hend] at h
      cases h
    | ok =>
      rw [hend] at h
      cases h
      exact hfront

/-! ## 3. Member by member -/

theorem levelOfText_name (level : Level) : levelOfText level.name = .ok level := by
  cases level <;> rfl

theorem readLevel_quote (level : Level) (rest : List Char) :
    readLevel (Json.quote .document level.name.toList ++ rest) = .ok (level, rest) := by
  rw [Json.quote_append, readLevel, Json.skipGap_eq (.cons rfl)]
  split
  · next heq => cases heq
  · next heq =>
    obtain ⟨-, rfl⟩ := List.cons.inj heq
    rw [Json.readStringRest_escapeText]
    show (levelOfText (String.ofList level.name.toList) >>= fun level => .ok (level, rest)) = _
    rw [String.ofList_toList, levelOfText_name]
    rfl
  · next heq => exact absurd (List.cons.inj heq).1 (by decide)
  · next hquote _ heq => exact absurd (List.cons.inj heq).1.symm hquote

theorem Member.ofName?_name (m : Member) : Member.ofName? m.name = some m := by
  cases m <;> rfl

/-- Settings with one member taken from `config`. -/
def adopt (config : Config) (target : Config) : Member → Config
  | .std => { target with std := config.std }
  | .path => { target with path := config.path }
  | .maxSize => { target with maxSize := config.maxSize }
  | .link => { target with link := config.link }
  | .level => { target with level := config.level }
  | .timeFormat => { target with timeFormat := config.timeFormat }
  | .fileLine => { target with fileLine := config.fileLine }
  | .syncInterval => { target with syncInterval := config.syncInterval }

/-- All members make up the settings. -/
theorem foldl_adopt_tail (config target : Config) :
    Member.all.tail.foldl config.adopt (config.adopt target .std) = config := by
  cases config
  cases target
  simp only [Member.all, List.tail_cons, List.foldl_cons, List.foldl_nil, adopt]

/-- A draft with one member taken from `config`. -/
def Draft.adopt (config : Config) (draft : Draft) (m : Member) : Draft :=
  ⟨config.adopt draft.config m, draft.reports⟩

theorem Draft.readMember_text {config : Config} (h : config.IsReadable) (draft : Draft)
    (m : Member) {rest : List Char} (hr : Json.EndsNumber rest) :
    draft.readMember (m.text config ++ rest) m = (draft.adopt config m, .ok rest) := by
  cases m with
  | std => rw [readMember, Member.text, Json.readBool_boolText]; rfl
  | path => rw [readMember, Member.text, Json.readText_quote]; rfl
  | maxSize => rw [readMember, Member.text, Json.readNat_digitsOf h.maxSize hr]; rfl
  | link => rw [readMember, Member.text, Json.readText_quote]; rfl
  | level => rw [readMember, Member.text, readLevel_quote]; rfl
  | timeFormat =>
    rw [readMember, Member.text, Json.readText_quote, put, h.timeFormat.ofText_name,
      h.timeFormat.reports_name, List.append_nil]
    rfl
  | fileLine => rw [readMember, Member.text, Json.readBool_boolText]; rfl
  | syncInterval => rw [readMember, Member.text, Json.readNat_digitsOf h.syncInterval hr]; rfl

/-- A member with its name. -/
def Member.written (config : Config) (m : Member) : List Char :=
  Json.quote .document m.name.toList ++ ':' :: m.text config

/-- What stands before a member. -/
def lead (first : Bool) : List Char := if first then [] else [',']

theorem nextName_quote (first : Bool) (name : String) (rest : List Char) :
    Json.nextName first (lead first ++ (Json.quote .document name.toList ++ rest))
      = .ok (some name, rest) := by
  have hnamed : Json.nextName.named (Json.quote .document name.toList ++ rest)
      = .ok (some name, rest) := by
    rw [Json.quote_append, Json.nextName.named, Json.readStringRest_escapeText]
    show Except.ok (some (String.ofList name.toList), rest) = _
    rw [String.ofList_toList]
  rw [Json.quote_append] at hnamed ⊢
  cases first with
  | true => exact (Json.nextName_first rfl (by decide)).trans hnamed
  | false => exact (Json.nextName_comma rfl (by decide)).trans hnamed

/-- One turn of the reader takes one member as it is written. -/
theorem readMembers_member {config : Config} (h : config.IsReadable) (turns : Nat) (draft : Draft)
    {seen : List Member} (first : Bool) {m : Member} (hm : m ∉ seen) {rest : List Char}
    (hr : Json.EndsNumber rest) :
    readMembers (turns + 1) draft seen first (lead first ++ (m.written config ++ rest))
      = readMembers turns (draft.adopt config m) (m :: seen) false rest := by
  have hcolon : Json.readColon (':' :: (m.text config ++ rest)) = .ok (m.text config ++ rest) := by
    rw [Json.readColon, Json.skipGap_eq (.cons rfl)]
    rfl
  rw [Member.written, List.append_assoc, List.cons_append, readMembers, nextName_quote]
  dsimp only
  rw [Member.ofName?_name]
  dsimp only
  rw [if_neg (by rw [List.contains_iff_mem]; exact hm), hcolon]
  dsimp only
  rw [Draft.readMember_text h draft m hr]
  rfl

/-- The members behind the first one, as they are written, and the closing bracket. -/
def writtenRest (config : Config) (members : List Member) : List Char :=
  members.flatMap (fun m => ',' :: m.written config) ++ ['\x7d']

theorem endsNumber_writtenRest (config : Config) (members : List Member) :
    Json.EndsNumber (writtenRest config members) := by
  apply Json.Follows.endsNumber
  intro c hc
  cases members with
  | nil =>
    cases hc
    exact .inr (.inr (.inr rfl))
  | cons m members =>
    cases hc
    exact .inr (.inl rfl)

/-- The reader takes members as they are written, each in one turn, up to the closing bracket. -/
theorem readMembers_written {config : Config} (h : config.IsReadable) {members : List Member}
    {turns : Nat} (hturns : members.length < turns) (draft : Draft) {seen : List Member}
    (hnew : (members.reverse ++ seen).Nodup) :
    readMembers turns draft seen false (writtenRest config members)
      = (members.foldl (Draft.adopt config) draft, .ok []) := by
  obtain ⟨spare, rfl⟩ := Nat.exists_eq_add_of_lt hturns
  clear hturns
  -- by induction on the members still to come, of which each turn moves one to those seen
  induction members generalizing draft seen with
  | nil => rfl
  | cons m members ih =>
    rw [List.reverse_cons, List.append_assoc, List.singleton_append] at hnew
    have hm : m ∉ seen := (List.nodup_cons.mp (List.nodup_append.mp hnew).2.1).1
    have hsplit : writtenRest config (m :: members)
        = lead false ++ (m.written config ++ writtenRest config members) := by
      rw [writtenRest, List.flatMap_cons, List.append_assoc]
      rfl
    have hlength : (m :: members).length + spare = members.length + spare + 1 := by
      rw [List.length_cons]
      omega
    rw [hsplit, readMembers_member h _ draft false hm (endsNumber_writtenRest config members),
      hlength, ih (draft.adopt config m) hnew]
    rfl

theorem length_lt_writtenRest (config : Config) (members : List Member) :
    members.length < (writtenRest config members).length := by
  induction members with
  | nil => exact Nat.zero_lt_one
  | cons m members ih =>
    simp only [writtenRest, List.flatMap_cons, List.length_append, List.length_cons] at ih ⊢
    omega

/-! ## 4. The round trip -/

theorem join_comma (s : List Char) (parts : List (List Char)) :
    Text.join [','] (s :: parts) = s ++ parts.flatMap fun t => ',' :: t := by
  induction parts generalizing s with
  | nil => exact (List.append_nil s).symm
  | cons t parts ih =>
    rw [Text.join, ih, List.append_assoc, List.flatMap_cons]
    · rfl
    · exact fun ht => List.cons_ne_nil t parts ht

theorem toList_toJson (config : Config) :
    config.toJson.toList
      = '\x7b' :: (Member.std.written config ++ writtenRest config Member.all.tail) := by
  have hjoin : Text.join [','] (Member.all.map (Member.written config)) ++ ['\x7d']
      = Member.std.written config ++ writtenRest config Member.all.tail := by
    rw [Member.all, List.map_cons, join_comma, List.append_assoc, List.flatMap_map]
    rfl
  rw [toJson, String.toList_ofList, ← hjoin]
  rfl

theorem foldl_draft_adopt (config : Config) (draft : Draft) (members : List Member) :
    members.foldl (Draft.adopt config) draft
      = ⟨members.foldl config.adopt draft.config, draft.reports⟩ := by
  induction members generalizing draft with
  | nil => rfl
  | cons m members ih => exact ih (draft.adopt config m)

theorem readFront_toJson {config : Config} (h : config.IsReadable) :
    readFront config.toJson.toList = (⟨config, []⟩, .ok []) := by
  let draft : Draft := ⟨default, []⟩
  let text := Member.std.written config ++ writtenRest config Member.all.tail
  have hturns : Member.all.tail.length < text.length := by
    have hrest := length_lt_writtenRest config Member.all.tail
    rw [List.length_append]
    omega
  have hnew : (Member.all.tail.reverse ++ [Member.std]).Nodup := by decide
  calc readFront config.toJson.toList
      = readMembers (text.length + 1) draft [] true text := by
        rw [toList_toJson, readFront, Json.skipGap_eq (.cons rfl)]
        rfl
    _ = readMembers text.length (draft.adopt config .std) [.std] false
          (writtenRest config Member.all.tail) :=
        readMembers_member h text.length draft true List.not_mem_nil
          (endsNumber_writtenRest config Member.all.tail)
    _ = (Member.all.tail.foldl (Draft.adopt config) (draft.adopt config .std), .ok []) :=
        readMembers_written h hturns _ hnew
    _ = (⟨config, []⟩, .ok []) := by
        have hstd : draft.adopt config .std = ⟨config.adopt default .std, []⟩ := rfl
        rw [foldl_draft_adopt, hstd, foldl_adopt_tail]

/-- Whatever document settings were read from, and whatever was reported then, they are written as
a document that is read as the same settings, with nothing to report. -/
theorem ofJson_toJson (text : String) (config : Config) (h : (ofJson text).1 = .ok config) :
    ofJson config.toJson = (.ok config, []) := by
  rw [ofJson, readFront_toJson (ofJson_isReadable h)]
  rfl

/-- Second spellings, a level in small letters, an escape, a member of no name, the largest number,
and a time format that is reported once. -/
theorem ofJson_toJson_respelled :
    let text := "\x7b\"timeformat\": \" %Q \", \"maxsize\": 18446744073709551615, " ++
      "\"other\": [0], \"level\": \"warning\", \"path\": \"\\u0061\\n-index.log\", " ++
      "\"syncinterval\":0\x7d"
    let config : Config :=
      ⟨false, "a\n-index.log", 18446744073709551615, "", .warning, .default, false, 0⟩
    (ofJson text).1 = .ok config ∧
      (ofJson text).2.map Report.line
        = ["[WARN] Invalid time format '%Q', using '%Y-%m-%d %H:%M:%S'\n"] ∧
      ofJson config.toJson = (.ok config, []) := by
  intro text config
  have hread : (ofJson text).1 = .ok config := by decide +kernel
  exact ⟨hread, by decide +kernel, ofJson_toJson text config hread⟩

end Config

end Logbook
