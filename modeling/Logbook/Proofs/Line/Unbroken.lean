import Logbook.Proofs.Line.Reading
import Logbook.Proofs.Logger.Agreement

/-!
# Lines that stay lines

Whatever a call is given, its record becomes one line and no more. Keys, messages, texts and the
reasons of failures go through the escapes, which leave no control byte; numbers and the words for
them have none; and bytes that need not be characters become characters. Only two things are written
as they are, the bodies of values that describe themselves as JSON and the text of the time, and for
these it is asked for.

Results:
1. `Unbroken`: bytes of a text without a control byte.
2. `Value.encode_unbroken`: values, in every form that they are written in.
3. `Record.line_isLine`: the line of a record.
4. `line_stays_one_line`: a finished record, and what it adds to a sink.
-/

namespace Logbook

open Json (IsPlain)

/-! ## 1. Bytes without a control byte -/

/-- The bytes of a text, none of which is a control byte. -/
structure Unbroken (bytes : Bytes) : Prop where
  text : ∃ s, bytes = Utf8.encode s
  bytes_ge : ∀ b ∈ bytes, 0x20 ≤ b

theorem Unbroken.append {a b : Bytes} (ha : Unbroken a) (hb : Unbroken b) : Unbroken (a ++ b) := by
  obtain ⟨s, rfl⟩ := ha.text
  obtain ⟨t, rfl⟩ := hb.text
  refine ⟨⟨s ++ t, (Utf8.encode_append s t).symm⟩, fun b hmem => ?_⟩
  exact (List.mem_append.mp hmem).elim (ha.bytes_ge b) (hb.bytes_ge b)

theorem Utf8.ofNat_ge {k n : Nat} (hn : n < 256) (h : k ≤ n) : k ≤ (UInt8.ofNat n).toNat := by
  rw [Utf8.toNat_ofNat hn]
  exact h

/-- A character is one byte, or bytes that all have their top bit. -/
theorem Utf8.encodeChar_ge {k : Nat} (hk : k ≤ 0x80) {c : Char} (h : k ≤ c.toNat) :
    ∀ b ∈ String.utf8EncodeChar c, k ≤ b.toNat := by
  have hr := Utf8.char_range c
  have hv : c.val.toNat = c.toNat := rfl
  intro b hb
  simp only [String.utf8EncodeChar, hv] at hb
  split at hb
  · rw [List.mem_singleton.mp hb]
    exact Utf8.ofNat_ge (by omega) h
  split at hb
  · simp only [List.mem_cons, List.not_mem_nil, or_false] at hb
    rcases hb with rfl | rfl <;> exact Utf8.ofNat_ge (by omega) (by omega)
  split at hb
  · simp only [List.mem_cons, List.not_mem_nil, or_false] at hb
    rcases hb with rfl | rfl | rfl <;> exact Utf8.ofNat_ge (by omega) (by omega)
  · simp only [List.mem_cons, List.not_mem_nil, or_false] at hb
    rcases hb with rfl | rfl | rfl | rfl <;> exact Utf8.ofNat_ge (by omega) (by omega)

/-- No character of a text is a control character. -/
def NoControl (s : List Char) : Prop := ∀ c ∈ s, 0x20 ≤ c.toNat

instance (s : List Char) : Decidable (NoControl s) :=
  List.decidableBAll (fun c : Char => 0x20 ≤ c.toNat) s

theorem unbroken_encode {s : List Char} (h : NoControl s) : Unbroken (Utf8.encode s) := by
  refine ⟨⟨s, rfl⟩, fun b hb => ?_⟩
  obtain ⟨c, hc, hbc⟩ := List.mem_flatMap.mp hb
  exact UInt8.le_iff_toNat_le.2 (Utf8.encodeChar_ge (by decide) (h c hc) b hbc)

theorem unbroken_nil : Unbroken [] := unbroken_encode (s := []) fun _ h => absurd h List.not_mem_nil

theorem unbroken_comma (first : Bool) : Unbroken (comma first) := by
  cases first with
  | true => exact unbroken_nil
  | false => exact unbroken_encode (by decide)

/-! ## 2. Values -/

namespace Json

/-- No escape holds a control character, and what is not escaped is none. -/
theorem noControl_escapeChar (c : Char) : NoControl (escapeChar .line c) := by
  have hcode : ∀ n < 0x20, NoControl (codeEscape (Char.ofNat n)) := by decide
  unfold escapeChar
  split
  · next hc =>
    rcases Bool.or_eq_true_iff.mp hc with hq | hb
    · rw [of_decide_eq_true hq]
      decide
    · rw [of_decide_eq_true hb]
      decide
  split
  · next letter hl =>
    simp only [Letters.line] at hl
    split at hl <;> cases hl <;> decide
  split
  · next hlow =>
    have := hcode c.toNat hlow
    rwa [Char.ofNat_toNat] at this
  · next hhigh =>
    intro d hd
    rw [List.mem_singleton.mp hd]
    omega

theorem noControl_escapeText (s : List Char) : NoControl (escapeText .line s) := by
  intro d hd
  obtain ⟨c, -, hdc⟩ := List.mem_flatMap.mp hd
  exact noControl_escapeChar c d hdc

/-- Bytes that belong to no character are written by a code. -/
theorem noControl_escapeBytes (bytes : Bytes) : NoControl (escapeBytes .line bytes) := by
  have hcode : NoControl ['\\', 'u', 'f', 'f', 'f', 'd'] := by decide
  intro d hd
  obtain ⟨p, -, hdp⟩ := List.mem_flatMap.mp hd
  cases p with
  | char c => exact noControl_escapeChar c d hdp
  | stray b => exact hcode d hdp

end Json

theorem NoControl.quoted {s : List Char} (h : NoControl s) : NoControl ('"' :: s ++ ['"']) := by
  intro c hc
  simp only [List.cons_append, List.mem_cons, List.mem_append, List.not_mem_nil, or_false] at hc
  rcases hc with rfl | hc | rfl
  · decide
  · exact h c hc
  · decide

theorem unbroken_quote (s : List Char) : Unbroken (Utf8.encode (Json.quote .line s)) :=
  unbroken_encode (Json.noControl_escapeText s).quoted

theorem unbroken_plain {s : List Char} (h : ∀ c ∈ s, IsPlain c) : Unbroken (Utf8.encode s) :=
  unbroken_encode fun c hc => (h c hc).1

theorem digitChar_ge (n : Nat) : 0x20 ≤ (Nat.digitChar n).toNat := by
  have hsmall : ∀ n < 16, 0x20 ≤ (Nat.digitChar n).toNat := by decide
  by_cases hn : n < 16
  · exact hsmall n hn
  · rw [Nat.digitChar_eq_star.mpr (by omega)]
    decide

theorem noControl_toDigits {base : Nat} (hbase : 1 < base) (n : Nat) :
    NoControl (Nat.toDigits base n) := by
  induction n using Nat.strongRecOn with
  | ind n ih =>
    rw [Nat.toDigits_eq_if hbase]
    split
    · intro c hc
      rw [List.mem_singleton.mp hc]
      exact digitChar_ge n
    · next hle =>
      have hlt : n / base < n := Nat.div_lt_self (by omega) hbase
      intro c hc
      rcases List.mem_append.mp hc with hc | hc
      · exact ih _ hlt c hc
      · rw [List.mem_singleton.mp hc]
        exact digitChar_ge _

theorem noControl_hexText (n : Nat) : NoControl (hexText n) := by
  intro c hc
  simp only [hexText, List.mem_cons] at hc
  rcases hc with rfl | rfl | hc
  · decide
  · decide
  · exact noControl_toDigits (by decide) n c hc

mutual

/-- Whether every JSON body that is written of a value is the bytes of a text without a control
byte. Nothing is asked of anything else. -/
def Value.HasUnbrokenBodies : Value → Prop
  | .list items => Value.ItemsHaveUnbrokenBodies items
  | .map pairs => Value.PairsHaveUnbrokenBodies pairs
  | .record fields => Value.FieldsHaveUnbrokenBodies fields
  | .custom c => c.HasUnbrokenBodies
  | .null | .bool _ | .int _ | .uint _ | .float _ | .complex _ _ | .text _ | .time _
  | .address _ => True

def Value.ItemsHaveUnbrokenBodies : List Value → Prop
  | [] => True
  | item :: rest => item.HasUnbrokenBodies ∧ Value.ItemsHaveUnbrokenBodies rest

def Value.PairsHaveUnbrokenBodies : List (Value × Value) → Prop
  | [] => True
  | (key, value) :: rest =>
    key.HasUnbrokenBodies ∧ value.HasUnbrokenBodies ∧ Value.PairsHaveUnbrokenBodies rest

/-- The same for fields, of which hidden ones are not written. -/
def Value.FieldsHaveUnbrokenBodies : List Field → Prop
  | [] => True
  | .mk declared tag? exported value :: rest =>
    ((Field.mk declared tag? exported value).name?.isSome → value.HasUnbrokenBodies) ∧
      Value.FieldsHaveUnbrokenBodies rest

def Custom.HasUnbrokenBodies : Custom → Prop
  | .mk (some (.ok body)) _ _ _ _ => Unbroken body
  | .mk none none none none inner => inner.HasUnbrokenBodies
  | _ => True

end

/-- A part of a value between two brackets, or any other two characters. -/
theorem Unbroken.between {bytes : Bytes} (h : Unbroken bytes) {a b : Char} (ha : 0x20 ≤ a.toNat)
    (hb : 0x20 ≤ b.toNat) : Unbroken (Utf8.encode [a] ++ bytes ++ Utf8.encode [b]) := by
  have hone {c : Char} (hc : 0x20 ≤ c.toNat) : Unbroken (Utf8.encode [c]) :=
    unbroken_encode fun d hd => List.mem_singleton.mp hd ▸ hc
  exact ((hone ha).append h).append (hone hb)

/-- A name and what it names, behind the comma. -/
theorem Unbroken.member {name value : Bytes} (hname : Unbroken name) (hvalue : Unbroken value)
    (first : Bool) : Unbroken (comma first ++ name ++ Utf8.encode [':'] ++ value) :=
  (((unbroken_comma first).append hname).append (unbroken_encode (by decide))).append hvalue

mutual

/-- What is written of a value has no control byte in it, in whichever form it is written. -/
theorem Value.encode_unbroken : ∀ v : Value, v.HasUnbrokenBodies → Unbroken v.encode
  | .null, _ => unbroken_encode (by decide)
  | .bool true, _ => unbroken_encode (by decide)
  | .bool false, _ => unbroken_encode (by decide)
  | .int n, _ => unbroken_plain (isPlain_numeral (isNumeral_intText n))
  | .uint n, _ => unbroken_plain (isPlain_numeral (isNumeral_digitsOf n))
  | .float bits, _ => unbroken_plain (isPlain_floatText bits)
  | .complex re im, _ => by
    have h := unbroken_encode (NoControl.quoted fun c hc => (isPlain_complexText re im c hc).1)
    simpa [Value.encode, complexText] using h
  | .text s, _ => unbroken_quote s.toList
  | .time t, _ => unbroken_quote t.rfc3339
  | .address n, _ => by
    rw [Value.encode]
    split
    · exact unbroken_encode (by decide)
    · exact unbroken_encode (noControl_hexText n)
  | .list items, h => (Value.encodeItems_unbroken items h true).between (by decide) (by decide)
  | .map pairs, h => (Value.encodePairs_unbroken pairs h true).between (by decide) (by decide)
  | .record fields, h => (Value.encodeFields_unbroken fields h true).between (by decide) (by decide)
  | .custom c, h => Custom.encode_unbroken c h

theorem Value.encodeItems_unbroken : ∀ items : List Value, Value.ItemsHaveUnbrokenBodies items →
    ∀ first, Unbroken (Value.encodeItems first items)
  | [], _, _ => unbroken_nil
  | item :: rest, ⟨hitem, hrest⟩, first =>
    ((unbroken_comma first).append (Value.encode_unbroken item hitem)).append
      (Value.encodeItems_unbroken rest hrest false)

theorem Value.encodePairs_unbroken : ∀ pairs : List (Value × Value),
    Value.PairsHaveUnbrokenBodies pairs → ∀ first, Unbroken (Value.encodePairs first pairs)
  | [], _, _ => unbroken_nil
  | (key, value) :: rest, ⟨hkey, hvalue, hrest⟩, first =>
    (Unbroken.member (Value.encode_unbroken key hkey) (Value.encode_unbroken value hvalue)
      first).append (Value.encodePairs_unbroken rest hrest false)

theorem Value.encodeFields_unbroken : ∀ fields : List Field,
    Value.FieldsHaveUnbrokenBodies fields → ∀ first, Unbroken (Value.encodeFields first fields)
  | [], _, _ => unbroken_nil
  | .mk declared tag? exported value :: rest, ⟨hvalue, hrest⟩, first => by
    cases hn : (Field.mk declared tag? exported value).name? with
    | none =>
      simp only [Value.encodeFields, hn]
      exact Value.encodeFields_unbroken rest hrest first
    | some name =>
      simp only [Value.encodeFields, hn]
      exact (Unbroken.member (unbroken_quote name.toList)
        (Value.encode_unbroken value (hvalue (hn ▸ rfl))) first).append
          (Value.encodeFields_unbroken rest hrest false)

theorem Custom.encode_unbroken : ∀ c : Custom, c.HasUnbrokenBodies → Unbroken c.encode
  | .mk (some (.ok _)) _ _ _ _, h => h
  | .mk (some (.error reason)) _ _ _ _, _ => unbroken_quote reason.toList
  | .mk none (some (.ok body)) _ _ _, _ =>
    unbroken_encode (Json.noControl_escapeBytes body).quoted
  | .mk none (some (.error reason)) _ _ _, _ => unbroken_quote reason.toList
  | .mk none none (some text) _ _, _ => unbroken_quote text.toList
  | .mk none none none (some text) _, _ => unbroken_quote text.toList
  | .mk none none none none inner, h => Value.encode_unbroken inner h

end

/-! ## 3. Lines -/

/-- One line and nothing else: a text that ends in a closing brace and a line feed, with no other
control byte. -/
def IsLine (bytes : Bytes) : Prop :=
  ∃ s, bytes = Utf8.encode (s ++ ['\x7d', '\n']) ∧ ∀ b ∈ Utf8.encode (s ++ ['\x7d']), 0x20 ≤ b

/-- A line has one line feed. -/
theorem IsLine.count {bytes : Bytes} (h : IsLine bytes) : bytes.count 0x0A = 1 := by
  obtain ⟨s, rfl, hs⟩ := h
  have hnone : (Utf8.encode (s ++ ['\x7d'])).count 0x0A = 0 :=
    List.count_eq_zero.mpr fun hmem => absurd (hs _ hmem) (by decide)
  rw [show s ++ ['\x7d', '\n'] = (s ++ ['\x7d']) ++ ['\n'] by simp, Utf8.encode_append,
    List.count_append, hnone]
  rfl

namespace Line

theorem head_unbroken {time : List Char} (htime : NoControl time) (level : Level) :
    Unbroken (Utf8.encode ("\x7b\"time\":\"".toList ++ time ++ "\",\"level\":\"".toList ++
      level.name.toList ++ ['"'])) := by
  simp only [Utf8.encode_append]
  exact ((((unbroken_encode (by decide)).append (unbroken_encode htime)).append
    (unbroken_encode (by decide))).append (unbroken_plain (Level.isPlain_name level))).append
      (unbroken_encode (by decide))

theorem fields_unbroken (pairs : List (String × Value)) :
    (∀ p ∈ pairs, p.2.HasUnbrokenBodies) →
      Unbroken (pairs.flatMap fun (key, value) => field key value) := by
  induction pairs with
  | nil => exact fun _ => unbroken_nil
  | cons p rest ih =>
    intro hp
    have hvalue := p.2.encode_unbroken (hp p List.mem_cons_self)
    have hfield := (Unbroken.member (unbroken_quote p.1.toList) hvalue false).append
      (ih fun q hq => hp q (List.mem_cons_of_mem _ hq))
    simpa [field, comma, quoteLine, Utf8.encode_cons, Utf8.encode_append] using hfield

theorem message_unbroken (s : String) : Unbroken (message s) := by
  unfold message
  split
  · exact unbroken_nil
  · rw [Utf8.encode_append]
    exact (unbroken_encode (by decide)).append (unbroken_quote s.toList)

end Line

/-- The line of a record whose JSON bodies have no control byte, at a time whose text has none. -/
theorem Record.line_isLine {format : TimeFormat} {time : Time.Stamp} {r : Record}
    (hbodies : ∀ p ∈ r.keys.zip r.vals, p.2.HasUnbrokenBodies)
    (htime : NoControl (format.render time)) : IsLine (r.line format time) := by
  have hfront := ((Line.head_unbroken htime r.level).append
    (Line.fields_unbroken _ hbodies)).append (Line.message_unbroken r.message)
  obtain ⟨s, hs⟩ := hfront.text
  have hbrace : Unbroken (Utf8.encode ['\x7d']) := unbroken_encode (by decide)
  refine ⟨s, ?_, ?_⟩
  · rw [Utf8.encode_append, ← hs]
    rfl
  · rw [Utf8.encode_append, ← hs]
    exact (hfront.append hbrace).bytes_ge

/-! ## 4. Finished records -/

theorem itemsHaveUnbrokenBodies_texts (frames : List Frame) :
    Value.ItemsHaveUnbrokenBodies (frames.map fun frame => .text (stackEntry frame)) := by
  induction frames with
  | nil => trivial
  | cons frame rest ih => exact ⟨trivial, ih⟩

/-- What is told of the caller are texts and numbers. -/
theorem Record.capture_eq_addFields (stack : List Frame) (r : Record) :
    ∃ fields, r.capture stack = r.addFields fields ∧ ∀ p ∈ fields, p.2.HasUnbrokenBodies := by
  have hnothing : r = r.addFields [] := by simp [addFields]
  unfold capture
  cases r.caller.mode with
  | none | disabled => exact ⟨[], hnothing, fun _ h => absurd h List.not_mem_nil⟩
  | stack =>
    refine ⟨_, rfl, fun p hp => ?_⟩
    rw [List.mem_singleton.mp hp]
    exact itemsHaveUnbrokenBodies_texts _
  | location =>
    refine ⟨_, rfl, fun p hp => ?_⟩
    simp only [locationFields, List.mem_cons, List.not_mem_nil, or_false] at hp
    rcases hp with rfl | rfl | rfl <;> exact trivial

/-- The fields that a backend adds to a record have no body of their own. -/
theorem JsonBackend.complete_isLine {b : JsonBackend} {time : Time.Stamp} {r : Record}
    (hbodies : ∀ p ∈ r.keys.zip r.vals, p.2.HasUnbrokenBodies)
    (htime : NoControl (b.format.render time)) (stack : List Frame) :
    IsLine (b.complete stack time r).buffer := by
  obtain ⟨hlen, hzip⟩ := balance_zip r
  obtain ⟨fields, hcapture, hfields⟩ := r.balance.capture_eq_addFields stack
  refine Record.line_isLine (fun p hp => ?_) htime
  rw [hcapture, addFields_zip fields hlen, hzip] at hp
  rcases List.mem_append.mp hp with hp | hp
  · rcases List.mem_append.mp hp with hp | hp
    · exact hbodies p hp
    · split at hp
      · exact absurd hp List.not_mem_nil
      · rw [List.mem_singleton.mp hp]
        trivial
  · exact hfields p hp

/-- Whatever its keys, its message and its values are, a record is written as one line: a text that
ends in a closing brace and a line feed and has no other control byte. Of the bodies that are taken
as they are, and of the text of the time, the same is asked. So what a backend adds to what its sink
has received is one line for a finished record, with one line feed, and nothing for an empty one. -/
theorem line_stays_one_line (format : TimeFormat) (time : Time.Stamp) (r : Record)
    (hbodies : ∀ p ∈ r.keys.zip r.vals, p.2.HasUnbrokenBodies)
    (htime : NoControl (format.render time)) :
    IsLine (r.withLine format time).buffer ∧
    ∀ {b : JsonBackend} {taker : Taker} {threshold : Level} {caller : CallerDepth} {host : Host},
      b.IsReady taker threshold caller host → b.format = format →
      r.time?.getD host.localNow = time → ∀ stack : List Frame,
      ∃ line, IsLine line ∧ line.count 0x0A = 1 ∧
        taker.received (b.finalize stack r host).1.sink (b.finalize stack r host).2 =
          taker.received b.sink host ++ if r.isEmpty then [] else line := by
  refine ⟨Record.line_isLine hbodies htime, ?_⟩
  intro b taker threshold caller host hready hformat hnow stack
  subst hformat hnow
  have hline := JsonBackend.complete_isLine hbodies htime stack
  obtain ⟨b', host', hfinal, -, -, -, -, hreceived⟩ := hready.finalize stack r
  refine ⟨_, hline, hline.count, ?_⟩
  rw [hfinal]
  exact hreceived

/-- Line feeds wherever a caller can put them: in a key, in the message, in the tag of a field, in
the key of a map, in a text that is no UTF-8, in the reason of a failure; numbers and an address
that JSON has no form for; and a body of its own. -/
def forgingRecord : Record :=
  { Record.blank with
    message := "done\n\x7b\"level\":\"FATAL\"\x7d"
    keys := ["user\nid", "n", "map", "text", "failed", "body"]
    vals := [.text "ana\r\n", .list [.float 0x7FF8000000000000, .float 0xFFF0000000000000],
      .map [(.list [.text "\n"], .record [.mk "A" (some "a\nb") true (.address 64206)])],
      .custom (.mk none (some (.ok [0x0A, 0xFF, 0x41, 0xC3])) none none .null),
      .custom (.mk (some (.error "bad\nvalue")) none none none .null),
      .custom (.mk none none none none (.custom
        (.mk (some (.ok (Utf8.encode "\x7b\"ok\":true\x7d".toList))) none none none .null)))] }

/-- A backend that writes to memory and tells where calls were emitted. -/
def memoryBackend : JsonBackend := .new (.memory "out") .info .location .rfc3339 0

theorem line_stays_one_line_forging :
    (∀ p ∈ forgingRecord.keys.zip forgingRecord.vals, p.2.HasUnbrokenBodies) ∧
    NoControl (TimeFormat.rfc3339.render ⟨⟨0, 0⟩, 0⟩) ∧
    IsLine (forgingRecord.withLine .rfc3339 ⟨⟨0, 0⟩, 0⟩).buffer ∧
    ∃ line, IsLine line ∧ line.count 0x0A = 1 ∧
      (Taker.memory "out").received
          (memoryBackend.finalize [] forgingRecord (.start "/" (.fixed 0) ⟨0, 0⟩)).1.sink
          (memoryBackend.finalize [] forgingRecord (.start "/" (.fixed 0) ⟨0, 0⟩)).2 =
        (Taker.memory "out").received memoryBackend.sink (.start "/" (.fixed 0) ⟨0, 0⟩) ++
          if forgingRecord.isEmpty then [] else line := by
  have hbody : Unbroken (Utf8.encode "\x7b\"ok\":true\x7d".toList) := unbroken_encode (by decide)
  have hall : ∀ v ∈ forgingRecord.vals, v.HasUnbrokenBodies := by
    simp only [forgingRecord, List.mem_cons, List.not_mem_nil, or_false, forall_eq_or_imp,
      forall_eq]
    exact ⟨trivial, ⟨trivial, trivial, trivial⟩, ⟨⟨trivial, trivial⟩, ⟨fun _ => trivial, trivial⟩,
      trivial⟩, trivial, trivial, hbody⟩
  have hbodies : ∀ p ∈ forgingRecord.keys.zip forgingRecord.vals, p.2.HasUnbrokenBodies :=
    fun p hp => hall p.2 (List.of_mem_zip hp).2
  have htime : NoControl (TimeFormat.rfc3339.render ⟨⟨0, 0⟩, 0⟩) := by decide
  obtain ⟨hline, hfinal⟩ := line_stays_one_line .rfc3339 ⟨⟨0, 0⟩, 0⟩ forgingRecord hbodies htime
  have hready : memoryBackend.IsReady (.memory "out") .info (.ofMode .location)
      (.start "/" (.fixed 0) ⟨0, 0⟩) := ⟨rfl, Pool.isFresh_empty _ _ _⟩
  exact ⟨hbodies, htime, hline, hfinal hready rfl rfl []⟩

end Logbook
