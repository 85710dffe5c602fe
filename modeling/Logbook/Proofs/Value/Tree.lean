import Logbook.Proofs.Decimal.Rounding
import Logbook.Proofs.Json.Escaping
import Logbook.Proofs.Json.Reading

/-!
# What values stand for

Every value whose parts have a form in JSON is written as one JSON text, and `Value.tree` says what
that text stands for:

| value                        | tree                                         |
|------------------------------|----------------------------------------------|
| `null`, the address zero     | null                                         |
| `bool`                       | the truth value                              |
| `int`, `uint`                | the number                                   |
| `float`, if finite           | a number nearest to it                       |
| `complex`, `text`, `time`    | a text                                       |
| `list`                       | the list of the trees                        |
| `map`                        | an object, in the order of the pairs         |
| `record`                     | an object of the fields that are not hidden  |
| `custom` with a JSON body    | what the body stands for                     |
| `custom` with another text   | that text, or the reason why there is none   |
| `custom` without description | the tree of its structure                    |

Results:
1. `Value.tree`, `Value.IsJson`: what values stand for, and which of them have a form in JSON.
2. `isPlain_complexText`: numbers need no escape.
3. `IsRow.cons`: commas stand between the parts that are written.
4. `Value.encode_isElement`: a value is written as a text that stands for its tree.
-/

namespace Logbook

open Decimal (Binary)
open Json (IsElement IsGap IsItems IsMembers IsNumeral IsPlain IsString IsValue Numeral Tree
  readable)

/-! ## 1. Trees -/

/-- Bytes are the text of a tree. -/
def Json.IsText (bytes : Bytes) (t : Tree) : Prop := ∃ s, bytes = Utf8.encode s ∧ IsElement s t

/-- The text that names a member, where a tree is one. -/
def Json.Tree.name? : Tree → Option String
  | .text s => some s
  | _ => none

/-- A complex number as it is written between quotes. -/
def complexText (re im : UInt64) : List Char := floatText re ++ '+' :: floatText im ++ ['i']

mutual

/-- What a value stands for. -/
def Value.tree : Value → Tree
  | .null => .null
  | .bool b => .bool b
  | .int n => .number (.ofInt n)
  | .uint n => .number (.ofInt n)
  | .float bits => .number (.ofDouble bits)
  | .complex re im => .text (String.ofList (complexText re im))
  | .text s => .text s
  | .time t => .text (String.ofList t.rfc3339)
  | .address _ => .null
  | .list items => .list (Value.itemTrees items)
  | .map pairs => .object (Value.pairTrees pairs)
  | .record fields => .object (Value.fieldTrees fields)
  | .custom c => c.tree

/-- What the items of a list stand for. -/
def Value.itemTrees : List Value → List Tree
  | [] => []
  | item :: rest => item.tree :: Value.itemTrees rest

/-- What the pairs of a map stand for. -/
def Value.pairTrees : List (Value × Value) → List (String × Tree)
  | [] => []
  | (key, value) :: rest => (key.tree.name?.getD "", value.tree) :: Value.pairTrees rest

/-- What the fields of a record stand for. Hidden ones are left out. -/
def Value.fieldTrees : List Field → List (String × Tree)
  | [] => []
  | .mk declared tag? exported value :: rest =>
    match (Field.mk declared tag? exported value).name? with
    | some name => (name, value.tree) :: Value.fieldTrees rest
    | none => Value.fieldTrees rest

/-- What a value that describes itself stands for. -/
def Custom.tree : Custom → Tree
  | .mk (some (.ok body)) _ _ _ _ => (Tree.ofBytes? body).getD .null
  | .mk (some (.error reason)) _ _ _ _ => .text reason
  | .mk none (some (.ok body)) _ _ _ => .text (String.ofList (readable body))
  | .mk none (some (.error reason)) _ _ _ => .text reason
  | .mk none none (some text) _ _ => .text text
  | .mk none none none (some text) _ => .text text
  | .mk none none none none inner => inner.tree

end

mutual

/-- Whether a value has a form in JSON: its numbers are finite and its addresses zero, the keys of
its maps are written as strings, and its JSON bodies are JSON texts. -/
def Value.IsJson : Value → Prop
  | .null | .bool _ | .int _ | .uint _ | .complex _ _ | .text _ | .time _ => True
  | .float bits => (Binary.ofDouble bits).isFinite = true
  | .address n => n = 0
  | .list items => Value.ItemsAreJson items
  | .map pairs => Value.PairsAreJson pairs
  | .record fields => Value.FieldsAreJson fields
  | .custom c => c.IsJson

/-- Whether all items of a list have a form in JSON. -/
def Value.ItemsAreJson : List Value → Prop
  | [] => True
  | item :: rest => item.IsJson ∧ Value.ItemsAreJson rest

/-- Whether all pairs of a map have a form in JSON. -/
def Value.PairsAreJson : List (Value × Value) → Prop
  | [] => True
  | (key, value) :: rest =>
    (key.IsJson ∧ key.tree.name?.isSome) ∧ value.IsJson ∧ Value.PairsAreJson rest

/-- Whether all fields of a record that are not hidden have a form in JSON. -/
def Value.FieldsAreJson : List Field → Prop
  | [] => True
  | .mk declared tag? exported value :: rest =>
    ((Field.mk declared tag? exported value).name?.isSome → value.IsJson) ∧
      Value.FieldsAreJson rest

/-- Whether a value that describes itself has a form in JSON. -/
def Custom.IsJson : Custom → Prop
  | .mk (some (.ok body)) _ _ _ _ => ∃ t, Json.IsText body t
  | .mk none none none none inner => inner.IsJson
  | _ => True

end

/-! ## 2. Plain texts -/

theorem isPlain_isDigit {c : Char} (h : c.isDigit = true) : IsPlain c := by
  rw [Char.isDigit, Bool.and_eq_true, decide_eq_true_eq, decide_eq_true_eq] at h
  have hlow : 48 ≤ c.toNat := h.1
  have hhigh : c.toNat ≤ 57 := h.2
  refine ⟨by omega, ?_, ?_⟩
  · rintro rfl
    exact absurd hlow (by decide)
  · rintro rfl
    exact absurd hhigh (by decide)

theorem isPlain_append {s t : List Char} (hs : ∀ c ∈ s, IsPlain c) (ht : ∀ c ∈ t, IsPlain c) :
    ∀ c ∈ s ++ t, IsPlain c := fun c hc =>
  (List.mem_append.mp hc).elim (hs c) (ht c)

theorem isPlain_cons {c : Char} {s : List Char} (hc : IsPlain c) (hs : ∀ c ∈ s, IsPlain c) :
    ∀ d ∈ c :: s, IsPlain d := fun d hd =>
  (List.mem_cons.mp hd).elim (fun h => h ▸ hc) (hs d)

/-- No character of a number needs an escape. -/
theorem isPlain_numeral {s : List Char} {n : Numeral} (h : IsNumeral s n) : ∀ c ∈ s, IsPlain c := by
  have hnil : ∀ c ∈ ([] : List Char), IsPlain c := fun c hc => absurd hc List.not_mem_nil
  have hdigits {s : List Char} (h : Json.IsDigits s) : ∀ c ∈ s, IsPlain c :=
    fun c hc => isPlain_isDigit (h.2 c hc)
  have hletter {e : Char} (h : e = 'e' ∨ e = 'E') : IsPlain e := by
    rcases h with rfl | rfl
    · exact ⟨by decide, by decide, by decide⟩
    · exact ⟨by decide, by decide, by decide⟩
  obtain ⟨negative, hw, hf, he⟩ := h
  have hsign : ∀ c ∈ Json.signText negative, IsPlain c := by
    cases negative with
    | false => exact hnil
    | true => exact isPlain_cons ⟨by decide, by decide, by decide⟩ hnil
  refine isPlain_append (isPlain_append (isPlain_append hsign (hdigits hw.1)) ?_) ?_
  · cases hf with
    | none => exact hnil
    | digits hd => exact isPlain_cons ⟨by decide, by decide, by decide⟩ (hdigits hd)
  · cases he with
    | none => exact hnil
    | plain hl hd => exact isPlain_cons (hletter hl) (hdigits hd)
    | plus hl hd =>
      exact isPlain_cons (hletter hl)
        (isPlain_cons ⟨by decide, by decide, by decide⟩ (hdigits hd))
    | minus hl hd =>
      exact isPlain_cons (hletter hl)
        (isPlain_cons ⟨by decide, by decide, by decide⟩ (hdigits hd))

/-- No character of a floating-point number needs an escape, finite or not. -/
theorem isPlain_floatText (bits : UInt64) : ∀ c ∈ floatText bits, IsPlain c := by
  cases hb : Binary.ofDouble bits with
  | nan =>
    rw [floatText, hb]
    simp [Binary.layout, Decimal.Special.line, IsPlain]
  | infinite negative =>
    rw [floatText, hb]
    cases negative <;> simp [Binary.layout, Decimal.Special.line, IsPlain]
  | finite negative mantissa power narrow =>
    exact isPlain_numeral (isNumeral_floatText (by rw [hb]; rfl))

theorem isPlain_complexText (re im : UInt64) : ∀ c ∈ complexText re im, IsPlain c := by
  have hend : ∀ c ∈ ['i'], IsPlain c := by simp [IsPlain]
  have hsum : ∀ c ∈ '+' :: floatText im, IsPlain c :=
    isPlain_cons ⟨by decide, by decide, by decide⟩ (isPlain_floatText im)
  have hall := isPlain_append (isPlain_append (isPlain_floatText re) hsum) hend
  simpa [complexText] using hall

/-! ## 3. Rows -/

/-- What `write` puts in a row: no part at all, or parts with a comma between each two of them and
one before the first if it is not to be the first. -/
def IsRow {α : Type} (R : List Char → List α → Prop) (write : Bool → Bytes) (ts : List α) : Prop :=
  (ts = [] ∧ ∀ first, write first = []) ∨
    ∃ s, R s ts ∧ ∀ first, write first = comma first ++ Utf8.encode s

variable {α : Type} {R : List Char → List α → Prop} {write : Bool → Bytes}

theorem IsRow.nil : IsRow R (fun _ => []) [] := .inl ⟨rfl, fun _ => rfl⟩

/-- A part in front of a row. -/
theorem IsRow.cons {s : List Char} {t : α} {ts : List α} (h : IsRow R write ts) (one : R s [t])
    (more : ∀ {r : List Char}, R r ts → R (s ++ ',' :: r) (t :: ts)) :
    IsRow R (fun first => comma first ++ Utf8.encode s ++ write false) (t :: ts) := by
  rcases h with ⟨rfl, hw⟩ | ⟨r, hr, hw⟩
  · refine .inr ⟨s, one, fun first => ?_⟩
    simp only [hw, List.append_nil]
  · refine .inr ⟨s ++ ',' :: r, more hr, fun first => ?_⟩
    simp only [hw, Utf8.encode_append, List.append_assoc]
    rfl

theorem isGap_nil : IsGap [] := fun _ hc => absurd hc List.not_mem_nil

theorem IsRow.list {ts : List Tree} (h : IsRow IsItems write ts) :
    ∃ s, Utf8.encode ['['] ++ write true ++ Utf8.encode [']'] = Utf8.encode s ∧
      IsValue s (.list ts) := by
  rcases h with ⟨rfl, hw⟩ | ⟨s, hs, hw⟩
  · refine ⟨_, ?_, .emptyList isGap_nil⟩
    rw [hw, List.append_nil, ← Utf8.encode_append]
  · refine ⟨_, ?_, .list hs⟩
    rw [hw, Utf8.encode_append, Utf8.encode_cons]
    simp [comma, Utf8.encode]

theorem IsRow.object {ms : List (String × Tree)} (h : IsRow IsMembers write ms) :
    ∃ s, Utf8.encode ['\x7b'] ++ write true ++ Utf8.encode ['\x7d'] = Utf8.encode s ∧
      IsValue s (.object ms) := by
  rcases h with ⟨rfl, hw⟩ | ⟨s, hs, hw⟩
  · refine ⟨_, ?_, .emptyObject isGap_nil⟩
    rw [hw, List.append_nil, ← Utf8.encode_append]
  · refine ⟨_, ?_, .object hs⟩
    rw [hw, Utf8.encode_append, Utf8.encode_cons]
    simp [comma, Utf8.encode]

theorem Json.IsValue.isElement {s : List Char} {t : Tree} (h : IsValue s t) : IsElement s t := by
  have he := IsElement.mk isGap_nil h isGap_nil
  rwa [List.nil_append, List.append_nil] at he

/-- A name and what it names, at the end of an object. -/
theorem Json.IsElement.member {k s : List Char} {name : String} {t : Tree}
    (hk : IsElement k (.text name)) (hs : IsElement s t) :
    IsMembers (k ++ ':' :: s) [(name, t)] := by
  cases hk with
  | mk hg hv hh =>
    cases hv with
    | text hn => exact .one hg hn hh hs

/-- A name and what it names, with other members behind them. -/
theorem Json.IsElement.members {k s r : List Char} {name : String} {t : Tree}
    {ms : List (String × Tree)} (hk : IsElement k (.text name)) (hs : IsElement s t)
    (hr : IsMembers r ms) : IsMembers (k ++ ':' :: s ++ ',' :: r) ((name, t) :: ms) := by
  cases hk with
  | mk hg hv hh =>
    cases hv with
    | text hn => exact .more hg hn hh hs hr

/-! ## 4. Values -/

theorem isElement_text {s : List Char} {name : String} (h : IsString s name) :
    IsElement s (.text name) :=
  (IsValue.text h).isElement

/-- A member in front of a row of members. -/
theorem IsRow.member {k s : List Char} {name : String} {t : Tree} {ms : List (String × Tree)}
    {b c : Bytes} (h : IsRow IsMembers write ms) (hb : b = Utf8.encode k)
    (hk : IsElement k (.text name)) (hc : c = Utf8.encode s) (hs : IsElement s t) :
    IsRow IsMembers (fun first => comma first ++ b ++ Utf8.encode [':'] ++ c ++ write false)
      ((name, t) :: ms) := by
  have hrow := h.cons (hk.member hs) (hk.members hs)
  have hmember : Utf8.encode (k ++ ':' :: s) = b ++ Utf8.encode [':'] ++ c := by
    rw [hb, hc, ← Utf8.encode_append, ← Utf8.encode_append, List.append_assoc]
    rfl
  simpa only [hmember, List.append_assoc] using hrow

mutual

/-- A value with a form in JSON is written as a text that stands for its tree. -/
theorem Value.encode_isElement :
    ∀ v : Value, v.IsJson → ∃ s, v.encode = Utf8.encode s ∧ IsElement s v.tree
  | .null, _ => ⟨_, rfl, IsValue.null.isElement⟩
  | .bool b, _ => ⟨_, rfl, (IsValue.bool b).isElement⟩
  | .int n, _ => ⟨_, rfl, (IsValue.number (isNumeral_intText n)).isElement⟩
  | .uint n, _ => ⟨_, rfl, (IsValue.number (isNumeral_digitsOf n)).isElement⟩
  | .float _, h => ⟨_, rfl, (IsValue.number (isNumeral_floatText h)).isElement⟩
  | .complex re im, _ => by
    refine ⟨'"' :: complexText re im ++ ['"'], ?_,
      isElement_text (Json.isString_plain (isPlain_complexText re im))⟩
    simp [Value.encode, complexText]
  | .text s, _ => ⟨_, rfl, isElement_text (Json.isString_quoteLine s)⟩
  | .time t, _ => ⟨_, rfl, isElement_text (Json.isString_quote t.rfc3339)⟩
  | .address n, h => by
    obtain rfl : n = 0 := h
    exact ⟨_, rfl, IsValue.null.isElement⟩
  | .list items, h => by
    obtain ⟨s, hs, hv⟩ := (Value.encodeItems_isRow items h).list
    exact ⟨s, hs, hv.isElement⟩
  | .map pairs, h => by
    obtain ⟨s, hs, hv⟩ := (Value.encodePairs_isRow pairs h).object
    exact ⟨s, hs, hv.isElement⟩
  | .record fields, h => by
    obtain ⟨s, hs, hv⟩ := (Value.encodeFields_isRow fields h).object
    exact ⟨s, hs, hv.isElement⟩
  | .custom c, h => Custom.encode_isElement c h

theorem Value.encodeItems_isRow : ∀ items : List Value, Value.ItemsAreJson items →
    IsRow IsItems (Value.encodeItems · items) (Value.itemTrees items)
  | [], _ => .nil
  | item :: rest, ⟨hitem, hrest⟩ => by
    obtain ⟨s, hs, he⟩ := Value.encode_isElement item hitem
    have hrow := (Value.encodeItems_isRow rest hrest).cons (.one he) (.more he)
    simpa only [Value.encodeItems, Value.itemTrees, hs] using hrow

theorem Value.encodePairs_isRow : ∀ pairs : List (Value × Value), Value.PairsAreJson pairs →
    IsRow IsMembers (Value.encodePairs · pairs) (Value.pairTrees pairs)
  | [], _ => .nil
  | (key, value) :: rest, ⟨⟨hkey, hname⟩, hvalue, hrest⟩ => by
    obtain ⟨k, hk, hek⟩ := Value.encode_isElement key hkey
    obtain ⟨s, hs, he⟩ := Value.encode_isElement value hvalue
    cases ht : key.tree with
    | text name =>
      rw [ht] at hek
      have hrow := (Value.encodePairs_isRow rest hrest).member hk hek hs he
      simpa only [Value.encodePairs, Value.pairTrees, ht, Tree.name?, Option.getD_some] using hrow
    | null | bool | number | list | object =>
      rw [ht] at hname
      cases hname

theorem Value.encodeFields_isRow : ∀ fields : List Field, Value.FieldsAreJson fields →
    IsRow IsMembers (Value.encodeFields · fields) (Value.fieldTrees fields)
  | [], _ => .nil
  | .mk declared tag? exported value :: rest, ⟨hvalue, hrest⟩ => by
    have hrow := Value.encodeFields_isRow rest hrest
    cases hn : (Field.mk declared tag? exported value).name? with
    | none => simpa only [Value.encodeFields, Value.fieldTrees, hn] using hrow
    | some name =>
      obtain ⟨s, hs, he⟩ := Value.encode_isElement value (hvalue (hn ▸ rfl))
      have hname := isElement_text (Json.isString_quoteLine name)
      have hmember := hrow.member rfl hname hs he
      simpa only [Value.encodeFields, Value.fieldTrees, hn, quoteLine] using hmember

theorem Custom.encode_isElement :
    ∀ c : Custom, c.IsJson → ∃ s, c.encode = Utf8.encode s ∧ IsElement s c.tree
  | .mk (some (.ok body)) _ _ _ _, h => by
    obtain ⟨t, s, hs, he⟩ := h
    refine ⟨s, hs, ?_⟩
    rw [Custom.tree, hs, Json.ofBytes?_encode he]
    exact he
  | .mk (some (.error reason)) _ _ _ _, _ =>
    ⟨_, rfl, isElement_text (Json.isString_quoteLine reason)⟩
  | .mk none (some (.ok body)) _ _ _, _ => ⟨_, rfl, isElement_text (Json.isString_bytes body)⟩
  | .mk none (some (.error reason)) _ _ _, _ =>
    ⟨_, rfl, isElement_text (Json.isString_quoteLine reason)⟩
  | .mk none none (some text) _ _, _ => ⟨_, rfl, isElement_text (Json.isString_quoteLine text)⟩
  | .mk none none none (some text) _, _ => ⟨_, rfl, isElement_text (Json.isString_quoteLine text)⟩
  | .mk none none none none inner, h => Value.encode_isElement inner h

end

end Logbook
