import Logbook.Value.Encode

/-!
# Hidden fields

A field of a record value is hidden for good if it is not exported or if its tag has the name `-`.
What such a field holds cannot be told from what is written, whatever is around the record. It is
not without effect, though: a record counts as the zero of its kind only if all of its fields hold
zeros, the hidden ones included, and the option `omitempty` of a field around it depends on that. So
values are compared whose hidden fields agree in being zeros, and both are followed together: what
is written, and whether it is a zero.

Results:
1. `Value.Alike`: values that differ in hidden fields only.
2. `Value.Alike.same`: they are written alike, and are zeros alike.
3. `Surroundings.fill_alike`, `hidden_fields_unseen`: so is everything around them.
-/

namespace Logbook

/-! ## 1. Values that differ in hidden fields -/

/-- A field that is never written, whatever it holds. -/
def Field.IsHidden (tag? : Option String) (exported : Bool) : Prop :=
  exported = false ∨ ∃ tag, tag? = some tag ∧ (splitTag tag).1 = "-"

mutual

/-- Two values that differ only in what hidden fields hold, at any depth. -/
inductive Value.Alike : Value → Value → Prop
  | refl (v : Value) : Value.Alike v v
  | list {items items' : List Value} :
      Value.ItemsAlike items items' → Value.Alike (.list items) (.list items')
  | map {pairs pairs' : List (Value × Value)} :
      Value.PairsAlike pairs pairs' → Value.Alike (.map pairs) (.map pairs')
  | record {fields fields' : List Field} :
      Value.FieldsAlike fields fields' → Value.Alike (.record fields) (.record fields')
  | fallback {json? text? : Option (Except String Bytes)} {description? error? : Option String}
      {inner inner' : Value} : Value.Alike inner inner' →
      Value.Alike (.custom (.mk json? text? description? error? inner))
        (.custom (.mk json? text? description? error? inner'))

/-- Two lists whose items differ only in what hidden fields hold. -/
inductive Value.ItemsAlike : List Value → List Value → Prop
  | nil : Value.ItemsAlike [] []
  | cons {item item' : Value} {rest rest' : List Value} :
      Value.Alike item item' → Value.ItemsAlike rest rest' →
      Value.ItemsAlike (item :: rest) (item' :: rest')

/-- Two maps whose keys and values differ only in what hidden fields hold. -/
inductive Value.PairsAlike : List (Value × Value) → List (Value × Value) → Prop
  | nil : Value.PairsAlike [] []
  | cons {key key' value value' : Value} {rest rest' : List (Value × Value)} :
      Value.Alike key key' → Value.Alike value value' → Value.PairsAlike rest rest' →
      Value.PairsAlike ((key, value) :: rest) ((key', value') :: rest')

/-- Two records with the same fields, of which hidden ones may hold anything as long as both or
neither hold a zero. -/
inductive Value.FieldsAlike : List Field → List Field → Prop
  | nil : Value.FieldsAlike [] []
  | cons {declared : String} {tag? : Option String} {exported : Bool} {value value' : Value}
      {rest rest' : List Field} : Value.Alike value value' → Value.FieldsAlike rest rest' →
      Value.FieldsAlike (.mk declared tag? exported value :: rest)
        (.mk declared tag? exported value' :: rest')
  | hidden {declared : String} {tag? : Option String} {exported : Bool} {value value' : Value}
      {rest rest' : List Field} : Field.IsHidden tag? exported → value.isZero = value'.isZero →
      Value.FieldsAlike rest rest' →
      Value.FieldsAlike (.mk declared tag? exported value :: rest)
        (.mk declared tag? exported value' :: rest')

end

/-! ## 2. What is written -/

namespace Field

variable {tag? : Option String} {exported : Bool}

theorem IsHidden.name?_eq (h : IsHidden tag? exported) (declared : String) (value : Value) :
    (Field.mk declared tag? exported value).name? = none := by
  rcases h with rfl | ⟨tag, rfl, hname⟩
  · rfl
  · simp [Field.name?, hname]

/-- Of the value of a field, its name depends only on whether that is a zero. -/
theorem name?_congr {value value' : Value} (h : value.isZero = value'.isZero) (declared : String) :
    (Field.mk declared tag? exported value).name? =
      (Field.mk declared tag? exported value').name? := by
  simp only [Field.name?, h]

end Field

/-- Of its structure, what is written of a value that describes itself depends only on how that is
written, and on that only where there is no other description. -/
theorem Custom.encode_congr {inner inner' : Value} (h : inner.encode = inner'.encode)
    {json? text? : Option (Except String Bytes)} {description? error? : Option String} :
    (Custom.mk json? text? description? error? inner).encode =
      (Custom.mk json? text? description? error? inner').encode := by
  rcases json? with _ | _ | _ <;> rcases text? with _ | _ | _ <;>
    cases description? <;> cases error? <;> simp only [Custom.encode, h]

mutual

/-- Values that differ in hidden fields only are written alike. The option `omitempty` of an outer
field is why both parts are proved together. -/
theorem Value.Alike.same {v w : Value} (h : v.Alike w) :
    v.isZero = w.isZero ∧ v.encode = w.encode := by
  cases h with
  | refl => exact ⟨rfl, rfl⟩
  | list h =>
    obtain ⟨hempty, hwritten⟩ := Value.ItemsAlike.same h
    exact ⟨hempty, by rw [Value.encode, Value.encode, hwritten]⟩
  | map h =>
    obtain ⟨hempty, hwritten⟩ := Value.PairsAlike.same h
    exact ⟨hempty, by rw [Value.encode, Value.encode, hwritten]⟩
  | record h =>
    obtain ⟨hzero, hwritten⟩ := Value.FieldsAlike.same h
    exact ⟨hzero, by rw [Value.encode, Value.encode, hwritten]⟩
  | fallback h =>
    obtain ⟨-, hwritten⟩ := Value.Alike.same h
    exact ⟨rfl, by rw [Value.encode, Value.encode, Custom.encode_congr hwritten]⟩

theorem Value.ItemsAlike.same {items items' : List Value} (h : Value.ItemsAlike items items') :
    items.isEmpty = items'.isEmpty ∧
      ∀ first, Value.encodeItems first items = Value.encodeItems first items' := by
  cases h with
  | nil => exact ⟨rfl, fun _ => rfl⟩
  | cons hitem hrest =>
    obtain ⟨-, hone⟩ := Value.Alike.same hitem
    obtain ⟨-, hmore⟩ := Value.ItemsAlike.same hrest
    exact ⟨rfl, fun first => by rw [Value.encodeItems, Value.encodeItems, hone, hmore]⟩

theorem Value.PairsAlike.same {pairs pairs' : List (Value × Value)}
    (h : Value.PairsAlike pairs pairs') :
    pairs.isEmpty = pairs'.isEmpty ∧
      ∀ first, Value.encodePairs first pairs = Value.encodePairs first pairs' := by
  cases h with
  | nil => exact ⟨rfl, fun _ => rfl⟩
  | cons hkey hvalue hrest =>
    obtain ⟨-, hname⟩ := Value.Alike.same hkey
    obtain ⟨-, hone⟩ := Value.Alike.same hvalue
    obtain ⟨-, hmore⟩ := Value.PairsAlike.same hrest
    exact ⟨rfl, fun first => by rw [Value.encodePairs, Value.encodePairs, hname, hone, hmore]⟩

theorem Value.FieldsAlike.same {fields fields' : List Field}
    (h : Value.FieldsAlike fields fields') :
    Value.allZero fields = Value.allZero fields' ∧
      ∀ first, Value.encodeFields first fields = Value.encodeFields first fields' := by
  cases h with
  | nil => exact ⟨rfl, fun _ => rfl⟩
  | cons hvalue hrest =>
    obtain ⟨hzero, hone⟩ := Value.Alike.same hvalue
    obtain ⟨hzeros, hmore⟩ := Value.FieldsAlike.same hrest
    refine ⟨by rw [Value.allZero, Value.allZero, hzero, hzeros], fun first => ?_⟩
    simp only [Value.encodeFields, Field.name?_congr hzero, hone, hmore]
  | hidden hhidden hzero hrest =>
    obtain ⟨hzeros, hmore⟩ := Value.FieldsAlike.same hrest
    refine ⟨by rw [Value.allZero, Value.allZero, hzero, hzeros], fun first => ?_⟩
    simp only [Value.encodeFields, hhidden.name?_eq, hmore]

end

/-! ## 3. Surroundings -/

/-- A value with a place left open in it. -/
inductive Surroundings where
  | here
  | inItem (before : List Value) (inner : Surroundings) (after : List Value)
  | inKey (before : List (Value × Value)) (inner : Surroundings) (value : Value)
      (after : List (Value × Value))
  | inValue (before : List (Value × Value)) (key : Value) (inner : Surroundings)
      (after : List (Value × Value))
  | inField (before : List Field) (declared : String) (tag? : Option String) (exported : Bool)
      (inner : Surroundings) (after : List Field)
  | inFallback (json? text? : Option (Except String Bytes)) (description? error? : Option String)
      (inner : Surroundings)

/-- Puts a value into the open place. -/
def Surroundings.fill (v : Value) : Surroundings → Value
  | here => v
  | inItem before inner after => .list (before ++ inner.fill v :: after)
  | inKey before inner value after => .map (before ++ (inner.fill v, value) :: after)
  | inValue before key inner after => .map (before ++ (key, inner.fill v) :: after)
  | inField before declared tag? exported inner after =>
    .record (before ++ .mk declared tag? exported (inner.fill v) :: after)
  | inFallback json? text? description? error? inner =>
    .custom (.mk json? text? description? error? (inner.fill v))

theorem Value.ItemsAlike.refl : ∀ items : List Value, Value.ItemsAlike items items
  | [] => .nil
  | item :: rest => .cons (.refl item) (Value.ItemsAlike.refl rest)

theorem Value.PairsAlike.refl : ∀ pairs : List (Value × Value), Value.PairsAlike pairs pairs
  | [] => .nil
  | (key, value) :: rest => .cons (.refl key) (.refl value) (Value.PairsAlike.refl rest)

theorem Value.FieldsAlike.refl : ∀ fields : List Field, Value.FieldsAlike fields fields
  | [] => .nil
  | .mk _ _ _ value :: rest => .cons (.refl value) (Value.FieldsAlike.refl rest)

theorem Value.ItemsAlike.behind {items items' : List Value} (h : Value.ItemsAlike items items') :
    ∀ before : List Value, Value.ItemsAlike (before ++ items) (before ++ items')
  | [] => h
  | item :: rest => .cons (.refl item) (h.behind rest)

theorem Value.PairsAlike.behind {pairs pairs' : List (Value × Value)}
    (h : Value.PairsAlike pairs pairs') :
    ∀ before : List (Value × Value), Value.PairsAlike (before ++ pairs) (before ++ pairs')
  | [] => h
  | (key, value) :: rest => .cons (.refl key) (.refl value) (h.behind rest)

theorem Value.FieldsAlike.behind {fields fields' : List Field}
    (h : Value.FieldsAlike fields fields') :
    ∀ before : List Field, Value.FieldsAlike (before ++ fields) (before ++ fields')
  | [] => h
  | .mk _ _ _ value :: rest => .cons (.refl value) (h.behind rest)

/-- Values that are alike may be put into the same surroundings. -/
theorem Surroundings.fill_alike {v w : Value} (h : v.Alike w) (around : Surroundings) :
    (around.fill v).Alike (around.fill w) := by
  induction around with
  | here => exact h
  | inItem before inner after ih =>
    exact .list (Value.ItemsAlike.behind (.cons ih (.refl after)) before)
  | inKey before inner value after ih =>
    exact .map (Value.PairsAlike.behind (.cons ih (.refl value) (.refl after)) before)
  | inValue before key inner after ih =>
    exact .map (Value.PairsAlike.behind (.cons (.refl key) ih (.refl after)) before)
  | inField before declared tag? exported inner after ih =>
    exact .record (Value.FieldsAlike.behind (.cons ih (.refl after)) before)
  | inFallback json? text? description? error? inner ih => exact .fallback ih

/-- What hidden fields hold cannot be told from what is written: values that differ only in fields
that are not exported or have the name `-`, each of which holds a zero in both or in neither, add
the same bytes to any buffer, whatever value they are part of. -/
theorem hidden_fields_unseen {v w : Value} (h : v.Alike w) (around : Surroundings)
    (buffer : Bytes) :
    buffer ++ (around.fill v).encode = buffer ++ (around.fill w).encode ∧
      (around.fill v).isZero = (around.fill w).isZero := by
  obtain ⟨hzero, hwritten⟩ := (around.fill_alike h).same
  exact ⟨by rw [hwritten], hzero⟩

/-- An account without a name, with a password in a field of the name `-` and tokens in one that is
not exported. -/
def account (password : String) (tokens : List Value) : Value :=
  .record [.mk "User" (some "user,omitempty") true (.text ""),
    .mk "Password" (some "-,omitempty") true (.text password),
    .mk "tokens" none false (.list tokens)]

/-- A field that is left out while it holds a zero, in the structure behind the key of a map. -/
def aroundAccount : Surroundings :=
  .inKey [] (.inFallback none none none none
    (.inField [.mk "Id" none true (.uint 7)] "Account" (some "account,omitempty") true .here []))
    .null []

/-- Of an account without a name only hidden fields hold anything. They keep it from being a zero,
and so from being left out. -/
theorem hidden_fields_unseen_account :
    (account "hunter2" [.uint 1]).Alike (account "correct horse" [.null, .bool false]) ∧
    Utf8.encode ['>'] ++ (aroundAccount.fill (account "hunter2" [.uint 1])).encode =
      Utf8.encode ['>'] ++
        (aroundAccount.fill (account "correct horse" [.null, .bool false])).encode ∧
    (aroundAccount.fill (account "hunter2" [.uint 1])).isZero =
      (aroundAccount.fill (account "correct horse" [.null, .bool false])).isZero := by
  have hpassword : Field.IsHidden (some "-,omitempty") true :=
    .inr ⟨"-,omitempty", rfl, by decide⟩
  have htokens : Field.IsHidden none false := .inl rfl
  have h : (account "hunter2" [.uint 1]).Alike (account "correct horse" [.null, .bool false]) :=
    .record (.cons (.refl _) (.hidden hpassword (by decide) (.hidden htokens (by decide) .nil)))
  exact ⟨h, hidden_fields_unseen h aroundAccount (Utf8.encode ['>'])⟩

end Logbook
