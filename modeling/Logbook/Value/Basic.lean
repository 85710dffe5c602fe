import Logbook.Text.Search
import Logbook.Text.Utf8
import Logbook.Decimal.Binary
import Logbook.Time.Stamp

/-!
# Values

What a field of a line can hold. Besides plain data there are records whose fields carry tags
(`Field`), and values that describe themselves in one or more ways (`Custom`).

A tag is a name, or a name and an option after a comma. The name `-` hides the field, an empty name
stands for the declared one, and the option `omitempty` hides the field while its value is the zero
of its kind (`Value.isZero`). A field that is not exported is always hidden.
-/

namespace Logbook

open Decimal (Binary)

mutual

/-- The value of a field. Floating-point numbers are given by their bits. -/
inductive Value where
  | null
  | bool (b : Bool)
  | int (n : Int)
  | uint (n : Nat)
  | float (bits : UInt64)
  | complex (re im : UInt64)
  | text (s : String)
  | time (t : Time.Stamp)
  | address (n : Nat)
  | list (items : List Value)
  /-- Keys and values in the order in which they are written. -/
  | map (pairs : List (Value × Value))
  | record (fields : List Field)
  | custom (c : Custom)

/-- A field of a record value. -/
inductive Field where
  | mk (declared : String) (tag? : Option String) (exported : Bool) (value : Value)

/-- A value that describes itself. The first of the descriptions that it has is used; one that fails
gives the reason. The structure is used where there is no other description. -/
inductive Custom where
  | mk (json? : Option (Except String Bytes)) (text? : Option (Except String Bytes))
      (description? : Option String) (error? : Option String) (inner : Value)

end

instance : Inhabited Value := ⟨.null⟩

mutual

/-- Whether a value is the zero of its kind. A value that describes itself never is. -/
def Value.isZero : Value → Bool
  | .null => true
  | .bool b => !b
  | .int n => n == 0
  | .uint n => n == 0
  | .float bits => (Binary.ofDouble bits).isZero
  | .complex re im =>
    (Binary.ofDouble re).isZero && (Binary.ofDouble im).isZero
  | .text s => s.isEmpty
  | .time t => t.moment == ⟨0, 0⟩
  | .address n => n == 0
  | .list items => items.isEmpty
  | .map pairs => pairs.isEmpty
  | .record fields => Value.allZero fields
  | .custom _ => false

/-- Whether the values of all fields are zeros. -/
def Value.allZero : List Field → Bool
  | [] => true
  | .mk _ _ _ value :: rest => value.isZero && Value.allZero rest

end

/-- The name and the option of a tag. -/
def splitTag (tag : String) : String × String :=
  match Text.cut? [','] tag.toList with
  | some (name, option) => (String.ofList name, String.ofList option)
  | none => (tag, "")

/-- The name under which a field is written; nothing for a hidden field. -/
def Field.name? : Field → Option String
  | .mk declared tag? exported value =>
    if !exported then none
    else
      let (name, option) := match tag? with
        | some tag => splitTag tag
        | none => ("", "")
      if name = "-" || (option = "omitempty" && value.isZero) then none
      else some (if name.isEmpty then declared else name)

end Logbook
