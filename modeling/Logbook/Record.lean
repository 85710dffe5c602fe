import Logbook.Caller.Location
import Logbook.Value.Encode
import Logbook.Level

/-!
# Records

Everything that is known about one call. Keys and values are kept in two lists; before a record is
written the two are made to match (`Record.balance`), and a mismatch leaves a field that tells of
it.
-/

namespace Logbook

/-- What is known about one call. -/
structure Record where
  /-- The lowest level that is emitted. -/
  threshold : Level
  /-- The level of the call. -/
  level : Level
  message : String
  keys : List String
  vals : List Value
  /-- The line that was made of the record. -/
  buffer : Bytes
  /-- The time given for the call; otherwise it is the time at which the line is made. -/
  time? : Option Time.Stamp
  caller : CallerDepth
  location? : Option SourceLine
  module? : Option String

namespace Record

def blank : Record := ⟨.debug, .debug, "", [], [], [], none, ⟨0, .none⟩, none, none⟩

/-- A record of nothing with a threshold and a caller depth. -/
def fresh (threshold : Level) (caller : CallerDepth) : Record :=
  { blank with threshold := threshold, caller := caller }

/-- Whether a record holds neither a message nor a key nor a value. -/
def isEmpty (r : Record) : Bool := r.message.isEmpty && r.keys.isEmpty && r.vals.isEmpty

/-- Everything but the threshold set back. -/
def clear (r : Record) : Record := { blank with threshold := r.threshold }

/-- The key of the field that tells of a mismatch. -/
def mismatchKey : String := "loggererr"

/-- The value of the field that tells of a mismatch. -/
def mismatchMessage : String := "the number of field keys and values are not equal"

/-- Whether there are as many keys as values. -/
def isBalanced (r : Record) : Bool := r.keys.length == r.vals.length

/-- Makes keys and values match: both lists are cut to the shorter one and a field that tells of the
mismatch is added. -/
def balance (r : Record) : Record :=
  if r.isBalanced then r
  else
    let n := min r.keys.length r.vals.length
    { r with
      keys := r.keys.take n ++ [mismatchKey]
      vals := r.vals.take n ++ [.text mismatchMessage] }

def addFields (r : Record) (fields : List (String × Value)) : Record :=
  { r with keys := r.keys ++ fields.map (·.1), vals := r.vals ++ fields.map (·.2) }

/-- Adds what the record asks to know of its caller. -/
def capture (stack : List Frame) (r : Record) : Record :=
  match r.caller.mode with
  | .location =>
    r.addFields (locationFields stack r.location? r.module? r.caller.skip.toNat)
  | .stack => r.addFields [stackField stack r.caller.skip.toNat]
  | .none | .disabled => r

end Record

end Logbook
