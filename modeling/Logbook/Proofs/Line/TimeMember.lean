import Logbook.Proofs.Json.Strings
import Logbook.Proofs.Time.Rendering
import Logbook.Line

/-!
# The time of a line

The time is the one text of a line that is put between its quotes as it is. A reader gets it back if
no character of it needs an escape, and only then: a quote would end the string early, a control
character would break it, and a backslash would be read as the beginning of an escape. Formats can
be chosen freely, so it depends on the texts of the pattern, and on nothing else.

Results:
1. `Line.time?_iff`: when a reader of a line gets its time.
2. `time_reads_back_iff`: the same in terms of the chosen format.
-/

namespace Logbook

namespace Line

/-- What stands in front of the time of a line. -/
def lead : List Char := "\x7b\"time\":".toList

/-- The time of a line and the bytes after its closing quote, read from the bytes of the line. -/
def time? (line : Bytes) : Option (List Char × Bytes) :=
  if Utf8.encode lead <+: line then Json.takeQuoted (line.drop (Utf8.encode lead).length) else none

/-- A reader gets the time and the rest of the line if and only if no character needs an escape. -/
theorem time?_iff (time : List Char) (rest : Bytes) :
    time? (Utf8.encode (lead ++ '"' :: time ++ ['"']) ++ rest) = some (time, rest) ↔
      IsPlainText time := by
  have hline : Utf8.encode (lead ++ '"' :: time ++ ['"']) ++ rest =
      Utf8.encode lead ++ 0x22 :: (Utf8.encode time ++ 0x22 :: rest) := by
    rw [List.append_assoc, Utf8.encode_append, List.cons_append, Utf8.encode_cons,
      Utf8.encode_append]
    simp only [List.append_assoc]
    rfl
  rw [hline, time?, if_pos (List.prefix_append _ _), List.drop_left]
  constructor
  · intro h
    obtain ⟨⟨us, left⟩, htake, hus⟩ := Option.map_eq_some_iff.1 h
    obtain ⟨hjoined, rfl⟩ := Prod.mk.inj hus
    exact Json.isPlain_of_takeBytes htake hjoined
  · intro h
    exact Json.takeText_encode (Json.isUnits_plain h) rest

end Line

/-- A line begins with its time, put between quotes as it is. -/
theorem Record.line_eq (format : TimeFormat) (time : Time.Stamp) (r : Record) :
    ∃ rest, (r.withLine format time).buffer =
      Utf8.encode (Line.lead ++ '"' :: format.render time ++ ['"']) ++ rest := by
  have hlead : "\x7b\"time\":\"".toList = Line.lead ++ ['"'] := by decide
  have hlevel : "\",\"level\":\"".toList = ['"'] ++ ",\"level\":\"".toList := by decide
  refine ⟨Utf8.encode (",\"level\":\"".toList ++ r.level.name.toList ++ ['"']) ++
    (Line.fields r.keys r.vals ++ (Line.message r.message ++ Utf8.encode ['\x7d', '\n'])), ?_⟩
  show Line.ofParts (format.render time) r.level r.keys r.vals r.message = _
  have hquote : '"' :: format.render time = ['"'] ++ format.render time := rfl
  rw [Line.ofParts, hlead, hlevel, hquote]
  simp only [Utf8.encode_append, List.append_assoc]

/-- The time of a line is a string of one line, without a quote, a backslash or a control character
in it that is not escaped, if and only if no text of the chosen pattern needs an escape, and only
then does a reader get it back as it was rendered, up to the quote after it. -/
theorem time_reads_back_iff (s : String) (time : Time.Stamp) (r : Record) :
    ∃ rest, (r.withLine (.ofText s) time).buffer =
        Utf8.encode (Line.lead ++ '"' :: (TimeFormat.ofText s).render time ++ ['"']) ++ rest ∧
      (IsPlainText ((TimeFormat.ofText s).render time) ↔ (TimeFormat.ofText s).IsQuotable) ∧
      (Line.time? (r.withLine (.ofText s) time).buffer =
          some ((TimeFormat.ofText s).render time, rest) ↔ (TimeFormat.ofText s).IsQuotable) := by
  obtain ⟨rest, hrest⟩ := Record.line_eq (.ofText s) time r
  have hplain := TimeFormat.render_plain_iff (.ofText s) time
  refine ⟨rest, hrest, hplain, ?_⟩
  rw [hrest, Line.time?_iff, hplain]

/-- A pattern with a quote in it, which ends the time early. -/
theorem time_breaks_off :
    (TimeFormat.ofText "%H\"%M").render ⟨⟨0, 0⟩, 0⟩ = "00\"00".toList ∧
      (Line.time? (Record.blank.withLine (.ofText "%H\"%M") ⟨⟨0, 0⟩, 0⟩).buffer).map (·.1) =
        some "00".toList := by
  decide +kernel

end Logbook
