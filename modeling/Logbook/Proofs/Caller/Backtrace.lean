import Mathlib.Data.List.DropRight
import Logbook.Caller.Frame
import Logbook.Proofs.Text.Cutting
import Logbook.Proofs.Text.Numbers

/-!
# Reading back a backtrace

A frame is printed as its place, a colon and its function, and its source, if that is known, on a
line of its own below it. What is read of such a text is the frames, one for each: a source goes to
the frame above it, and to no other one, whether or not the frames before and after it have one.

Functions and files are any text on one line. Colons, line numbers and the words of a source line in
a function or in a file do not take part in the reading.

Results:
1. `withoutHash_eq_bare`: a hash is left out at the end of a symbol only, and only once.
2. `ofLines_lines`: what the lines of one frame add, with or without a symbol before them.
3. `trace_reads_back`: the text of any frames, with or without its last line feed.
-/

namespace Logbook.Frame

open Decimal (digitsOf isDigits_digitsOf)
open Text

/-! ## 1. Symbols -/

/-- A hash as it stands behind a symbol: `::h` and 16 digits. -/
def isHash (s : List Char) : Bool :=
  s.length == 19 && [':', ':', 'h'].isPrefixOf s && (s.drop 3).all isHexDigit

/-- A symbol without the hash at its end, if there is one. -/
def bare (symbol : List Char) : List Char :=
  if isHash (symbol.rtake 19) then symbol.rdrop 19 else symbol

theorem isHash_iff {s : List Char} :
    isHash s = true ↔
      ∃ digits, s = [':', ':', 'h'] ++ digits ∧ digits.length = 16 ∧
        digits.all isHexDigit = true := by
  rw [isHash, Bool.and_eq_true, Bool.and_eq_true, beq_iff_eq, List.isPrefixOf_iff_prefix]
  constructor
  · rintro ⟨⟨hlength, digits, rfl⟩, hdigits⟩
    rw [List.length_append] at hlength
    exact ⟨digits, rfl, Nat.add_left_cancel hlength, hdigits⟩
  · rintro ⟨digits, rfl, hlength, hdigits⟩
    exact ⟨⟨by simp [hlength], List.prefix_append _ digits⟩, hdigits⟩

theorem bare_append {hash : List Char} (h : isHash hash = true) (head : List Char) :
    bare (head ++ hash) = head := by
  obtain ⟨digits, rfl, hlength, -⟩ := isHash_iff.mp h
  have hnineteen : ([':', ':', 'h'] ++ digits).length = 19 := by simp [hlength]
  rw [bare, ← hnineteen, List.rtake, List.rdrop, List.length_append, Nat.add_sub_cancel,
    List.drop_left, if_pos h, List.take_left]

theorem exists_hash {symbol : List Char} (h : bare symbol ≠ symbol) :
    ∃ head hash, symbol = head ++ hash ∧ isHash hash = true := by
  unfold bare at h
  split at h
  · next hhash =>
    exact ⟨symbol.rdrop 19, symbol.rtake 19, (List.take_append_drop _ symbol).symm, hhash⟩
  · exact absurd rfl h

/-- No separator begins inside of a hash: the digits of one are neither colons nor an `h`. -/
theorem cutLast?_hash {digits : List Char} (h : digits.all isHexDigit = true) (head : List Char) :
    cutLast? [':', ':', 'h'] (head ++ ([':', ':', 'h'] ++ digits)) = some (head, digits) := by
  have hcolon : digits.count ':' = 0 := by
    rw [List.count_eq_zero]
    exact fun hmem => absurd (List.all_eq_true.mp h ':' hmem) (by decide)
  refine cutLast?_append (fun hpart => ?_) head
  have hcount : 2 ≤ (':' :: 'h' :: digits).count ':' := hpart.sublist.count_le ':'
  simp [hcolon] at hcount

theorem withoutHash_append {hash : List Char} (h : isHash hash = true) (head : List Char) :
    withoutHash (head ++ hash) = head := by
  obtain ⟨digits, rfl, hlength, hdigits⟩ := isHash_iff.mp h
  rw [withoutHash, cutLast?_hash hdigits]
  exact if_pos (by rw [hlength, hdigits]; rfl)

theorem withoutHash_eq_bare (symbol : List Char) : withoutHash symbol = bare symbol := by
  by_cases hbare : bare symbol = symbol
  · rw [hbare]
    unfold withoutHash
    split
    · next head digits hcut =>
      split
      · next hgood =>
        rw [Bool.and_eq_true, decide_eq_true_eq] at hgood
        have hhash : isHash ([':', ':', 'h'] ++ digits) = true :=
          isHash_iff.mpr ⟨digits, rfl, hgood⟩
        rw [cutLast?_eq_some hcut, List.append_assoc, bare_append hhash] at hbare
        rwa [cutLast?_eq_some hcut, List.append_assoc]
      · rfl
    · rfl
  · obtain ⟨head, hash, rfl, hhash⟩ := exists_hash hbare
    rw [withoutHash_append hhash, bare_append hhash]

/-! ## 2. Printed frames -/

/-- A text behind blanks. -/
def indented (indent : Nat) (s : List Char) : List Char := List.replicate indent ' ' ++ s

/-- The source of a frame as it is printed. -/
structure Source where
  indent : Nat
  file : String
  line : Nat
  column : Nat
  file_unbroken : '\n' ∉ file.toList
  line_lt : line < 2 ^ 32

/-- A frame as it is printed. -/
structure Printed where
  indent : Nat
  index : Nat
  function : String
  source? : Option Source
  function_unbroken : '\n' ∉ function.toList
  function_trimmed : IsTrimmed function.toList

namespace Source

def place (s : Source) : List Char :=
  s.file.toList ++ ':' :: digitsOf s.line ++ ':' :: digitsOf s.column

def text (s : Source) : List Char := ['a', 't', ' '] ++ s.place

def printed (s : Source) : List Char := indented s.indent s.text

end Source

namespace Printed

def text (p : Printed) : List Char := digitsOf p.index ++ ([':', ' '] ++ p.function.toList)

def printed (p : Printed) : List Char := indented p.indent p.text

/-- The lines of a frame: one for the frame and one for its source. -/
def lines (p : Printed) : List (List Char) := p.printed :: p.source?.toList.map Source.printed

/-- What is to be read of a printed frame. -/
def frame (p : Printed) : Frame :=
  let function := String.ofList (bare p.function.toList)
  match p.source? with
  | some s => ⟨function, s.file, s.line⟩
  | none => ⟨function, "", 0⟩

end Printed

/-! ## 3. Lines -/

theorem not_mem_digitsOf {c : Char} (h : c.isDigit = false) (n : Nat) : c ∉ digitsOf n :=
  fun hmem => by simpa [h] using (isDigits_digitsOf n).2 c hmem

theorem isTrimmed_digitsOf (n : Nat) : IsTrimmed (digitsOf n) := by
  obtain ⟨hne, hdigits⟩ := isDigits_digitsOf n
  have hblank : ∀ c ∈ digitsOf n, isBlank c = false := fun c hc =>
    forall_digit (P := fun c => isBlank c = false) (by decide) (hdigits c hc)
  exact ⟨hne, fun c hc => hblank c (List.mem_of_mem_head? hc),
    fun c hc => hblank c (List.mem_of_mem_getLast? hc)⟩

theorem Source.isTrimmed_text (s : Source) : IsTrimmed s.text := by
  have hat : IsTrimmed ['a', 't'] := by decide
  have htext : s.text = ['a', 't'] ++
      ((' ' :: s.file.toList ++ ':' :: digitsOf s.line ++ [':']) ++ digitsOf s.column) := by
    simp [Source.text, Source.place]
  rw [htext]
  exact hat.append (isTrimmed_digitsOf s.column) _

theorem Source.feed_not_mem_text (s : Source) : '\n' ∉ s.text := by
  simp [Source.text, Source.place, s.file_unbroken, not_mem_digitsOf]

theorem Printed.isTrimmed_text (p : Printed) : IsTrimmed p.text :=
  (isTrimmed_digitsOf p.index).append p.function_trimmed _

theorem Printed.feed_not_mem_text (p : Printed) : '\n' ∉ p.text := by
  simp [Printed.text, p.function_unbroken, not_mem_digitsOf]

/-- A text between blanks and the end of its line. -/
theorem isLine_indented {s : List Char} (h : IsTrimmed s) (hfeed : '\n' ∉ s) (indent : Nat) :
    IsLine (indented indent s) ∧ indented indent s ≠ [] := by
  refine ⟨⟨by simp [indented, hfeed], fun hlast => ?_⟩, by simp [indented, h.ne_nil]⟩
  rw [indented, List.getLast?_append_of_ne_nil _ h.ne_nil] at hlast
  exact absurd (h.last '\r' hlast) (by decide)

theorem Printed.isLine_of_mem {p : Printed} {line : List Char} (h : line ∈ p.lines) :
    IsLine line ∧ line ≠ [] := by
  rcases List.mem_cons.mp h with rfl | h
  · exact isLine_indented p.isTrimmed_text p.feed_not_mem_text p.indent
  · obtain ⟨s, -, rfl⟩ := List.mem_map.mp h
    exact isLine_indented s.isTrimmed_text s.feed_not_mem_text s.indent

theorem trim_indented {s : List Char} (h : IsTrimmed s) (indent : Nat) :
    trim (indented indent s) = s :=
  trim_between (fun c hc => by rw [List.eq_of_mem_replicate hc]; decide) h

/-! ## 4. Reading -/

/-- File and line are told apart by the last two colons, whatever colons the file has. -/
theorem source?_place (s : Source) : source? s.place = some (s.file.toList, s.line) := by
  have hcolon (n : Nat) : ':' ∉ digitsOf n := not_mem_digitsOf (by decide) n
  have hfit : s.line ≤ largestLine := Nat.le_of_lt_succ s.line_lt
  have hfront := cutLast?_singleton (hcolon s.line) s.file.toList
  have hplace := cutLast?_singleton (hcolon s.column) (s.file.toList ++ ':' :: digitsOf s.line)
  simp only [source?, Source.place, hplace, hfront, readNat?_digitsOf hfit, Option.bind_eq_bind,
    Option.bind_some, Option.pure_def]

/-- A line of a frame ends what was pending, and its own symbol is pending from there on. -/
theorem ofLines_printed (pending : Option (List Char)) (p : Printed) (rest : List (List Char)) :
    ofLines pending (p.printed :: rest) =
      pending.toList.map unlocated ++ ofLines (some p.function.toList) rest := by
  have hindex : ['a', 't', ' '].isPrefixOf? p.text = none :=
    isPrefixOf?_append_of_not_mem (isDigits_digitsOf p.index).1
      (not_mem_digitsOf (by decide) p.index) _
  have hapart : ∀ c ∈ [':', ' '], c ∉ digitsOf p.index := by simp [not_mem_digitsOf]
  have hsymbol : symbol? p.text = some p.function.toList := by
    have hall : (digitsOf p.index).all Char.isDigit = true :=
      List.all_eq_true.mpr (isDigits_digitsOf p.index).2
    rw [symbol?, Printed.text, cut?_append hapart]
    exact if_pos hall
  cases pending <;>
    simp [ofLines, Printed.printed, trim_indented p.isTrimmed_text, hindex, hsymbol]

/-- A line of a source goes to the symbol that is pending, and nothing is pending from there on. -/
theorem ofLines_source (symbol : List Char) (s : Source) (rest : List (List Char)) :
    ofLines (some symbol) (s.printed :: rest) =
      ⟨String.ofList (bare symbol), s.file, s.line⟩ :: ofLines none rest := by
  have hat : ['a', 't', ' '].isPrefixOf? s.text = some s.place := isPrefixOf?_append _ s.place
  simp [ofLines, Source.printed, trim_indented s.isTrimmed_text, hat, located, source?_place,
    withoutHash_eq_bare]

theorem unlocated_eq_frame {p : Printed} (h : p.source? = none) :
    unlocated p.function.toList = p.frame := by
  rw [Printed.frame, h, unlocated, withoutHash_eq_bare]

/-- What the lines of a frame add: the frame, at once if it has a source, and with the next frame or
the end of the text if it has none. -/
theorem ofLines_lines (pending : Option (List Char)) (p : Printed) (rest : List (List Char)) :
    ofLines pending (p.lines ++ rest) =
      pending.toList.map unlocated ++
        if p.source?.isSome then p.frame :: ofLines none rest
        else ofLines (some p.function.toList) rest := by
  rw [Printed.lines, List.cons_append, ofLines_printed]
  cases hsource : p.source? with
  | none => rfl
  | some s =>
    rw [Option.toList_some, List.map_singleton, List.singleton_append, ofLines_source,
      Printed.frame, hsource]
    rfl

theorem ofLines_flatMap (pending : Option (List Char)) (frames : List Printed) :
    ofLines pending (frames.flatMap Printed.lines) =
      pending.toList.map unlocated ++ frames.map Printed.frame := by
  -- with any symbol pending: a frame without a source leaves its own for the rest
  induction frames generalizing pending with
  | nil => cases pending <;> rfl
  | cons p frames ih =>
    rw [List.flatMap_cons, ofLines_lines, List.map_cons]
    congr 1
    cases hsource : p.source? with
    | none => rw [Option.isSome_none, if_neg (by decide), ih, ← unlocated_eq_frame hsource]; rfl
    | some s => rw [Option.isSome_some, if_pos rfl, ih]; rfl

/-- What is read of a backtrace is the frames that it was printed from, with or without the line
feed at its end. -/
theorem trace_reads_back (frames : List Printed) :
    ofTrace (String.ofList (endEach (frames.flatMap Printed.lines))) = frames.map Printed.frame ∧
    ofTrace (String.ofList (endEach (frames.flatMap Printed.lines)).dropLast) =
      frames.map Printed.frame := by
  have hlines : ∀ line ∈ frames.flatMap Printed.lines, IsLine line ∧ line ≠ [] := by
    intro line hline
    obtain ⟨p, -, hmem⟩ := List.mem_flatMap.mp hline
    exact Printed.isLine_of_mem hmem
  have hread := ofLines_flatMap none frames
  constructor
  · rw [ofTrace, String.toList_ofList, lines_ended fun line hline => (hlines line hline).1, hread]
    rfl
  · rw [ofTrace, String.toList_ofList, lines_unended hlines, hread]
    rfl

/-- Three frames, the first and the last with a source. The words of a source line, the colon behind
a place and a hash are in their functions, and a line number and blanks in a file. -/
def mixedFrames : List Printed :=
  [{ indent := 3
     index := 8
     function := "at a::b: c::h0123456789abcdef"
     source? := some {
       indent := 13, file := "./x.rs:1: y.rs", line := 42, column := 9
       file_unbroken := by decide, line_lt := by decide }
     function_unbroken := by decide
     function_trimmed := by decide },
   { indent := 3
     index := 9
     function := "7: main"
     source? := none
     function_unbroken := by decide
     function_trimmed := by decide },
   { indent := 2
     index := 10
     function := "_start"
     source? := some {
       indent := 13, file := "", line := 4294967295, column := 1
       file_unbroken := by decide, line_lt := by decide }
     function_unbroken := by decide
     function_trimmed := by decide }]

theorem trace_reads_back_mixed :
    ofTrace ("   8: at a::b: c::h0123456789abcdef\n             at ./x.rs:1: y.rs:42:9\n" ++
        "   9: 7: main\n  10: _start\n             at :4294967295:1\n") =
      [⟨"at a::b: c", "./x.rs:1: y.rs", 42⟩, ⟨"7: main", "", 0⟩, ⟨"_start", "", 4294967295⟩] := by
  have htext : String.ofList (endEach (mixedFrames.flatMap Printed.lines)) =
      "   8: at a::b: c::h0123456789abcdef\n             at ./x.rs:1: y.rs:42:9\n" ++
        "   9: 7: main\n  10: _start\n             at :4294967295:1\n" := by
    decide +kernel
  have hframes : mixedFrames.map Printed.frame =
      [⟨"at a::b: c", "./x.rs:1: y.rs", 42⟩, ⟨"7: main", "", 0⟩, ⟨"_start", "", 4294967295⟩] := by
    decide +kernel
  rw [← htext, ← hframes]
  exact (trace_reads_back mixedFrames).1

end Logbook.Frame
