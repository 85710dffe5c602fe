import Logbook.Text.Search
import Logbook.Text.Blank
import Logbook.Text.Number

/-!
# Stack frames

A backtrace in text has a line for each frame, with its place in the stack, and below it a line for
the source of the frame, if that is known:

```text
   3: app::handler
             at ./handler.rs:42:9
```

`Frame.ofTrace` reads such a text. Blanks around a line do not count, lines of neither form are
passed over, and so is a source line without a frame before it.
-/

namespace Logbook

/-- A frame of a stack. A frame whose source is not known has an empty file and the line 0. -/
structure Frame where
  function : String
  file : String
  line : Nat
  deriving DecidableEq, Repr

namespace Frame

def largestLine : Nat := 4294967295

def isHexDigit (c : Char) : Bool :=
  c.isDigit || ('a' ≤ c && c ≤ 'f') || ('A' ≤ c && c ≤ 'F')

/-- A symbol without the hash that some compilers put behind it: `::h` and 16 digits. -/
def withoutHash (symbol : List Char) : List Char :=
  match Text.cutLast? [':', ':', 'h'] symbol with
  | some (head, hash) => if hash.length = 16 && hash.all isHexDigit then head else symbol
  | none => symbol

/-- A frame whose source is not known. -/
def unlocated (symbol : List Char) : Frame := ⟨String.ofList (withoutHash symbol), "", 0⟩

/-- File and line of a source given as `file:line:column`, or as good as none. -/
def source? (s : List Char) : Option (List Char × Nat) := do
  let (front, _) ← Text.cutLast? [':'] s
  let (file, line) ← Text.cutLast? [':'] front
  let line ← Text.readNat? largestLine line
  return (file, line)

def located (symbol source : List Char) : Frame :=
  match source? source with
  | some (file, line) => ⟨String.ofList (withoutHash symbol), String.ofList file, line⟩
  | none => unlocated symbol

/-- The symbol of a line that begins a frame: it follows a colon and a space after the digits of the
frame's place. -/
def symbol? (line : List Char) : Option (List Char) :=
  match Text.cut? [':', ' '] line with
  | some (index, symbol) => if index.all Char.isDigit then some symbol else none
  | none => none

/-- Frames of the lines of a backtrace; `pending` is a symbol whose source may still follow. -/
def ofLines : Option (List Char) → List (List Char) → List Frame
  | none, [] => []
  | some symbol, [] => [unlocated symbol]
  | pending, line :: rest =>
    let line := Text.trim line
    match ['a', 't', ' '].isPrefixOf? line with
    | some source =>
      match pending with
      | some symbol => located symbol source :: ofLines none rest
      | none => ofLines none rest
    | none =>
      match symbol? line with
      | some symbol =>
        match pending with
        | some last => unlocated last :: ofLines (some symbol) rest
        | none => ofLines (some symbol) rest
      | none => ofLines pending rest

def ofTrace (trace : String) : List Frame := ofLines none (Text.lines trace.toList)

end Frame

end Logbook
