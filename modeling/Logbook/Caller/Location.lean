import Logbook.Caller.Depth
import Logbook.Caller.Frame
import Logbook.Value.Basic
import Logbook.Decimal.Shortest

/-!
# Where a call was emitted

The fields `name`, `file` and `line` of a call, and its stack as a list of texts. File names are
shown from below the first `src` folder on.

The frames passed over are counted from the emitting one. At that one the file and the line come
from the call itself, and the name is the module if it is known; further up all three come from the
frame, if the stack reaches that far and knows the source.
-/

namespace Logbook

/-- A line of a source file. -/
structure SourceLine where
  file : String
  line : Nat
  deriving DecidableEq, Repr

/-- A file name without a leading `./` and without everything up to the first `src/`. -/
def trimSource (file : List Char) : List Char :=
  let file := (['.', '/'].isPrefixOf? file).getD file
  match Text.cut? ['s', 'r', 'c', '/'] file with
  | some (_, rest) => rest
  | none => file

/-- The frame that a location is taken from; none where the module alone says enough. -/
def callerFrame? (stack : List Frame) (module? : Option String) (skip : Nat) : Option Frame :=
  if skip = 0 && module?.isSome then none else stack[skip]?

def callerName (stack : List Frame) (module? : Option String) (skip : Nat) : String :=
  match callerFrame? stack module? skip with
  | some frame => frame.function
  | none => module?.getD ""

def callerSource (stack : List Frame) (location? : Option SourceLine) (module? : Option String)
    (skip : Nat) : SourceLine :=
  let own : SourceLine := match location? with
    | some location => ⟨String.ofList (trimSource location.file.toList), location.line⟩
    | none => ⟨"???", 0⟩
  match callerFrame? stack module? skip with
  | some frame =>
    if 0 < skip && 0 < frame.line then
      ⟨String.ofList (trimSource frame.file.toList), frame.line⟩
    else own
  | none => own

/-- The fields that tell where a call was emitted. -/
def locationFields (stack : List Frame) (location? : Option SourceLine) (module? : Option String)
    (skip : Nat) : List (String × Value) :=
  let source := callerSource stack location? module? skip
  [("name", .text (callerName stack module? skip)), ("file", .text source.file),
    ("line", .uint source.line)]

/-- The last part of a path of names. -/
def lastName (function : List Char) : List Char :=
  match Text.cutLast? [':', ':'] function with
  | some (_, name) => name
  | none => function

/-- A frame as it stands in a stack: its source, if known, and the last part of its name. -/
def stackEntry (frame : Frame) : String :=
  let name := lastName frame.function.toList
  if frame.line = 0 then String.ofList name
  else
    String.ofList (trimSource frame.file.toList ++ ':' :: Decimal.digitsOf frame.line ++ ' ' :: name)

/-- The stack from the frame `skip` levels up. -/
def stackField (stack : List Frame) (skip : Nat) : String × Value :=
  ("stack", .list ((stack.drop skip).map fun frame => .text (stackEntry frame)))

end Logbook
