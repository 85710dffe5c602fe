import Logbook.Text.Search

/-!
# Paths

A path is a text of names with slashes between them. `Path.ofText` takes it apart for a walk through
the folders; `parentText?` cuts the last name off the text itself, which is how a path is shown when
its folder is named in a message.

Empty names and the name `.` lead nowhere and are dropped. What a path ends in still counts: one
that ends in `.` or `..` means the folder it leads to, and a slash after the last name asks for a
folder.
-/

namespace Logbook

/-- A path taken apart. -/
structure Path where
  absolute : Bool
  /-- The names on the way to the last one, where `..` means the folder above. -/
  folders : List String
  /-- The last name, unless the path ends in `.` or `..` or has no name. -/
  last? : Option String
  /-- Whether a slash follows the last name. -/
  slash : Bool
  deriving DecidableEq, Repr

def splitSlashes : List Char → List (List Char)
  | [] => [[]]
  | c :: s => if c = '/' then [] :: splitSlashes s else Text.pushFirst c (splitSlashes s)

/-- Whether a name is one of the two that stand for a folder by its place. -/
def isDots (name : List Char) : Bool := name == ['.'] || name == ['.', '.']

/-- Names without the one that leads nowhere. -/
def withoutDots (names : List (List Char)) : List String :=
  (names.filter (· != ['.'])).map String.ofList

def Path.ofText (s : String) : Path :=
  let names := (splitSlashes s.toList).filter fun name => !name.isEmpty
  let absolute := s.toList.head? == some '/'
  let slash := s.toList.getLast? == some '/'
  match names.getLast? with
  | none => ⟨absolute, [], none, slash⟩
  | some last =>
    if isDots last then ⟨absolute, withoutDots names, none, slash⟩
    else ⟨absolute, withoutDots names.dropLast, some (String.ofList last), slash⟩

def Path.names (p : Path) : List String := p.folders ++ p.last?.toList

/-- A text, written backwards, without the slashes and single dots that close it. A dot that begins
the text is kept. -/
def dropIdle : List Char → List Char
  | '/' :: s => dropIdle s
  | '.' :: '/' :: s => dropIdle s
  | s => s

/-- The text of the path above; nothing if there is none. The path above a single name is empty. -/
def parentText? (path : List Char) : Option (List Char) :=
  let rooted := path.head? == some '/'
  match dropIdle path.reverse with
  | [] => none
  | last =>
    match dropIdle (last.dropWhile (· != '/')) with
    | [] => some (if rooted then ['/'] else [])
    | front => some front.reverse

/-- Cuts names off a path until nothing is left; `cuts` bounds their number. -/
def ancestorsFrom : Nat → List Char → List (List Char)
  | 0, _ => []
  | cuts + 1, path =>
    if path.isEmpty then []
    else path :: ((parentText? path).map (ancestorsFrom cuts)).getD []

/-- A path and the paths above it, from the longest to the shortest. -/
def ancestors (path : List Char) : List (List Char) := ancestorsFrom path.length path

end Logbook
