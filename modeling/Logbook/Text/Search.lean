/-!
# Finding and replacing in text

Texts are lists of characters. `cut?` and `cutLast?` split around the first and the last occurrence
of a separator, `replaceFirst` and `replaceAll` put another text in the place of one or of all
occurrences, and `lines` cuts at line feeds.
-/

namespace Logbook.Text

/-- The text before and after the first occurrence of `sep`. -/
def cut? (sep : List Char) : List Char → Option (List Char × List Char)
  | [] => if sep.isEmpty then some ([], []) else none
  | c :: s =>
    match sep.isPrefixOf? (c :: s) with
    | some rest => some ([], rest)
    | none => (cut? sep s).map fun (before, rest) => (c :: before, rest)

/-- The text before and after the last occurrence of `sep`, which is not empty. -/
def cutLast? (sep : List Char) : List Char → Option (List Char × List Char)
  | [] => none
  | c :: s =>
    match cutLast? sep s with
    | some (before, rest) => some (c :: before, rest)
    | none => (sep.isPrefixOf? (c :: s)).map fun rest => ([], rest)

def contains (part s : List Char) : Bool := (cut? part s).isSome

/-- `s` with its first `old` replaced by `new`. -/
def replaceFirst (old new s : List Char) : List Char :=
  match cut? old s with
  | some (before, rest) => before ++ new ++ rest
  | none => s

/-- `s` with every `old` replaced by `new`, from the left. The number counts the characters at the
front of `s` that were part of the last `old`. -/
def replaceFrom (old new : List Char) : Nat → List Char → List Char
  | _, [] => []
  | n + 1, _ :: s => replaceFrom old new n s
  | 0, c :: s =>
    if old.isPrefixOf (c :: s) then new ++ replaceFrom old new (old.length - 1) s
    else c :: replaceFrom old new 0 s

/-- `s` with every `old`, which is not empty, replaced by `new`. -/
def replaceAll (old new s : List Char) : List Char := replaceFrom old new 0 s

/-- Puts `c` in front of the first line. -/
def pushFirst (c : Char) : List (List Char) → List (List Char)
  | [] => [[c]]
  | line :: rest => (c :: line) :: rest

/-- The lines of a text without their ends, which are a line feed with or without a carriage return
before it. The last line may lack its end. -/
def lines : List Char → List (List Char)
  | [] => []
  | '\r' :: '\n' :: s => [] :: lines s
  | c :: s => if c = '\n' then [] :: lines s else pushFirst c (lines s)

/-- Texts with `sep` between each two of them. -/
def join (sep : List Char) : List (List Char) → List Char
  | [] => []
  | [s] => s
  | s :: rest => s ++ sep ++ join sep rest

end Logbook.Text
