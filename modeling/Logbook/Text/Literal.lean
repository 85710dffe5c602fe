import Logbook.Text.Printable

/-!
# Quoted literals

The inspection form of a text: between double quotes, with quotes and backslashes escaped and with
characters that would not show written by their code point.
-/

namespace Logbook.Text

def hexDigits (n : Nat) : List Char := Nat.toDigits 16 n

/-- `\u` and the code point of `c` in braces. -/
def codePoint (c : Char) : List Char := '\\' :: 'u' :: '\x7b' :: hexDigits c.toNat ++ ['\x7d']

/-- A character as it stands in a literal. -/
def literalChar (c : Char) : List Char :=
  if c = '\x00' then ['\\', '0']
  else if c = '\t' then ['\\', 't']
  else if c = '\r' then ['\\', 'r']
  else if c = '\n' then ['\\', 'n']
  else if c = '"' then ['\\', '"']
  else if c = '\\' then ['\\', '\\']
  else if isExtending c || isFiller c || !isVisible c then codePoint c
  else [c]

def literal (s : List Char) : List Char := '"' :: s.flatMap literalChar ++ ['"']

def literalString (s : String) : String := String.ofList (literal s.toList)

end Logbook.Text
