/-!
# Caller depth

Whether a call records where it was emitted, and how many frames of its stack are passed over.
Numbers move the count, which stays between 0 and 255; words choose the kind of record. Asking for a
location does not take back a request for the whole stack.
-/

namespace Logbook

/-- What a call records of its caller. -/
inductive Capture where
  | none
  /-- Name, file and line of the emitting call. -/
  | location
  /-- The whole stack. -/
  | stack
  /-- Nothing, whatever the backend's own setting. -/
  | disabled
  deriving DecidableEq, Repr, Inhabited

def Capture.inspect : Capture → String
  | none => "None"
  | location => "Location"
  | stack => "Stack"
  | disabled => "Disabled"

/-- How many frames are passed over, and what is recorded. -/
structure CallerDepth where
  skip : UInt8
  mode : Capture
  deriving DecidableEq, Repr, Inhabited

namespace CallerDepth

/-- No frame passed over. -/
def ofMode (mode : Capture) : CallerDepth := ⟨0, mode⟩

/-- Adds to the number of frames, within its limits. The sum is one of whole numbers. As long as it
fits into a word of 64 bits it is also the sum of words; a step so large that it does not is beyond
what is described here. -/
def adjust (depth : CallerDepth) (delta : Int) : CallerDepth :=
  { depth with skip := UInt8.ofNat (min 255 (max 0 (depth.skip.toNat + delta)).toNat) }

/-- What a word makes of the kind of record; nothing for a word that is not known. -/
def modeAfter? (mode : Capture) (token : String) : Option Capture :=
  if token = "enable" then some (if mode = .stack then .stack else .location)
  else if token = "stack" then some .stack
  else if token = "disable" then some .disabled
  else none

/-- Applies a word; one that is not known changes nothing. -/
def apply (depth : CallerDepth) (token : String) : CallerDepth :=
  { depth with mode := (modeAfter? depth.mode token).getD depth.mode }

def inspect (depth : CallerDepth) : List Char :=
  "CallerDepth \x7b skip: ".toList ++ Nat.toDigits 10 depth.skip.toNat ++ ", mode: ".toList ++
    depth.mode.inspect.toList ++ " \x7d".toList

end CallerDepth

end Logbook
