import Logbook.Json.Error

/-!
# Failures

What can go wrong outside of the program's own control: the operating system refuses something, a
sink does not take a line, a setting cannot be read. `IoError` and `LogError` refer to each other,
since a sink may pass a failure of the library on to whoever writes to it.
-/

namespace Logbook

/-- Why the operating system refused an operation. -/
inductive Refusal where
  | notFound
  | exists
  | notDirectory
  | isDirectory
  | invalidArgument
  | noSpace
  | nameTooLong
  | linkLoop
  deriving DecidableEq, Repr

/-- The system's wording for a refusal, and its number. -/
def Refusal.wording : Refusal → String × Nat
  | notFound => ("No such file or directory", 2)
  | «exists» => ("File exists", 17)
  | notDirectory => ("Not a directory", 20)
  | isDirectory => ("Is a directory", 21)
  | invalidArgument => ("Invalid argument", 22)
  | noSpace => ("No space left on device", 28)
  | nameTooLong => ("File name too long", 36)
  | linkLoop => ("Too many levels of symbolic links", 40)

mutual

/-- A failure of input or output. -/
inductive IoError where
  /-- The system refused. -/
  | refused (refusal : Refusal)
  /-- A path holds a zero byte. -/
  | zeroInPath
  /-- A sink took nothing of what was left to write. -/
  | nothingTaken
  /-- A sink gave its own reason. -/
  | described (reason : String)
  /-- A failure of the library. -/
  | wrapped (error : LogError)

/-- A failure of the library. -/
inductive LogError where
  /-- An operation failed that had a purpose to name. -/
  | operation (purpose detail : String) (cause : IoError)
  | io (cause : IoError)
  | json (cause : Json.Error)
  | unrecognizedLevel (text : String)
  | rotation (path reason : String)
  | writer (reason : String)

end

mutual

def IoError.message : IoError → String
  | .refused refusal =>
    refusal.wording.1 ++ " (os error " ++ String.ofList (Decimal.digitsOf refusal.wording.2) ++ ")"
  | .zeroInPath => "file name contained an unexpected NUL byte"
  | .nothingTaken => "failed to write whole buffer"
  | .described reason => reason
  | .wrapped error => error.message

def LogError.message : LogError → String
  | .operation purpose detail _ => "IO error while " ++ purpose ++ ": " ++ detail
  | .io cause => "IO error: " ++ cause.message
  | .json cause => "JSON error: " ++ cause.message
  | .unrecognizedLevel text => "unrecognized level: '" ++ text ++ "'"
  | .rotation path reason => "File rotation failed for '" ++ path ++ "': " ++ reason
  | .writer reason => "Writer error: " ++ reason

end

/-- The level that a text names, or the text as unrecognized. -/
def Level.ofText (s : String) : Except LogError Level :=
  match Level.ofText? s with
  | some level => .ok level
  | none => .error (.unrecognizedLevel s)

/-- Something that cannot be returned to a caller and is reported on the error console instead. -/
inductive Report where
  | invalidTimeFormat (pattern fallback : String)
  | flushBeforeRotation (path : String) (cause : IoError)
  | linkDirectory (path : String) (cause : IoError)
  | link (link target : String) (cause : IoError)
  | lineNotWritten (cause : IoError)
  | periodicSync (cause : LogError)
  | finalSync (cause : LogError)
  | syncAfterHandoff (cause : LogError)

def Report.line : Report → String
  | invalidTimeFormat pattern fallback =>
    "[WARN] Invalid time format '" ++ pattern ++ "', using '" ++ fallback ++ "'\n"
  | flushBeforeRotation path cause =>
    "[WARN] Failed to flush " ++ path ++ " before rotation: " ++ cause.message ++ "\n"
  | linkDirectory path cause =>
    "[WARN] Failed to create link directory " ++ path ++ ": " ++ cause.message ++ "\n"
  | link name target cause =>
    "[WARN] Failed to link " ++ name ++ " -> " ++ target ++ ": " ++ cause.message ++ "\n"
  | lineNotWritten cause => "[LOGGER ERROR] failed to write log line: " ++ cause.message ++ "\n"
  | periodicSync cause => "[LOGGER ERROR] periodic sync failed: " ++ cause.message ++ "\n"
  | finalSync cause => "[LOGGER ERROR] final sync failed: " ++ cause.message ++ "\n"
  | syncAfterHandoff cause =>
    "[LOGGER ERROR] sync after handoff failed: " ++ cause.message ++ "\n"

end Logbook
