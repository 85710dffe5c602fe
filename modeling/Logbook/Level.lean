import Logbook.Text.Number

/-!
# Levels

How severe a call is. Levels are ordered by rank, and a call is emitted when its level has at least
the rank of the threshold; the highest level is always emitted.

| level     | rank | name      | also read |
|-----------|------|-----------|-----------|
| `debug`   | 0    | `DEBUG`   |           |
| `info`    | 1    | `INFO`    |           |
| `warning` | 2    | `WARIRNG` | `WARNING` |
| `error`   | 3    | `ERROR`   |           |
| `fatal`   | 4    | `FATAL`   |           |

Names are read in any case, ranks as numbers.
-/

namespace Logbook

/-- The severity of a call. -/
inductive Level where
  | debug | info | warning | error | fatal
  deriving DecidableEq, Repr, Inhabited

namespace Level

/-- All levels by rank. -/
def all : List Level := [debug, info, warning, error, fatal]

def rank : Level → Nat
  | debug => 0
  | info => 1
  | warning => 2
  | error => 3
  | fatal => 4

def ofRank? (rank : Nat) : Option Level := all[rank]?

/-- The name written to lines. Readers of the lines match on the spelling of the third one. -/
def name : Level → String
  | debug => "DEBUG"
  | info => "INFO"
  | warning => "WARIRNG"
  | error => "ERROR"
  | fatal => "FATAL"

def inspect : Level → String
  | debug => "Debug"
  | info => "Info"
  | warning => "Warning"
  | error => "Error"
  | fatal => "Fatal"

/-- Severity as an ordering. -/
def compare (a b : Level) : Ordering := Ord.compare a.rank b.rank

/-- The capital of a character. Beyond ASCII only the two small letters with an ASCII capital
matter: no other character turns into letters of a name. -/
def capital (c : Char) : Char :=
  if c = 'ı' then 'I' else if c = 'ſ' then 'S' else c.toUpper

def ofCapitals? (s : List Char) : Option Level :=
  if s = ['D', 'E', 'B', 'U', 'G'] then some debug
  else if s = ['I', 'N', 'F', 'O'] then some info
  else if s = ['W', 'A', 'R', 'I', 'R', 'N', 'G'] then some warning
  else if s = ['W', 'A', 'R', 'N', 'I', 'N', 'G'] then some warning
  else if s = ['E', 'R', 'R', 'O', 'R'] then some error
  else if s = ['F', 'A', 'T', 'A', 'L'] then some fatal
  else none

/-- The level that a text names or gives the rank of. -/
def ofText? (s : String) : Option Level :=
  (ofCapitals? (s.toList.map capital)).or ((Text.readNat? 255 s.toList).bind ofRank?)

/-- Whether a call of this level is emitted under `threshold`. -/
def passes (level threshold : Level) : Bool := level == fatal || threshold.rank ≤ level.rank

end Level

end Logbook
