import Logbook.Time.Pattern
import Logbook.Text.Search

/-!
# Path templates

A template is a path with tokens. The date tokens `yyyy`, `yy`, `MM`, `dd` and `HH` are replaced one
after the other, each at its first occurrence only, by the year, its last two digits, the month, the
day and the hour. The token `index` is replaced everywhere by a counter.
-/

namespace Logbook.Template

open Time (Stamp)

/-- The token that stands for the counter. -/
def indexToken : List Char := ['i', 'n', 'd', 'e', 'x']

/-- The date tokens and the specifiers they stand for, in the order in which they are replaced. -/
def dateTokens : List (List Char × List Char) :=
  [(['y', 'y', 'y', 'y'], ['%', 'Y']), (['y', 'y'], ['%', 'y']), (['M', 'M'], ['%', 'm']),
    (['d', 'd'], ['%', 'd']), (['H', 'H'], ['%', 'H'])]

def escapePercents (s : List Char) : List Char :=
  s.flatMap fun c => if c = '%' then ['%', '%'] else [c]

def pattern (template : List Char) : List Char :=
  dateTokens.foldl (fun s (token, specifier) => Text.replaceFirst token specifier s)
    (escapePercents template)

def resolve (template : List Char) (t : Stamp) : List Char :=
  (Time.Pattern.render? (pattern template) t).getD template

def hasDateTokens (template : List Char) : Bool :=
  dateTokens.any fun (token, _) => Text.contains token template

/-- Whether a template has the token for the counter. -/
def hasIndex (template : List Char) : Bool := Text.contains indexToken template

/-- A resolved template with the counter in place. -/
def candidate (resolved : List Char) (index : Nat) : List Char :=
  Text.replaceAll indexToken (Decimal.digitsOf index) resolved

end Logbook.Template
