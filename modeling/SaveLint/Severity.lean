/-!
# Severities

How serious a diagnostic is. Errors come first, then warnings, then information. A severity has a
full name, used in data, and a short label, used in listings.
-/

namespace SaveLint

inductive Severity where
  | error
  | warning
  | information
  deriving DecidableEq, Repr, Inhabited

namespace Severity

/-- The name used in data. -/
def name : Severity → String
  | error => "error"
  | warning => "warning"
  | information => "information"

/-- The label used in listings. -/
def label : Severity → String
  | error => "error"
  | warning => "warning"
  | information => "info"

def ofName? (s : String) : Option Severity :=
  [error, warning, information].find? (·.name == s)

/-- The most serious severity comes first. -/
def rank : Severity → Nat
  | error => 0
  | warning => 1
  | information => 2

def sorted (ss : List Severity) : List Severity := ss.mergeSort (·.rank ≤ ·.rank)

/-- The severity of a category letter: `E` and `F` are errors, `I` is information. -/
def ofCategory (letter : Char) : Severity :=
  if letter = 'E' ∨ letter = 'F' then error
  else if letter = 'I' then information
  else warning

theorem ofName?_name (s : Severity) : ofName? s.name = some s := by cases s <;> decide

end Severity

end SaveLint
