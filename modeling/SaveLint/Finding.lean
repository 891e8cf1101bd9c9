import SaveLint.Code

/-!
# Findings

A finding is one line of an analyzer report: a place, a code and a message. Lines count from one and
columns from zero, as the analyzer counts them.
-/

namespace SaveLint

/-- One finding of the analyzer. Its line is never zero. -/
structure Finding where
  line : UInt32
  column : UInt32
  code : Code
  message : String
  line_ne_zero : line ≠ 0
  deriving DecidableEq

namespace Finding

def zeroLineMessage : String := "line numbers are 1-based, got 0"

/-- A finding, unless its line is zero. -/
def ofParts? (line column : UInt32) (code : Code) (message : String) : Option Finding :=
  if h : line = 0 then none else some ⟨line, column, code, message, h⟩

def severity (finding : Finding) : Severity := finding.code.severity

theorem ofParts?_eq_some_iff {line column : UInt32} {code : Code} {message : String}
    {f : Finding} : ofParts? line column code message = some f ↔
      f.line = line ∧ f.column = column ∧ f.code = code ∧ f.message = message := by
  unfold ofParts?
  split
  · rename_i h
    constructor
    · simp
    · rintro ⟨rfl, -⟩; exact absurd h f.line_ne_zero
  · rename_i h
    constructor
    · rintro h'; cases h'; simp
    · rintro ⟨rfl, rfl, rfl, rfl⟩; rfl

end Finding

end SaveLint
