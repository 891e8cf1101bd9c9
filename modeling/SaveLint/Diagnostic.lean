import SaveLint.Fault
import SaveLint.Finding

/-!
# Diagnostics

A diagnostic is a finding as an editor shows it: a range of the document, counted from zero, with a
severity, a message, a code and the label of the analyzer. In a listing the place is counted from
one, and this is where the arithmetic of positions can leave its range (`Position.fromOne`).
-/

namespace SaveLint

/-- A place in a document; the line and the character count from zero. -/
structure Position where
  line : UInt32
  character : UInt32
  deriving DecidableEq, Repr

namespace Position

def le (p q : Position) : Bool :=
  p.line < q.line || (p.line == q.line && p.character ≤ q.character)

def sorted (ps : List Position) : List Position := ps.mergeSort le

/-- Line and character as they are, counted from zero. -/
def shown (p : Position) : String := s!"{p.line.toNat}:{p.character.toNat}"

/-- The number that follows a coordinate, if it still fits in 32 bits. -/
def successor (n : UInt32) : Except Fault Nat :=
  if n.toNat + 1 < UInt32.size then .ok (n.toNat + 1) else .error .positionOverflow

def fromOne (p : Position) : Except Fault (Nat × Nat) := do
  let line ← successor p.line
  let character ← successor p.character
  return (line, character)

end Position

structure Range where
  start : Position
  stop : Position
  deriving DecidableEq, Repr

namespace Range

def point (p : Position) : Range := ⟨p, p⟩

def isPoint (r : Range) : Bool := r.start == r.stop

end Range

structure Diagnostic where
  range : Range
  severity : Severity
  message : String
  code : Code
  source : String
  deriving DecidableEq

namespace Diagnostic

/-- The diagnostic of a finding: its point, counted from zero, and the severity of its code. -/
def ofFinding (source : String) (f : Finding) : Diagnostic where
  range := .point ⟨f.line - 1, f.column⟩
  severity := f.severity
  message := f.message
  code := f.code
  source := source

/-- The diagnostic as a line of a listing: place, label, source, code and message. -/
def listed (path : String) (d : Diagnostic) : Except Fault String := do
  let (line, character) ← d.range.start.fromOne
  return s!"{path}:{line}:{character}: {d.severity.label}: [{d.source} {d.code.text}] {d.message}"

end Diagnostic

end SaveLint
