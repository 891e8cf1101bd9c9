/-!
# Spans of code points

A property of characters is written down as the list of the closed spans of code points that have
it. `Spans.has` decides membership.
-/

namespace SaveLint.Text

/-- Closed spans of code points, each given by its first and its last member. -/
abbrev Spans := List (Nat × Nat)

def Spans.has (spans : Spans) (c : Char) : Bool :=
  spans.any fun (first, last) => first ≤ c.toNat && c.toNat ≤ last

theorem Spans.has_iff {spans : Spans} {c : Char} :
    spans.has c = true ↔ ∃ s ∈ spans, s.1 ≤ c.toNat ∧ c.toNat ≤ s.2 := by
  simp [Spans.has]

end SaveLint.Text
