import SaveLint.Path.Basic

/-!
# File identities

What diagnostics and reports belong to: an absolute path. Two identities are the same file when
their paths have the same components.
-/

namespace SaveLint

/-- The name of a file that diagnostics belong to; its path is absolute. -/
structure FileIdentity where
  path : Path
  isAbsolute : path.isAbsolute = true
  deriving DecidableEq

namespace FileIdentity

/-- The identity of an absolute path; a relative or empty path has none. -/
def ofPath? (p : Path) : Option FileIdentity :=
  if h : p.isAbsolute = true then some ⟨p, h⟩ else none

def same (a b : FileIdentity) : Bool := a.path.same b.path

theorem same_iff {a b : FileIdentity} :
    a.same b = true ↔ a.path.components = b.path.components :=
  Path.same_iff

theorem ofPath?_empty : ofPath? ⟨""⟩ = none := by simp [ofPath?, Path.isAbsolute]

end FileIdentity

end SaveLint
