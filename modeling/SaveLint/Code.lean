import SaveLint.Severity
import SaveLint.Text.Ascii
import SaveLint.Text.Quoted

/-!
# Lint codes

A code names a rule of the analyzer: a category letter and a number of four digits, such as `E0001`.
The letter decides the severity.
-/

namespace SaveLint

namespace Code

/-- One ASCII capital followed by four ASCII digits. -/
def IsWritten : List Char → Bool
  | [letter, a, b, c, d] =>
    Text.isAsciiCapital letter && [a, b, c, d].all Text.isAsciiDigit
  | _ => false

end Code

/-- A lint code, kept as it is written. -/
structure Code where
  chars : List Char
  isWritten : Code.IsWritten chars = true
  deriving DecidableEq

namespace Code

structure Malformed where
  text : String
  deriving DecidableEq

def Malformed.message (e : Malformed) : String :=
  "lint code must be one uppercase letter and 4 digits, got " ++ Text.quoted e.text

def ofChars? (cs : List Char) : Option Code :=
  if h : IsWritten cs = true then some ⟨cs, h⟩ else none

def parse (s : String) : Except Malformed Code :=
  match ofChars? s.toList with
  | some code => .ok code
  | none => .error ⟨s⟩

def text (code : Code) : String := String.ofList code.chars

def category (code : Code) : Char := code.chars.headD 'W'

def severity (code : Code) : Severity := Severity.ofCategory code.category

theorem ofChars?_chars (code : Code) : ofChars? code.chars = some code := by
  simp [ofChars?, code.isWritten]

theorem chars_of_ofChars? {cs : List Char} {code : Code} (h : ofChars? cs = some code) :
    code.chars = cs := by
  unfold ofChars? at h
  split at h
  · cases h; rfl
  · cases h

theorem ofChars?_eq_some_iff {cs : List Char} {code : Code} :
    ofChars? cs = some code ↔ code.chars = cs :=
  ⟨chars_of_ofChars?, fun h => h ▸ ofChars?_chars code⟩

end Code

end SaveLint
