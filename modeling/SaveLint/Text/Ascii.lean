/-!
# ASCII characters

The classes and the case of ASCII characters. They are the right ones wherever the format of a text
admits ASCII alone, as in lint codes, numerals and header names.
-/

namespace SaveLint.Text

def isAsciiDigit (c : Char) : Bool := '0' ≤ c && c ≤ '9'

def isAsciiCapital (c : Char) : Bool := 'A' ≤ c && c ≤ 'Z'

def digitValue (c : Char) : Nat := c.toNat - '0'.toNat

/-- The lower-case form of an ASCII capital; every other character stays. -/
def lowerAsciiChar (c : Char) : Char := if isAsciiCapital c then Char.ofNat (c.toNat + 32) else c

def lowerAscii (cs : List Char) : List Char := cs.map lowerAsciiChar

def isAsciiLetter (c : Char) : Bool := isAsciiCapital c || ('a' ≤ c && c ≤ 'z')

def hexValue? (c : Char) : Option Nat :=
  if isAsciiDigit c then some (digitValue c)
  else if 'a' ≤ c && c ≤ 'f' then some (c.toNat - 'a'.toNat + 10)
  else if 'A' ≤ c && c ≤ 'F' then some (c.toNat - 'A'.toNat + 10)
  else none

def ofHex? (cs : List Char) : Option Nat :=
  cs.foldlM (fun n c => (hexValue? c).map (16 * n + ·)) 0

end SaveLint.Text
