import SaveLint.Text.Ascii
import SaveLint.Text.Utf8

/-!
# Response headers

A response has a list of headers. Names are compared without regard to case, and of several headers
with one name the first one counts. A value is text only if it has nothing but visible ASCII
characters, spaces and tabs.
-/

namespace SaveLint.Llm

structure Header where
  name : String
  value : Bytes
  deriving DecidableEq, Repr

abbrev Headers := List Header

namespace Header

/-- Whether a byte may stand in the text of a value. -/
def isTextByte (b : UInt8) : Bool := b == 9 || (32 ≤ b && b < 127)

def text? (h : Header) : Option (List Char) :=
  if h.value.all isTextByte then some (h.value.map fun b => Char.ofNat b.toNat) else none

/-- Whether a header has a name, which is given in lower case. -/
def isNamed (name : String) (h : Header) : Bool :=
  Text.lowerAscii h.name.toList == name.toList

/-- The header as it arrives: spaces and tabs around a value do not belong to it. -/
def received (h : Header) : Header :=
  let isPad (b : UInt8) : Bool := b == 9 || b == 32
  { h with value := ((h.value.dropWhile isPad).reverse.dropWhile isPad).reverse }

end Header

/-- The text of the first header with a name, which is given in lower case. -/
def Headers.text? (headers : Headers) (name : String) : Option (List Char) :=
  (headers.find? (Header.isNamed name)).bind Header.text?

end SaveLint.Llm
