import SaveLint.Number.Binary64
import SaveLint.Number.Numeral

/-!
# Decimal texts of floating-point numbers

A decimal text is a sign, digits with at most one point among or next to them, and an exponent after
`e` or `E`; the sign and the exponent may be missing. The words for infinity and for not-a-number
count as well, in any case. The result is the number nearest to the exact decimal value.
-/

namespace SaveLint.Number

open SaveLint.Text

/-- The exact value `digits * 10 ^ exponent`. -/
structure Decimal where
  digits : Nat
  exponent : Int
  deriving DecidableEq, Repr

namespace Decimal

/-- How many decimal digits a number has; zero has none. -/
def width (n : Nat) : Nat := if n = 0 then 0 else (Nat.toDigits 10 n).length

/--
The nearest floating-point number. A value of at least `10 ^ 309` is infinite, and one below
`10 ^ (-324)` rounds to zero, so no larger power of ten is ever computed.
-/
def toBinary64 (negative : Bool) (d : Decimal) : Binary64 :=
  let top : Int := width d.digits + d.exponent
  if d.digits = 0 then .finite negative 0 0
  else if 309 < top then .infinite negative
  else if top ≤ -324 then .finite negative 0 0
  else if 0 ≤ d.exponent then .ofRatio negative (d.digits * Nat.pow 10 d.exponent.toNat) 1
  else .ofRatio negative d.digits (Nat.pow 10 (-d.exponent).toNat)

def exponent? : List Char → Option Int
  | '-' :: cs => (natural? cs).map fun n => -(n : Int)
  | '+' :: cs => (natural? cs).map fun n => (n : Int)
  | cs => (natural? cs).map fun n => (n : Int)

/-- Reads digits, a point and an exponent. -/
def ofChars? (cs : List Char) : Option Decimal := do
  let whole := cs.takeWhile isAsciiDigit
  let (fraction, rest) :=
    match cs.dropWhile isAsciiDigit with
    | '.' :: rest => (rest.takeWhile isAsciiDigit, rest.dropWhile isAsciiDigit)
    | rest => ([], rest)
  guard !(whole ++ fraction).isEmpty
  let exponent ←
    match rest with
    | [] => some 0
    | 'e' :: rest => exponent? rest
    | 'E' :: rest => exponent? rest
    | _ => none
  return ⟨ofDigits (whole ++ fraction), exponent - (fraction.length : Int)⟩

end Decimal

def unsignedBinary64? (negative : Bool) (cs : List Char) : Option Binary64 :=
  let word := String.ofList (lowerAscii cs)
  if word = "inf" ∨ word = "infinity" then some (.infinite negative)
  else if word = "nan" then some .nan
  else (Decimal.ofChars? cs).map (·.toBinary64 negative)

def binary64? : List Char → Option Binary64
  | '-' :: cs => unsignedBinary64? true cs
  | '+' :: cs => unsignedBinary64? false cs
  | cs => unsignedBinary64? false cs

end SaveLint.Number
