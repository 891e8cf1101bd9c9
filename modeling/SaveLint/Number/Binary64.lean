/-!
# Binary floating-point numbers of 64 bits

The numbers of the binary64 format, given by their exact values: a finite number is
`mantissa * 2 ^ exponent`, where the mantissa has at most 53 bits and the exponent is at least
`-1074`. Every operation computes the exact result, as a quotient of natural numbers, and rounds it
once to the nearest number of the format (`ofRatio`); halfway between two, the one with the even
mantissa is taken. A number need not have a unique form, so numbers are compared by value.
-/

namespace SaveLint.Number

/-- The integer nearest to a quotient; halfway between two, the even one. -/
def roundRatio (num den : Nat) : Nat :=
  let q := num / den
  let twice := 2 * (num % den)
  if twice < den then q
  else if den < twice then q + 1
  else if q % 2 = 0 then q else q + 1

inductive Binary64 where
  | nan
  | infinite (negative : Bool)
  | finite (negative : Bool) (mantissa : Nat) (exponent : Int)
  deriving Repr, Inhabited

namespace Binary64

def zero : Binary64 := finite false 0 0

def maxExponent : Int := 971

def minExponent : Int := -1074

/-- The quotient `num / den` divided by `2 ^ e`, again as a quotient. -/
def scaleDown (num den : Nat) (e : Int) : Nat × Nat :=
  if 0 ≤ e then (num, den * Nat.pow 2 e.toNat) else (num * Nat.pow 2 (-e).toNat, den)

/-- The largest `l` with `2 ^ l ≤ num / den`, for a positive quotient. -/
def floorLog (num den : Nat) : Int :=
  let l : Int := (num.log2 : Int) - (den.log2 : Int)
  let (n, d) := scaleDown num den l
  if d ≤ n then l else l - 1

/-- The number nearest to a quotient. -/
def ofRatio (negative : Bool) (num den : Nat) : Binary64 :=
  if num = 0 then finite negative 0 0
  else
    let e := max (floorLog num den - 52) minExponent
    let (n, d) := scaleDown num den e
    let mantissa := roundRatio n d
    if maxExponent < e || (e = maxExponent && Nat.pow 2 53 ≤ mantissa) then infinite negative
    else finite negative mantissa e

/-- The absolute value of a finite number as a quotient. -/
def ratio (mantissa : Nat) (exponent : Int) : Nat × Nat := scaleDown mantissa 1 (-exponent)

def ofNat (n : Nat) : Binary64 := ofRatio false n 1

/-- The number nearest to `mantissa * 2 ^ exponent`. -/
def ofDyadic (negative : Bool) (mantissa : Nat) (exponent : Int) : Binary64 :=
  let (n, d) := ratio mantissa exponent
  ofRatio negative n d

def mul : Binary64 → Binary64 → Binary64
  | nan, _ => nan
  | _, nan => nan
  | infinite s, infinite t => infinite (s != t)
  | infinite s, finite t m _ => if m = 0 then nan else infinite (s != t)
  | finite s m _, infinite t => if m = 0 then nan else infinite (s != t)
  | finite s m e, finite t n f => ofDyadic (s != t) (m * n) (e + f)

/-- The quotient by a positive natural number that the format holds. -/
def divNat (x : Binary64) (k : Nat) : Binary64 :=
  match x with
  | nan => nan
  | infinite s => infinite s
  | finite s m e =>
    let (n, d) := ratio m e
    ofRatio s n (d * k)

def addAbs : Binary64 → Binary64 → Binary64
  | nan, _ => nan
  | _, nan => nan
  | infinite _, _ => infinite false
  | _, infinite _ => infinite false
  | finite _ m e, finite _ n f =>
    let (a, b) := ratio m e
    let (c, d) := ratio n f
    ofRatio false (a * d + c * b) (b * d)

def lt : Binary64 → Binary64 → Bool
  | nan, _ => false
  | _, nan => false
  | infinite s, infinite t => s && !t
  | infinite s, finite _ _ _ => s
  | finite _ _ _, infinite t => !t
  | finite s m e, finite t n f =>
    let (a, b) := ratio m e
    let (c, d) := ratio n f
    if s then
      if t then c * b < a * d else a != 0 || c != 0
    else if t then false
    else a * d < c * b

/-- The smaller one of two numbers; a number is preferred to `nan`. -/
def least : Binary64 → Binary64 → Binary64
  | nan, y => y
  | x, nan => x
  | x, y => if lt y x then y else x

def isPositive : Binary64 → Bool
  | finite false m _ => m != 0
  | _ => false

def isInfinite : Binary64 → Bool
  | infinite _ => true
  | _ => false

/--
A power of two, found by squaring: a negative exponent gives the reciprocal of the positive power,
so below `2 ^ (-1023)` the result is zero.
-/
def twoPow (n : Int) : Binary64 :=
  if 1024 ≤ n then infinite false
  else if n ≤ -1024 then zero
  else finite false 1 n

end Binary64

end SaveLint.Number
