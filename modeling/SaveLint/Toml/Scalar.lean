import SaveLint.Json.Value

/-!
# Reading TOML texts: numbers, truth values and dates

A scalar is a word without white space. Whole numbers are decimal, with a sign and underscores
between digits, or have one of three other bases; other numbers have a fraction or an exponent, or
are one of the words for infinity and not-a-number. A date and a time are checked for their form and
for the ranges of their parts.
-/

namespace SaveLint.Toml

open SaveLint.Text SaveLint.Number

/-- The digits of a text in which single underscores stand between digits. -/
def grouped? (isDigit : Char → Bool) (cs : List Char) : Option (List Char) :=
  let rec go : List Char → Option (List Char)
    | [] => none
    | [d] => if isDigit d then some [d] else none
    | d :: '_' :: rest => if isDigit d then (go rest).map (d :: ·) else none
    | d :: rest => if isDigit d then (go rest).map (d :: ·) else none
  go cs

def ofBase (base : Nat) (cs : List Char) : Nat :=
  cs.foldl (fun n c => base * n + (hexValue? c).getD 0) 0

/-- A whole number as data; beyond 64 bits it is only a number, and beyond 128 bits it is none. -/
def wholeNumber? (n : Int) (word : List Char) : Option Json :=
  if -(Nat.pow 2 63 : Int) ≤ n ∧ n < Nat.pow 2 64 then some (.integer n)
  else if -(Nat.pow 2 127 : Int) ≤ n ∧ n < Nat.pow 2 128 then some (.real (String.ofList word))
  else none

/-- Digits of a base after the letter that announces it. -/
def based? (base : Nat) (isDigit : Char → Bool) (digits word : List Char) : Option Json :=
  (grouped? isDigit digits).bind fun ds => wholeNumber? (ofBase base ds) word

def decimalDigits? (cs : List Char) : Option (List Char) :=
  (grouped? isAsciiDigit cs).filter fun ds => ds.length = 1 || ds.head? != some '0'

def isExponent : List Char → Bool
  | '+' :: cs => (grouped? isAsciiDigit cs).isSome
  | '-' :: cs => (grouped? isAsciiDigit cs).isSome
  | cs => (grouped? isAsciiDigit cs).isSome

def isExponentMark (c : Char) : Bool := c == 'e' || c == 'E'

/-- Whether an unsigned text is a number with a fraction or an exponent. -/
def isFloat (cs : List Char) : Bool :=
  let whole := cs.takeWhile fun c => isAsciiDigit c || c == '_'
  let exponentOk (rest : List Char) : Bool :=
    match rest with
    | [] => true
    | _ :: rest => isExponent rest
  (decimalDigits? whole).isSome &&
    match cs.drop whole.length with
    | '.' :: rest =>
      let fraction := rest.takeWhile (!isExponentMark ·)
      (grouped? isAsciiDigit fraction).isSome && exponentOk (rest.drop fraction.length)
    | c :: rest => isExponentMark c && isExponent rest
    | [] => false

def unsigned? (negative : Bool) (cs word : List Char) : Option Json :=
  if cs = ['i', 'n', 'f'] ∨ cs = ['n', 'a', 'n'] then some (.real (String.ofList word))
  else
    match decimalDigits? cs with
    | some ds =>
      let n : Int := ofDigits ds
      wholeNumber? (if negative then -n else n) word
    | none =>
      if isFloat cs then
        match binary64? (cs.filter (· != '_')) with
        | some x => if x.isInfinite then none else some (.real (String.ofList word))
        | none => none
      else none

def number? (word : List Char) : Option Json :=
  match word with
  | '0' :: 'x' :: ds => based? 16 (fun c => (hexValue? c).isSome) ds word
  | '0' :: 'o' :: ds => based? 8 (fun c => '0' ≤ c && c ≤ '7') ds word
  | '0' :: 'b' :: ds => based? 2 (fun c => c == '0' || c == '1') ds word
  | '+' :: cs => unsigned? false cs word
  | '-' :: cs => unsigned? true cs word
  | cs => unsigned? false cs word

/-! ### Dates and times -/

/-- Two digits as a number of at most `bound`. -/
def twoDigits? (bound : Nat) : List Char → Option (Nat × List Char)
  | a :: b :: cs => (naturalUpTo? bound [a, b]).map (·, cs)
  | _ => none

def isLeap (year : Nat) : Bool := year % 4 == 0 && (year % 100 != 0 || year % 400 == 0)

def daysOf (year month : Nat) : Nat :=
  if month = 2 then (if isLeap year then 29 else 28)
  else if month ∈ [4, 6, 9, 11] then 30
  else 31

def afterDate? : List Char → Option (List Char)
  | a :: b :: c :: d :: '-' :: cs => do
    let year ← natural? [a, b, c, d]
    match ← twoDigits? 12 cs with
    | (month, '-' :: cs) =>
      guard (month != 0)
      let (day, cs) ← twoDigits? (daysOf year month) cs
      guard (day != 0)
      return cs
    | _ => none
  | _ => none

/-- The text after a time; the seconds and their fraction are optional. -/
def afterTime? (cs : List Char) : Option (List Char) := do
  match ← twoDigits? 23 cs with
  | (_, ':' :: cs) =>
    match ← twoDigits? 59 cs with
    | (_, ':' :: cs) =>
      match ← twoDigits? 60 cs with
      | (_, '.' :: cs) =>
        guard ((cs.takeWhile isAsciiDigit) != [])
        return cs.dropWhile isAsciiDigit
      | (_, cs) => return cs
    | (_, cs) => return cs
  | _ => none

/-- Whether a text is empty or the offset of a time zone. -/
def isOffset : List Char → Bool
  | [] => true
  | ['Z'] => true
  | ['z'] => true
  | sign :: cs =>
    (sign == '+' || sign == '-') &&
      match twoDigits? 23 cs with
      | some (_, ':' :: cs) => (twoDigits? 59 cs).any (·.2 = [])
      | _ => false

def isDateTime (cs : List Char) : Bool :=
  match afterDate? cs with
  | some [] => true
  | some (mark :: rest) =>
    (mark == 'T' || mark == 't' || mark == ' ') && (afterTime? rest).any isOffset
  | none => (afterTime? cs).any (· = [])

/-- A scalar. A date is data of its own kind, an object that no section has as a field. -/
def word? (word : List Char) : Option Json :=
  if word = "true".toList then some (.bool true)
  else if word = "false".toList then some (.bool false)
  else if isDateTime word then some (.object [("datetime", .string (String.ofList word))])
  else number? word

end SaveLint.Toml
