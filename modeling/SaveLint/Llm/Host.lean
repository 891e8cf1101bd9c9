import SaveLint.Number.Numeral
import SaveLint.Text.Utf8

/-!
# Hosts

The host of an address is a name or a number. A name is percent-decoded and put into lower case. A
host whose last part is a number is an address of four bytes, written in up to four parts, each of
them decimal, octal or hexadecimal (`Host.ofNumber?`). A host in brackets is an address of eight
16-bit pieces, in which one run of zeros may be left out (`Host.ofPieces?`). The normal form of both
is unique: four decimal bytes, and lower-case pieces with the longest run of zeros left out.
-/

namespace SaveLint.Llm.Host

open SaveLint.Text

/-- A text cut at every occurrence of a separator; there is always at least one part. -/
def split (separator : Char) (cs : List Char) : List (List Char) := go cs [] []
where
  go : List Char → List Char → List (List Char) → List (List Char)
    | [], part, done => (part.reverse :: done).reverse
    | c :: cs, part, done =>
      if c = separator then go cs [] (part.reverse :: done) else go cs (c :: part) done

/-! ### Names -/

def percentDecoded (cs : List Char) : Bytes :=
  match cs with
  | [] => []
  | '%' :: a :: b :: rest =>
    match ofHex? [a, b] with
    | some n => n.toUInt8 :: percentDecoded rest
    | none => String.utf8EncodeChar '%' ++ percentDecoded (a :: b :: rest)
  | c :: rest => String.utf8EncodeChar c ++ percentDecoded rest

def isForbidden (c : Char) : Bool :=
  c.toNat ≤ 0x20 || c.toNat == 0x7F ||
    ['#', '%', '/', ':', '<', '>', '?', '@', '[', '\\', ']', '^', '|'].contains c

/-- A name in lower case; it may not be empty. -/
def name? (cs : List Char) : Option (List Char) := do
  let name ← decode? (percentDecoded cs)
  guard (!name.isEmpty && !name.any isForbidden)
  return lowerAscii name

/-! ### Addresses of four bytes -/

def ofBase? (base : Nat) (cs : List Char) : Option Nat :=
  cs.foldlM (fun n c => (hexValue? c).bind fun d => if d < base then some (base * n + d) else none) 0

/-- A part of a number: decimal, octal after `0`, or hexadecimal after `0x`. -/
def numberPart? : List Char → Option Nat
  | [] => none
  | '0' :: 'x' :: cs => ofBase? 16 cs
  | '0' :: 'X' :: cs => ofBase? 16 cs
  | '0' :: c :: cs => ofBase? 8 (c :: cs)
  | cs => ofBase? 10 cs

/-- The parts of a name between its dots; one dot at the end does not count. -/
def parts (cs : List Char) : List (List Char) :=
  match (split '.' cs).reverse with
  | [] :: above => above.reverse
  | _ => split '.' cs

def endsInNumber (cs : List Char) : Bool :=
  match (parts cs).getLast? with
  | some last => (last != [] && last.all isAsciiDigit) || (numberPart? last).isSome
  | none => false

/-- The address that parts stand for: the last part fills all the bytes that are left. -/
def addressOf? : Nat → List Nat → Option Nat
  | 0, _ => none
  | _ + 1, [] => none
  | left + 1, [last] => if last < Nat.pow 256 (left + 1) then some last else none
  | left + 1, byte :: more =>
    if byte < 256 then (addressOf? left more).map (byte * Nat.pow 256 left + ·) else none

def ofNumber? (cs : List Char) : Option (List Char) := do
  let n ← addressOf? 4 (← (parts cs).mapM numberPart?)
  let bytes := [n / 256 / 256 / 256, n / 256 / 256 % 256, n / 256 % 256, n % 256]
  return ".".toList.intercalate (bytes.map (Nat.toDigits 10))

/-! ### Addresses of eight pieces -/

/-- One byte in decimal, without leading zeros. -/
def plainByte? (cs : List Char) : Option Nat :=
  if cs.head? = some '0' ∧ cs.length ≠ 1 then none else Number.naturalUpTo? 255 cs

/-- The pieces that one part stands for: up to four digits, or four bytes in the last part. -/
def piece? (isLast : Bool) (cs : List Char) : Option (List Nat) :=
  if isLast && cs.contains '.' then
    match (split '.' cs).mapM plainByte? with
    | some [a, b, c, d] => some [256 * a + b, 256 * c + d]
    | _ => none
  else if cs.isEmpty || 4 < cs.length then none
  else (ofHex? cs).map ([·])

/-- The pieces of a text between its colons; the empty text has none. -/
def pieces? (cs : List Char) : Option (List Nat) :=
  if cs.isEmpty then some []
  else
    let ps := split ':' cs
    (ps.zipIdx.mapM fun (p, k) => piece? (k + 1 = ps.length) p).map List.flatten

/--
The text before the first two colons in a row and the text after them, given in reverse what is read
already.
-/
def gap? (read : List Char) : List Char → Option (List Char × List Char)
  | [] => none
  | ':' :: ':' :: rest => some (read.reverse, rest)
  | c :: rest => gap? (c :: read) rest

def address? (cs : List Char) : Option (List Nat) := do
  match gap? [] cs with
  | none =>
    let ps ← pieces? cs
    guard (ps.length = 8)
    return ps
  | some (before, after) =>
    guard (!before.contains '.')
    let front ← pieces? before
    let back ← pieces? after
    guard (front.length + back.length < 8)
    return front ++ List.replicate (8 - front.length - back.length) 0 ++ back

def zeros (ps : List Nat) : Nat := (ps.takeWhile (· == 0)).length

/-- Where the first one of the longest runs of zeros starts, if it has two zeros or more. -/
def longestGap (ps : List Nat) : Option (Nat × Nat) :=
  (List.range ps.length).foldl (fun best k =>
    let n := zeros (ps.drop k)
    if 2 ≤ n && best.all fun (_, m) => m < n then some (k, n) else best) none

def piecesText (ps : List Nat) : List Char := ":".toList.intercalate (ps.map (Nat.toDigits 16))

/-- The normal form of an address in brackets, given the text between them. -/
def ofPieces? (cs : List Char) : Option (List Char) := do
  let ps ← address? cs
  let text :=
    match longestGap ps with
    | none => piecesText ps
    | some (k, n) => piecesText (ps.take k) ++ [':', ':'] ++ piecesText (ps.drop (k + n))
  return '[' :: text ++ [']']

def read? (cs : List Char) : Option (List Char) :=
  match cs with
  | '[' :: inner => if inner.getLast? = some ']' then ofPieces? inner.dropLast else none
  | _ => (name? cs).bind fun name => if endsInNumber name then ofNumber? name else some name

example : ofNumber? ['0', 'x', '7', 'f', '.', '1'] = some "127.0.0.1".toList := by decide

example : ofPieces? ['0', ':', ':', '1', ':', '0', ':', '0'] = some "[::1:0:0]".toList := by decide

end SaveLint.Llm.Host
