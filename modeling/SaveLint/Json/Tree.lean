import SaveLint.Text.Utf8

/-!
# The shape of a JSON text

`Tree.ofBytes?` checks the shape of a JSON text: brackets, commas, literals, the form of numbers and
of strings. Strings and numbers are left as they are written, so that a reader who skips a part of
the text does not have to give it a meaning: a skipped string may hold bytes that are no UTF-8 or an
escape for half of a surrogate pair, and a skipped number may be too large.
-/

namespace SaveLint.Json

/-- A JSON text as a tree; the texts of numbers and strings are kept as they are written. -/
inductive Tree where
  | null
  | bool (b : Bool)
  /-- The text of a number. -/
  | number (literal : Bytes)
  /-- The text between the quotation marks of a string. -/
  | string (literal : Bytes)
  | array (items : List Tree)
  /-- The members in order, each name as the text between its quotation marks. -/
  | object (members : List (Bytes × Tree))
  deriving Inhabited

def byte (c : Char) : UInt8 := c.toNat.toUInt8

def isSpace (b : UInt8) : Bool := b == 0x20 || b == 0x0A || b == 0x0D || b == 0x09

def skipSpace (bs : Bytes) : Bytes := bs.dropWhile isSpace

def isDigitByte (b : UInt8) : Bool := 0x30 ≤ b && b ≤ 0x39

def isHexByte (b : UInt8) : Bool :=
  isDigitByte b || (0x41 ≤ b && b ≤ 0x46) || (0x61 ≤ b && b ≤ 0x66)

namespace Tree

/-! ### Strings -/

/-- Whether a byte after a backslash is an escape by itself. -/
def isShortEscape (b : UInt8) : Bool := ['"', '\\', '/', 'b', 'f', 'n', 'r', 't'].any (byte · == b)

/--
Reads a string after its opening quotation mark, given in reverse what is read already. An escape is
a backslash with a letter or with `u` and four hexadecimal digits; controls have to be escaped.
-/
def stringEnd? (read : Bytes) : Bytes → Option (Bytes × Bytes)
  | [] => none
  | 0x22 :: rest => some (read.reverse, rest)
  | 0x5C :: 0x75 :: a :: b :: c :: d :: rest =>
    if [a, b, c, d].all isHexByte then
      stringEnd? (d :: c :: b :: a :: 0x75 :: 0x5C :: read) rest
    else none
  | 0x5C :: b :: rest => if isShortEscape b then stringEnd? (b :: 0x5C :: read) rest else none
  | b :: rest => if b < 0x20 || b == 0x5C then none else stringEnd? (b :: read) rest

/-! ### Numbers -/

/-- The digits at the start of a text, at least one. -/
def digits? (bs : Bytes) : Option (Bytes × Bytes) :=
  match bs.takeWhile isDigitByte with
  | [] => none
  | ds => some (ds, bs.dropWhile isDigitByte)

/-- The whole part of a number: digits that start with zero only if there is no other digit. -/
def whole? : Bytes → Option (Bytes × Bytes)
  | 0x30 :: rest => some ([0x30], rest)
  | bs => digits? bs

def fraction? : Bytes → Option (Bytes × Bytes)
  | 0x2E :: rest => (digits? rest).map fun (ds, rest) => (0x2E :: ds, rest)
  | bs => some ([], bs)

def exponent? (bs : Bytes) : Option (Bytes × Bytes) :=
  match bs with
  | e :: rest =>
    if e == byte 'e' || e == byte 'E' then
      match rest with
      | s :: more =>
        if s == byte '+' || s == byte '-' then
          (digits? more).map fun (ds, rest) => (e :: s :: ds, rest)
        else (digits? rest).map fun (ds, rest) => (e :: ds, rest)
      | [] => none
    else some ([], bs)
  | [] => some ([], [])

def number? (bs : Bytes) : Option (Bytes × Bytes) := do
  let (sign, bs) :=
    match bs with
    | 0x2D :: rest => (([0x2D] : Bytes), rest)
    | bs => ([], bs)
  let (w, bs) ← whole? bs
  let (f, bs) ← fraction? bs
  let (e, bs) ← exponent? bs
  return (sign ++ w ++ f ++ e, bs)

/-! ### Values -/

def word? (word : String) (tree : Tree) (bs : Bytes) : Option (Tree × Bytes) :=
  let w := bytesOf word
  if bs.take w.length = w then some (tree, bs.drop w.length) else none

mutual

/-- Reads a value after white space. The fuel bounds the nesting and the number of items. -/
def value? : Nat → Bytes → Option (Tree × Bytes)
  | 0, _ => none
  | fuel + 1, bs =>
    match skipSpace bs with
    | [] => none
    | 0x22 :: rest => (stringEnd? [] rest).map fun (s, rest) => (.string s, rest)
    | 0x5B :: rest =>
      match skipSpace rest with
      | 0x5D :: rest => some (.array [], rest)
      | rest => (items? fuel [] rest).map fun (items, rest) => (.array items, rest)
    | 0x7B :: rest =>
      match skipSpace rest with
      | 0x7D :: rest => some (.object [], rest)
      | rest => (members? fuel [] rest).map fun (members, rest) => (.object members, rest)
    | b :: rest =>
      if b == byte 't' then word? "true" (.bool true) (b :: rest)
      else if b == byte 'f' then word? "false" (.bool false) (b :: rest)
      else if b == byte 'n' then word? "null" .null (b :: rest)
      else (number? (b :: rest)).map fun (n, rest) => (.number n, rest)

/-- Reads the items of an array up to its closing bracket, given the items before in reverse. -/
def items? : Nat → List Tree → Bytes → Option (List Tree × Bytes)
  | 0, _, _ => none
  | fuel + 1, before, bs =>
    match value? fuel bs with
    | none => none
    | some (item, rest) =>
      match skipSpace rest with
      | 0x2C :: rest => items? fuel (item :: before) rest
      | 0x5D :: rest => some ((item :: before).reverse, rest)
      | _ => none

/-- Reads the members of an object up to its closing brace, given the members before in reverse. -/
def members? : Nat → List (Bytes × Tree) → Bytes → Option (List (Bytes × Tree) × Bytes)
  | 0, _, _ => none
  | fuel + 1, before, bs =>
    match skipSpace bs with
    | 0x22 :: rest =>
      match stringEnd? [] rest with
      | none => none
      | some (name, rest) =>
        match skipSpace rest with
        | 0x3A :: rest =>
          match value? fuel rest with
          | none => none
          | some (item, rest) =>
            match skipSpace rest with
            | 0x2C :: rest => members? fuel ((name, item) :: before) rest
            | 0x7D :: rest => some (((name, item) :: before).reverse, rest)
            | _ => none
        | _ => none
    | _ => none

end

/-- The tree of a JSON text: one value with nothing but white space around it. -/
def ofBytes? (bs : Bytes) : Option Tree :=
  match value? (2 * bs.length + 2) bs with
  | some (tree, rest) => if skipSpace rest = [] then some tree else none
  | none => none

end Tree

end SaveLint.Json
