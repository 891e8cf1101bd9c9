import SaveLint.Json.Tree
import SaveLint.Number.Decimal

/-!
# JSON values

A value gives every part of a JSON text its meaning. Reading one is stricter than reading the shape
(`Tree.ofBytes?`): strings are UTF-8 and have no unpaired surrogate, numbers stay in the range of
the floating-point format, and brackets nest less than 128 deep.
-/

namespace SaveLint

inductive Json where
  | null
  | bool (b : Bool)
  /-- A whole number of 64 bits, with or without a sign. -/
  | integer (n : Int)
  /-- Any other number, as it is written. -/
  | real (literal : String)
  | string (s : String)
  | array (items : List Json)
  /-- The members in order; no name comes twice. -/
  | object (members : List (String × Json))
  deriving Inhabited

namespace Json

/-! ### Strings -/

/-- The number of four hexadecimal digits at the start of a text. -/
def unit? : List Char → Option (Nat × List Char)
  | a :: b :: c :: d :: rest => (Text.ofHex? [a, b, c, d]).map (·, rest)
  | _ => none

/-- Whether a number is the first half of a surrogate pair. -/
def isHighHalf (n : Nat) : Bool := 0xD800 ≤ n && n ≤ 0xDBFF

/-- Whether a number is the second half of a surrogate pair. -/
def isLowHalf (n : Nat) : Bool := 0xDC00 ≤ n && n ≤ 0xDFFF

/-- The character that a letter after a backslash stands for. -/
def escaped? : Char → Option Char
  | '"' => some '"'
  | '\\' => some '\\'
  | '/' => some '/'
  | 'b' => some '\x08'
  | 'f' => some '\x0c'
  | 'n' => some '\n'
  | 'r' => some '\r'
  | 't' => some '\t'
  | _ => none

theorem length_of_unit? {cs rest : List Char} {n : Nat} (h : unit? cs = some (n, rest)) :
    rest.length < cs.length := by
  unfold unit? at h
  split at h
  · simp only [Option.map_eq_some_iff, Prod.mk.injEq] at h
    obtain ⟨_, _, _, rfl⟩ := h
    simp only [List.length_cons]; omega
  · cases h

/-- The first character of a string, its escape resolved, and what follows. -/
def char? : List Char → Option (Char × List Char)
  | '\\' :: 'u' :: rest => do
    let (n, rest) ← unit? rest
    if isLowHalf n then none
    else if isHighHalf n then
      match rest with
      | '\\' :: 'u' :: more =>
        let (m, rest) ← unit? more
        if isLowHalf m then
          some (Char.ofNat (0x10000 + (n - 0xD800) * 1024 + (m - 0xDC00)), rest)
        else none
      | _ => none
    else some (Char.ofNat n, rest)
  | '\\' :: c :: rest => (escaped? c).map (·, rest)
  | ['\\'] => none
  | c :: rest => some (c, rest)
  | [] => none

theorem length_of_char? {cs rest : List Char} {c : Char} (h : char? cs = some (c, rest)) :
    rest.length < cs.length := by
  unfold char? at h
  split at h
  · obtain ⟨⟨n, after⟩, hunit, h⟩ := Option.bind_eq_some_iff.mp h
    have hafter := length_of_unit? hunit
    dsimp only at h
    simp only [List.length_cons]
    split at h
    · cases h
    · split at h
      · split at h
        · obtain ⟨⟨m, last⟩, hunit, h⟩ := Option.bind_eq_some_iff.mp h
          have hlast := length_of_unit? hunit
          dsimp only at h
          simp only [List.length_cons] at hafter
          split at h
          · obtain ⟨-, rfl⟩ := Prod.mk.inj (Option.some.inj h)
            omega
          · cases h
        · cases h
      · cases h
        omega
  · obtain ⟨_, _, heq⟩ := Option.map_eq_some_iff.mp h
    cases heq
    simp only [List.length_cons]
    omega
  · cases h
  · cases h
    exact Nat.lt_succ_self _
  · cases h

/-- Resolves the escapes of a string, given in reverse what is read already. -/
def unescape? (read : List Char) (cs : List Char) : Option (List Char) :=
  if cs = [] then some read.reverse
  else
    match _h : char? cs with
    | none => none
    | some (c, rest) => unescape? (c :: read) rest
termination_by cs.length
decreasing_by exact length_of_char? _h

def string? (literal : Bytes) : Option String :=
  ((Text.decode? literal).bind (unescape? [])).map String.ofList

/-! ### Numbers -/

/--
The digits of a number that fit in 64 bits, and the power of ten that they have to be multiplied
with. Digits of the whole part that no longer fit count as a power, digits after the point are lost.
-/
structure Significand where
  digits : Nat := 0
  exponent : Int := 0
  isFull : Bool := false

def Significand.whole (s : Significand) (digit : Nat) : Significand :=
  if s.isFull then { s with exponent := s.exponent + 1 }
  else if Number.max64 < 10 * s.digits + digit then
    { s with exponent := s.exponent + 1, isFull := true }
  else { s with digits := 10 * s.digits + digit }

def Significand.part (s : Significand) (digit : Nat) : Significand :=
  if s.isFull then s
  else if Number.max64 < 10 * s.digits + digit then { s with isFull := true }
  else { s with digits := 10 * s.digits + digit, exponent := s.exponent - 1 }

/-- The significand of the text of a number, without its sign, and with its exponent. -/
def significand (cs : List Char) : Significand :=
  let whole := cs.takeWhile Text.isAsciiDigit
  let (part, rest) :=
    match cs.dropWhile Text.isAsciiDigit with
    | '.' :: rest => (rest.takeWhile Text.isAsciiDigit, rest.dropWhile Text.isAsciiDigit)
    | rest => ([], rest)
  let start : Significand := {}
  let s := whole.foldl (fun s c => Significand.whole s (Text.digitValue c)) start
  let s := part.foldl (fun s c => Significand.part s (Text.digitValue c)) { s with isFull := false }
  let exponent := (Number.Decimal.exponent? (rest.drop 1)).getD 0
  { s with exponent := s.exponent + exponent }

/-- Whether a number is too large for the floating-point format. -/
def isTooLarge (cs : List Char) : Bool :=
  let s := significand cs
  if s.exponent < 0 ∨ s.digits = 0 then false
  else if 308 < s.exponent then true
  else
    let power := Number.Binary64.ofNat (Nat.pow 10 s.exponent.toNat)
    ((Number.Binary64.ofNat s.digits).mul power).isInfinite

def number? (literal : Bytes) : Option Json :=
  let cs := Text.lossy literal
  let text := String.ofList cs
  match cs with
  | '-' :: digits =>
    let n := Number.ofDigits digits
    if digits.all Text.isAsciiDigit && n != 0 && n ≤ Nat.pow 2 63 then some (.integer (-(n : Int)))
    else if isTooLarge digits then none
    else some (.real text)
  | digits =>
    let n := Number.ofDigits digits
    if digits.all Text.isAsciiDigit && n ≤ Number.max64 then some (.integer n)
    else if isTooLarge digits then none
    else some (.real text)

/-! ### Values -/

/-- Puts a member into an object; a member of the same name is replaced. -/
def setMember (name : String) (v : Json) : List (String × Json) → List (String × Json)
  | [] => [(name, v)]
  | (other, w) :: rest =>
    if other = name then (name, v) :: rest else (other, w) :: setMember name v rest

mutual

/-- The value of a tree whose brackets may nest less than `depth` deep. -/
def ofTree? (depth : Nat) : Tree → Option Json
  | .null => some .null
  | .bool b => some (.bool b)
  | .number literal => number? literal
  | .string literal => (string? literal).map .string
  | .array items =>
    if depth ≤ 1 then none else (itemsOfTrees? (depth - 1) items).map .array
  | .object members =>
    if depth ≤ 1 then none
    else (membersOfTrees? (depth - 1) members).map fun ms =>
      .object (ms.foldl (fun done (name, v) => setMember name v done) [])

def itemsOfTrees? (depth : Nat) : List Tree → Option (List Json)
  | [] => some []
  | tree :: trees =>
    match ofTree? depth tree, itemsOfTrees? depth trees with
    | some v, some vs => some (v :: vs)
    | _, _ => none

def membersOfTrees? (depth : Nat) : List (Bytes × Tree) → Option (List (String × Json))
  | [] => some []
  | (name, tree) :: rest =>
    match string? name, ofTree? depth tree, membersOfTrees? depth rest with
    | some name, some v, some vs => some ((name, v) :: vs)
    | _, _, _ => none

end

/-- How deep the brackets of a text must not nest. -/
def depthLimit : Nat := 128

def ofBytes? (bs : Bytes) : Option Json := (Tree.ofBytes? bs).bind (ofTree? depthLimit)

def ofString? (s : String) : Option Json := ofBytes? (bytesOf s)

/-! ### Access -/

def get? (v : Json) (name : String) : Option Json :=
  match v with
  | .object members => members.lookup name
  | _ => none

def asString? : Json → Option String
  | .string s => some s
  | _ => none

def asArray? : Json → Option (List Json)
  | .array items => some items
  | _ => none

def asBool? : Json → Option Bool
  | .bool b => some b
  | _ => none

def asInteger? : Json → Option Int
  | .integer n => some n
  | _ => none

/-- A choice among names: the name, or an object whose only member has that name and is null. -/
def asChoice? : Json → Option String
  | .string name => some name
  | .object [(name, .null)] => some name
  | _ => none

end Json

end SaveLint
