import SaveLint.Text.Ascii

/-!
# Reading TOML texts: blanks, comments, keys and strings

Every reader takes the text from where it stands and gives what it read with the text after it, or
nothing if the text does not have the form.
-/

namespace SaveLint.Toml

open SaveLint.Text

/-- What was read, and the text after it. -/
abbrev Read (α : Type) := Option (α × List Char)

/-! ### Blanks and comments -/

def isSpace (c : Char) : Bool := c == ' ' || c == '\t'

def skipSpace (cs : List Char) : List Char := cs.dropWhile isSpace

/-- Whether a character may stand in a comment or a string of one line. -/
def isPlain (c : Char) : Bool := c == '\t' || (0x20 ≤ c.toNat && c.toNat != 0x7F)

/-- The text after a line ending: a line feed that may follow a carriage return. -/
def newline? : List Char → Option (List Char)
  | '\n' :: cs => some cs
  | '\r' :: '\n' :: cs => some cs
  | _ => none

/-- The text after a comment, from its line ending on; a comment is optional. -/
def skipComment : List Char → List Char
  | '#' :: cs => cs.dropWhile isPlain
  | cs => cs

/-- The text after white space, a comment and the end of the line. -/
def endOfLine? (cs : List Char) : Option (List Char) :=
  match skipComment (skipSpace cs) with
  | [] => some []
  | rest => newline? rest

theorem length_dropWhile_le (p : α → Bool) (cs : List α) :
    (cs.dropWhile p).length ≤ cs.length := by
  induction cs with
  | nil => simp
  | cons c cs ih =>
    rw [List.dropWhile_cons]
    split
    · exact Nat.le_succ_of_le ih
    · exact Nat.le_refl _

theorem length_of_newline? {cs rest : List Char} (h : newline? cs = some rest) :
    rest.length < cs.length := by
  unfold newline? at h
  split at h
  · cases h; simp
  · cases h; simp only [List.length_cons]; omega
  · cases h

def skipLines (cs : List Char) : List Char :=
  match _h : newline? (skipComment (skipSpace cs)) with
  | some rest => skipLines rest
  | none => skipComment (skipSpace cs)
termination_by cs.length
decreasing_by
  have h₁ := length_of_newline? _h
  have h₂ : (skipComment (skipSpace cs)).length ≤ (skipSpace cs).length := by
    unfold skipComment
    split
    · rename_i heq; rw [heq]
      exact Nat.le_succ_of_le (length_dropWhile_le _ _)
    · exact Nat.le_refl _
  have h₃ : (skipSpace cs).length ≤ cs.length := length_dropWhile_le _ _
  omega

/-! ### Strings -/

/-- The character with the code point that some hexadecimal digits denote. -/
def scalar? (digits : List Char) : Option Char :=
  match ofHex? digits with
  | some n => if h : n.isValidChar then some (Char.ofNatAux n h) else none
  | none => none

def escape? : List Char → Read Char
  | 'b' :: cs => some ('\x08', cs)
  | 't' :: cs => some ('\t', cs)
  | 'n' :: cs => some ('\n', cs)
  | 'f' :: cs => some ('\x0c', cs)
  | 'r' :: cs => some ('\r', cs)
  | 'e' :: cs => some ('\x1b', cs)
  | '"' :: cs => some ('"', cs)
  | '\\' :: cs => some ('\\', cs)
  | 'x' :: a :: b :: cs => (scalar? [a, b]).map (·, cs)
  | 'u' :: a :: b :: c :: d :: cs => (scalar? [a, b, c, d]).map (·, cs)
  | 'U' :: a :: b :: c :: d :: e :: f :: g :: h :: cs =>
    (scalar? [a, b, c, d, e, f, g, h]).map (·, cs)
  | _ => none

/--
A string of one line after its opening quotation mark, given in reverse what is read already. The
fuel is the length of the text.
-/
def basic? : Nat → List Char → List Char → Read String
  | 0, _, _ => none
  | _ + 1, _, [] => none
  | _ + 1, read, '"' :: cs => some (String.ofList read.reverse, cs)
  | fuel + 1, read, '\\' :: cs =>
    match escape? cs with
    | some (c, cs) => basic? fuel (c :: read) cs
    | none => none
  | fuel + 1, read, c :: cs => if isPlain c then basic? fuel (c :: read) cs else none

/-- A string of one line without escapes, after its opening apostrophe. -/
def literal? (cs : List Char) : Read String :=
  let (text, rest) := cs.span fun c => c != '\'' && isPlain c
  match rest with
  | '\'' :: rest => some (String.ofList text, rest)
  | _ => none

/-- How many times a text repeats a character at its start, counted up to five. -/
def runLength (quote : Char) (cs : List Char) : Nat := ((cs.take 5).takeWhile (· == quote)).length

/-- The text after the line ending that may follow the opening of a string of several lines. -/
def skipFirstNewline (cs : List Char) : List Char := (newline? cs).getD cs

def skipBlankLines (cs : List Char) : List Char :=
  cs.dropWhile fun c => isSpace c || c == '\n' || c == '\r'

/-- What follows a backslash that ends a line: the first text after the line ending. -/
def continuation? (cs : List Char) : Option (List Char) :=
  (newline? (skipSpace cs)).map skipBlankLines

/--
A string of several lines after its opening, given in reverse what is read already. Three quotation
marks close it, and up to two more of them before these belong to the string. With `escapes`, a
backslash starts an escape or joins two lines. The fuel is the length of the text.
-/
def multiline? (quote : Char) (escapes : Bool) : Nat → List Char → List Char → Read String
  | 0, _, _ => none
  | fuel + 1, read, cs =>
    match cs with
    | [] => none
    | c :: rest =>
      if c = quote then
        let n := runLength quote cs
        if n < 3 then multiline? quote escapes fuel (c :: read) rest
        else some (String.ofList (List.replicate (n - 3) quote ++ read).reverse, cs.drop n)
      else if escapes && c == '\\' then
        match continuation? rest with
        | some rest => multiline? quote escapes fuel read rest
        | none =>
          match escape? rest with
          | some (c, rest) => multiline? quote escapes fuel (c :: read) rest
          | none => none
      else if isPlain c then multiline? quote escapes fuel (c :: read) rest
      else
        match newline? cs with
        | some rest => multiline? quote escapes fuel ('\n' :: read) rest
        | none => none

def string? : List Char → Read String
  | '"' :: '"' :: '"' :: cs =>
    multiline? '"' true (cs.length + 1) [] (skipFirstNewline cs)
  | '\'' :: '\'' :: '\'' :: cs =>
    multiline? '\'' false (cs.length + 1) [] (skipFirstNewline cs)
  | '"' :: cs => basic? (cs.length + 1) [] cs
  | '\'' :: cs => literal? cs
  | _ => none

/-! ### Keys -/

def isBare (c : Char) : Bool := isAsciiLetter c || isAsciiDigit c || c == '_' || c == '-'

def keyPart? : List Char → Read String
  | '"' :: cs => basic? (cs.length + 1) [] cs
  | '\'' :: cs => literal? cs
  | cs =>
    match cs.takeWhile isBare with
    | [] => none
    | part => some (String.ofList part, cs.dropWhile isBare)

/-- The parts of a key, joined by dots, given in reverse the parts before. -/
def keyParts? : Nat → List String → List Char → Read (List String)
  | 0, _, _ => none
  | fuel + 1, before, cs =>
    match keyPart? (skipSpace cs) with
    | none => none
    | some (part, cs) =>
      match skipSpace cs with
      | '.' :: cs => keyParts? fuel (part :: before) cs
      | cs => some ((part :: before).reverse, cs)

/-- A key: the parts that lead to it and its last part, with white space around it. -/
def key? (cs : List Char) : Read (List String × String) :=
  match keyParts? (cs.length + 1) [] cs with
  | some (parts, cs) =>
    match parts.getLast? with
    | some last => some ((parts.dropLast, last), cs)
    | none => none
  | none => none

end SaveLint.Toml
