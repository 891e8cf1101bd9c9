import SaveLint.Toml.Scalar
import SaveLint.Toml.Scan

/-!
# TOML documents

A document is a sequence of lines: headers, which open a table, and assignments to keys of the open
table. `Node` is a table under construction. It remembers how a table came about, because that
decides what may be added to it later: a table with a header of its own may not get a second one, a
table made by a dotted key takes no header at all, and a dotted key adds to no table that has a
header.

The result is the data of the document in the form of a JSON value.
-/

namespace SaveLint.Toml

/-! ### Tables under construction -/

/-- How a table came about. -/
inductive TableKind where
  /-- On the way to a header below it. -/
  | implied
  /-- By its own header. -/
  | headed
  /-- By a dotted key. -/
  | dotted
  deriving DecidableEq, Repr

/-- A key's value while the document is read. -/
inductive Node where
  | leaf (v : Json)
  | table (kind : TableKind) (entries : List (String × Node))
  /-- The tables that a header in double brackets appends to. -/
  | tables (elements : List (List (String × Node)))
  deriving Inhabited

abbrev Entries := List (String × Node)

mutual

def Node.toJson : Node → Json
  | .leaf v => v
  | .table _ entries => .object (entriesToJson entries)
  | .tables elements => .array (elementsToJson elements)

def entriesToJson : List (String × Node) → List (String × Json)
  | [] => []
  | (name, node) :: rest => (name, node.toJson) :: entriesToJson rest

def elementsToJson : List (List (String × Node)) → List Json
  | [] => []
  | entries :: rest => .object (entriesToJson entries) :: elementsToJson rest

end

/-- The entries with a new node for a key: in the place of the old one, or else at the end. -/
def setEntry (name : String) (node : Node) : Entries → Entries
  | [] => [(name, node)]
  | (other, old) :: rest =>
    if other = name then (name, node) :: rest else (other, old) :: setEntry name node rest

/-- Assigns a value to a key, going through the tables of its first parts. -/
def assign? (v : Json) (name : String) : List String → Entries → Option Entries
  | [], entries =>
    match entries.lookup name with
    | some _ => none
    | none => some (entries ++ [(name, .leaf v)])
  | part :: parts, entries =>
    match entries.lookup part with
    | none => (assign? v name parts []).map fun es => setEntry part (.table .dotted es) entries
    | some (.table kind es) =>
      if kind = .headed ∨ (kind = .implied ∧ parts = []) then none
      else (assign? v name parts es).map fun es => setEntry part (.table kind es) entries
    | some _ => none

def changeLast? (f : Entries → Option Entries) : List Entries → Option (List Entries)
  | [] => none
  | [es] => (f es).map fun es => [es]
  | es :: rest => (changeLast? f rest).map (es :: ·)

/--
Changes the table that some parts of a key lead to. Tables on the way that do not exist are made,
and the way through several tables is through the last one.
-/
def change? (f : Entries → Option Entries) : List String → Entries → Option Entries
  | [], entries => f entries
  | part :: parts, entries =>
    match entries.lookup part with
    | none => (change? f parts []).map fun es => setEntry part (.table .implied es) entries
    | some (.table kind es) =>
      (change? f parts es).map fun es => setEntry part (.table kind es) entries
    | some (.tables elements) =>
      (changeLast? (change? f parts) elements).map fun els => setEntry part (.tables els) entries
    | some (.leaf _) => none

def open? (name : String) (entries : Entries) : Option Entries :=
  match entries.lookup name with
  | none => some (entries ++ [(name, .table .headed [])])
  | some (.table .implied es) => some (setEntry name (.table .headed es) entries)
  | some _ => none

def append? (name : String) (entries : Entries) : Option Entries :=
  match entries.lookup name with
  | none => some (entries ++ [(name, .tables [[]])])
  | some (.tables elements) => some (setEntry name (.tables (elements ++ [[]])) entries)
  | some _ => none

/-! ### Values -/

def endsWord (c : Char) : Bool :=
  isSpace c || ['\n', '\r', '#', ',', '=', '[', ']', '\x7b', '\x7d', '"', '\''].contains c

/-- A scalar; a date and a time may be apart by one space. -/
def scalarValue? (cs : List Char) : Read Json :=
  let (word, rest) := cs.span (!endsWord ·)
  match afterDate? word, rest with
  | some [], ' ' :: d :: more =>
    if Text.isAsciiDigit d then
      let (time, rest) := (d :: more).span (!endsWord ·)
      (word? (word ++ ' ' :: time)).map (·, rest)
    else (word? word).map (·, rest)
  | _, _ => (word? word).map (·, rest)

/-- How deep brackets and braces may nest. -/
def nestingLimit : Nat := 80

mutual

/-- A value. The fuel bounds the number of steps, and `depth` how much deeper it may nest. -/
def value? : Nat → Nat → List Char → Read Json
  | 0, _, _ => none
  | fuel + 1, depth, cs =>
    match cs with
    | '"' :: _ => (string? cs).map fun (s, cs) => (.string s, cs)
    | '\'' :: _ => (string? cs).map fun (s, cs) => (.string s, cs)
    | '[' :: cs =>
      match depth with
      | 0 => none
      | depth + 1 => (items? fuel depth [] cs).map fun (vs, cs) => (.array vs, cs)
    | '\x7b' :: cs =>
      match depth with
      | 0 => none
      | depth + 1 => (pairs? fuel depth [] cs).map fun (es, cs) => (.object (entriesToJson es), cs)
    | cs => scalarValue? cs

/-- The items of an array up to its closing bracket, given the items before in reverse. -/
def items? : Nat → Nat → List Json → List Char → Read (List Json)
  | 0, _, _, _ => none
  | fuel + 1, depth, before, cs =>
    match skipLines cs with
    | ']' :: cs => some (before.reverse, cs)
    | cs =>
      match value? fuel depth cs with
      | none => none
      | some (v, cs) =>
        match skipLines cs with
        | ',' :: cs => items? fuel depth (v :: before) cs
        | ']' :: cs => some ((v :: before).reverse, cs)
        | _ => none

/-- The assignments of an inline table up to its closing brace, added to the entries before. -/
def pairs? : Nat → Nat → Entries → List Char → Read Entries
  | 0, _, _, _ => none
  | fuel + 1, depth, before, cs =>
    match skipLines cs with
    | '\x7d' :: cs => some (before, cs)
    | cs =>
      match key? cs with
      | some ((parts, name), '=' :: cs) =>
        match value? fuel depth (skipSpace cs) with
        | none => none
        | some (v, cs) =>
          match assign? v name parts before with
          | none => none
          | some entries =>
            match skipLines cs with
            | ',' :: cs => pairs? fuel depth entries cs
            | '\x7d' :: cs => some (entries, cs)
            | _ => none
      | _ => none

end

/-! ### Lines -/

inductive Line where
  | blank
  /-- A header in single brackets. -/
  | header (parts : List String) (name : String)
  /-- A header in double brackets. -/
  | element (parts : List String) (name : String)
  | assignment (parts : List String) (name : String) (v : Json)

def line? (cs : List Char) : Read Line :=
  match skipSpace cs with
  | [] => some (.blank, [])
  | '\n' :: cs => some (.blank, '\n' :: cs)
  | '\r' :: cs => some (.blank, '\r' :: cs)
  | '#' :: cs => some (.blank, '#' :: cs)
  | '[' :: '[' :: cs =>
    match key? cs with
    | some ((parts, name), ']' :: ']' :: cs) => some (.element parts name, cs)
    | _ => none
  | '[' :: cs =>
    match key? cs with
    | some ((parts, name), ']' :: cs) => some (.header parts name, cs)
    | _ => none
  | cs =>
    match key? cs with
    | some ((parts, name), '=' :: cs) =>
      (value? (2 * cs.length + 2) nestingLimit (skipSpace cs)).map fun (v, cs) =>
        (.assignment parts name v, cs)
    | _ => none

/-- A document while it is read: its tables and the way to the open one. -/
structure Draft where
  entries : Entries := []
  opened : List String := []

def Draft.add? (d : Draft) : Line → Option Draft
  | .blank => some d
  | .header parts name =>
    (change? (open? name) parts d.entries).map fun es => ⟨es, parts ++ [name]⟩
  | .element parts name =>
    (change? (append? name) parts d.entries).map fun es => ⟨es, parts ++ [name]⟩
  | .assignment parts name v =>
    (change? (assign? v name parts) d.opened d.entries).map fun es => { d with entries := es }

/-- Reads the lines of a document. The fuel bounds their number. -/
def lines? : Nat → Draft → List Char → Option Draft
  | 0, _, _ => none
  | fuel + 1, d, cs =>
    match line? cs with
    | none => none
    | some (line, cs) =>
      match d.add? line, endOfLine? cs with
      | some d, some [] => some d
      | some d, some cs => lines? fuel d cs
      | _, _ => none

def withoutMark : List Char → List Char
  | '\uFEFF' :: cs => cs
  | cs => cs

def read? (s : String) : Option Json :=
  let cs := withoutMark s.toList
  (lines? (cs.length + 1) {} cs).map fun d => .object (entriesToJson d.entries)

end SaveLint.Toml
