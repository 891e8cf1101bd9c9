import SaveLint.Diagnostic
import SaveLint.Number.Numeral
import SaveLint.Text.Blank
import SaveLint.Text.Digit
import SaveLint.Text.Lines

/-!
# Analyzer reports

A report is free text in which some lines hold a finding. What makes a line a finding is a fragment
anywhere in it,

    :LINE:COLUMN: CODE: MESSAGE

where `LINE` and `COLUMN` are runs of decimal digits of any script, a blank follows the second colon
and the last one, `CODE` is an ASCII capital with four decimal digits, and `MESSAGE` is the rest of
the line, at least one character long. Only the first such fragment counts: if its numbers do not
fit, or its digits are not ASCII, the line holds no finding at all.

`Fragment.atStart?` reads a fragment at the start of a text, `Fragment.first?` searches for the
first one, and `Fragment.finding?` is the check that follows.
-/

namespace SaveLint.Report

open SaveLint.Text

/-! ### Fragments -/

/-- The texts of the four parts of a fragment, as they stand in the line. -/
structure Fragment where
  line : List Char
  column : List Char
  code : List Char
  message : List Char
  deriving DecidableEq, Repr

/-- A colon, a non-empty run of digits, and what follows. -/
def number? : List Char → Option (List Char × List Char)
  | ':' :: cs =>
    match cs.takeWhile isDigit with
    | [] => none
    | digits => some (digits, cs.dropWhile isDigit)
  | _ => none

/-- A colon, one blank, and what follows. -/
def gap? : List Char → Option (List Char)
  | ':' :: blank :: cs => if isBlank blank then some cs else none
  | _ => none

/-- A capital and four digits, and what follows. -/
def code? : List Char → Option (List Char × List Char)
  | letter :: a :: b :: c :: d :: cs =>
    if isAsciiCapital letter && [a, b, c, d].all isDigit then some ([letter, a, b, c, d], cs)
    else none
  | _ => none

/-- The rest of the line, if it holds anything. -/
def message? (cs : List Char) : Option (List Char) :=
  match cs.takeWhile (· != '\n') with
  | [] => none
  | message => some message

namespace Fragment

def atStart? (cs : List Char) : Option Fragment := do
  let (line, cs) ← number? cs
  let (column, cs) ← number? cs
  let cs ← gap? cs
  let (code, cs) ← code? cs
  let cs ← gap? cs
  let message ← message? cs
  return ⟨line, column, code, message⟩

def first? : List Char → Option Fragment
  | [] => none
  | c :: cs =>
    match atStart? (c :: cs) with
    | some fragment => some fragment
    | none => first? cs

/-- The finding of a fragment: both numbers fit in 32 bits, and the line is not zero. -/
def finding? (fragment : Fragment) : Option Finding := do
  let line ← Number.word32? fragment.line
  let column ← Number.word32? fragment.column
  let code ← Code.ofChars? fragment.code
  Finding.ofParts? line column code (String.ofList (trim fragment.message))

end Fragment

/-! ### Lines and reports -/

def finding? (line : List Char) : Option Finding := (Fragment.first? line).bind Fragment.finding?

/-- The findings of a report, in order: blanks around the report do not count. -/
def findings (raw : String) : List Finding := (lines (trim raw.toList)).filterMap finding?

def diagnostics (source raw : String) : List Diagnostic :=
  (findings raw).map (Diagnostic.ofFinding source)

end SaveLint.Report
