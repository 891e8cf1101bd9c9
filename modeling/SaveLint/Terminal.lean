import SaveLint.Host
import SaveLint.Machine.Basic
import SaveLint.Text.Blank

/-!
# The terminal

The terminal takes the place of the editor. Diagnostics are listed on the standard output, with
paths below the base directory shortened; everything else goes to the standard error. An untitled
document is written to a file if one was named, and to the standard output otherwise.
-/

namespace SaveLint

inductive Channel where
  | out
  | err
  deriving DecidableEq, Repr

structure Printed where
  channel : Channel
  text : String
  deriving DecidableEq, Repr

structure Terminal where
  printed : List Printed := []
  baseDirectory : Option Path := none
  /-- The file for untitled documents. -/
  untitled : Option Path := none
  errorsShown : Nat := 0
  /-- Whether an untitled document was written. -/
  opened : Bool := false

namespace Terminal

def concat (ps : List Printed) : String := String.join (ps.map (·.text))

def on (t : Terminal) (c : Channel) : String := concat (t.printed.filter (·.channel == c))

def out (t : Terminal) : String := t.on .out

def err (t : Terminal) : String := t.on .err

/-- Both streams, in the order of printing. -/
def both (t : Terminal) : String := concat t.printed

/-! ### Printing -/

def print (t : Terminal) (c : Channel) (text : String) : Terminal :=
  { t with printed := t.printed ++ [⟨c, text⟩] }

def printLine (t : Terminal) (line : String) : Terminal := t.print .out (line ++ "\n")

/-- Shows an error; blanks at its end are left out. -/
def showError (t : Terminal) (message : String) : Terminal :=
  { t.print .err ("error: " ++ Text.trimmedEnd message ++ "\n") with
    errorsShown := t.errorsShown + 1 }

def showWarning (t : Terminal) (message : String) : Terminal :=
  t.print .err ("warning: " ++ Text.trimmedEnd message ++ "\n")

/-- The path as it is listed: relative to the base directory if it is below it. -/
def displayPath (t : Terminal) (p : Path) : Path :=
  (t.baseDirectory.bind fun base => base.relativeTo? p).getD p

/-- The untitled document as it is printed: with a line feed at its end. -/
def withFeed (content : String) : String :=
  if content.toList.getLast? = some '\n' then content else content ++ "\n"

/-! ### Calls -/

/-- The terminal after a call, with the machine, or the state in which a fault stopped the call. -/
structure Shown where
  terminal : Terminal
  machine : Machine
  fault : Option Fault := none

/-- Lists diagnostics under a path; a fault stops the list. -/
def list (t : Terminal) (path : String) : List Diagnostic → Terminal × Option Fault
  | [] => (t, none)
  | d :: ds =>
    match d.listed path with
    | .ok line => list (t.printLine line) path ds
    | .error fault => (t, some fault)

def openUntitled (t : Terminal) (m : Machine) (content : String) : Shown :=
  match t.untitled with
  | none => ⟨{ t.print .out (withFeed content) with opened := true }, m, none⟩
  | some path =>
    match m.write path (bytesOf content) with
    | .ok m =>
      ⟨{ t.print .err s!"Fixed code written to {path.text}\n" with opened := true }, m, none⟩
    | .error e => ⟨t.showError ("Failed to write fixed code: " ++ e.message), m, none⟩

def call (t : Terminal) (m : Machine) : HostCall → Shown
  | .error message => ⟨t.showError message, m, none⟩
  | .warning message => ⟨t.showWarning message, m, none⟩
  | .progress title => ⟨t.print .err (title ++ "\n"), m, none⟩
  | .publish file items =>
    let (t, fault) := t.list (t.displayPath file.path).text items
    ⟨t, m, fault⟩
  | .untitled content _ => t.openUntitled m content

/-- The effect of calls, one after the other; a fault stops them. -/
def callAll (t : Terminal) (m : Machine) : List HostCall → Shown
  | [] => ⟨t, m, none⟩
  | c :: cs =>
    let shown := t.call m c
    match shown.fault with
    | some _ => shown
    | none => callAll shown.terminal shown.machine cs

end Terminal

end SaveLint
