import SaveLint.Session
import SaveLint.Terminal

/-!
# What commands work on

A command drives a session on a machine and shows what happens on a terminal. Files named on the
command line are treated as saved documents; their language is found by their extension.
-/

namespace SaveLint

structure Workplace where
  session : Session
  terminal : Terminal
  machine : Machine

/-- A command that a fault has stopped, with what was printed until then. -/
structure Crash where
  fault : Fault
  terminal : Terminal

/-- The language of files that the analyzer does not claim. -/
def unknownLanguage : String := "plaintext"

/-- The document of a file, with the language that its extension stands for. -/
def Session.documentOf (s : Session) (p : Path) : Document :=
  .ofFile p ((s.config.languageOf? p).getD unknownLanguage)

/-- The warning for a file that starts no run. -/
def Session.skipMessage (s : Session) (p : Path) : String :=
  s!"Skipping {p.text}: not a {s.config.language} file"

namespace Workplace

def showCalls (w : Workplace) (calls : List HostCall) : Except Crash Workplace :=
  let shown := w.terminal.callAll w.machine calls
  match shown.fault with
  | some fault => .error ⟨fault, shown.terminal⟩
  | none => .ok { w with terminal := shown.terminal, machine := shown.machine }

/-- Treats a file as saved; a file that starts no run is warned of. -/
def save (w : Workplace) (p : Path) : Bool × Workplace :=
  match w.session.save w.machine (w.session.documentOf p) with
  | (true, s) => (true, { w with session := s })
  | (false, s) =>
    (false, { w with session := s, terminal := w.terminal.showWarning (s.skipMessage p) })

def saveAll (w : Workplace) (files : List Path) : Workplace :=
  files.foldl (fun w p => (w.save p).2) w

def drain (w : Workplace) (schedule : List Pipeline.Turn) : Except Crash Workplace :=
  let (calls, s) := w.session.drain schedule
  { w with session := s }.showCalls calls

def printStatus (w : Workplace) : Workplace :=
  { w with terminal := w.terminal.printLine w.session.snapshot.status }

end Workplace

/-! ### Exit statuses -/

def exitSuccess : Nat := 0

/-- The exit status when errors were found. -/
def exitFindings : Nat := 1

/-- The exit status when a run, a request or a write failed. -/
def exitFailure : Nat := 2

end SaveLint
