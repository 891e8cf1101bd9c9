import SaveLint.Commands.Basic

/-!
# The fix command

The file is analyzed first, so that its report is current; what the analysis shows goes to a quiet
terminal of its own. Then the language model is asked for a fix, and only the fix reaches the
terminal's standard output.
-/

namespace SaveLint.Commands

structure FixEnd where
  exit : Nat
  terminal : Terminal
  quiet : Terminal
  machine : Machine
  /-- What the requests name, and their bodies. -/
  requests : List (String × String) := []
  /-- What stopped the command on the spot. -/
  fault : Option Fault := none

/-- Asks for a fix of a file and shows it. -/
def askForFix (w : Workplace) (quiet : Terminal) (server : Llm.Server) (file : Path) : FixEnd :=
  let fix := w.session.fix w.machine server (some (w.session.documentOf file))
  let shown := w.terminal.callAll w.machine fix.calls
  { exit := if fix.opened && shown.terminal.opened then exitSuccess else exitFailure
    terminal := shown.terminal
    quiet := quiet
    machine := shown.machine
    requests := fix.requests
    fault := shown.fault.or fix.fault }

/-- Analyzes a file and asks for a fix; the schedule says how the runs overlap. -/
def fix (w : Workplace) (quiet : Terminal) (server : Llm.Server) (file : Path)
    (schedule : List Pipeline.Turn) : FixEnd :=
  match ({ w with terminal := quiet }.save file).2.drain schedule with
  | .error crash =>
    { exit := exitFailure
      terminal := w.terminal
      quiet := crash.terminal
      machine := w.machine
      fault := some crash.fault }
  | .ok analyzed =>
    askForFix { analyzed with terminal := w.terminal } analyzed.terminal server file

end SaveLint.Commands
