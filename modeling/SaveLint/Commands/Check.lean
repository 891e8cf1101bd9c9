import SaveLint.Commands.Basic

/-!
# The check command

All files are analyzed and their diagnostics listed; the last line is the status of the snapshot.
The exit status tells failures from findings.
-/

namespace SaveLint.Commands

def checkExit (w : Workplace) : Nat :=
  if 0 < w.terminal.errorsShown then exitFailure
  else if 0 < w.session.snapshot.count .error then exitFindings
  else exitSuccess

/-- Analyzes files; the schedule says how the runs overlap. -/
def check (w : Workplace) (files : List Path) (schedule : List Pipeline.Turn) :
    Except Crash (Nat × Workplace) := do
  let w ← (w.saveAll files).drain schedule
  let w := w.printStatus
  return (checkExit w, w)

end SaveLint.Commands
