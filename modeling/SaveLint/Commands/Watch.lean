import SaveLint.Commands.Basic
import SaveLint.Commands.Watcher

/-!
# The watch command

All files are analyzed, and again whenever they change. At every tick the changed files are treated
as saved and what is ready is shown; a tick that has shown something prints the status line. After
the interrupt the remaining runs are waited for.
-/

namespace SaveLint.Commands

structure Watch where
  workplace : Workplace
  watcher : Watcher

namespace Watch

/-- Starts to watch: the files are observed, and then treated as saved. -/
def start (w : Workplace) (files : List Path) : Watch :=
  ⟨w.saveAll files, .ofFiles w.machine.observation files⟩

/-- One tick: how many updates it has shown, and the watch after it. -/
def tick (w : Watch) : Except Crash (Nat × Watch) := do
  let (files, watcher) := w.watcher.changed w.workplace.machine.observation
  let saved := w.workplace.saveAll files
  let pumped := saved.session.pump
  let shown ← { saved with session := pumped.session }.showCalls pumped.calls
  let done := if 0 < pumped.count then shown.printStatus else shown
  return (pumped.count, ⟨done, watcher⟩)

/-- What happens while files are watched. -/
inductive Moment where
  | run (k : Nat)
  /-- The machine's files are changed by someone else. -/
  | files (fs : FileSystem)
  | tick

def after (w : Watch) : Moment → Except Crash Watch
  | .run k =>
    let s := w.workplace.session
    .ok { w with workplace := { w.workplace with
      session := { s with pipeline := (s.pipeline.turn (.run k)).2 } } }
  | .files fs =>
    .ok { w with workplace := { w.workplace with
      machine := { w.workplace.machine with files := fs } } }
  | .tick => w.tick.map (·.2)

end Watch

/-- Watches files during the given moments, until the interrupt. -/
def watch (w : Workplace) (files : List Path) (moments : List Watch.Moment)
    (schedule : List Pipeline.Turn) : Except Crash (Nat × Workplace) := do
  let w ← moments.foldlM Watch.after (Watch.start w files)
  let w ← w.workplace.drain schedule
  return (exitSuccess, w)

end SaveLint.Commands
