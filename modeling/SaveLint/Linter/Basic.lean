import SaveLint.Linter.Event
import SaveLint.Report
import SaveLint.Store
import SaveLint.Text.Capital

/-!
# The linter

The linter receives the events of runs through a queue of limited size and applies them to the store
in the order in which they were sent: the report that arrives last decides what is current. Tasks
that break down send no last event; they are noticed when the queue is empty, in the order in which
they ended.

`poll` takes as many updates as are ready, up to a budget. `next` takes one, and says when there is
nothing to wait for any more.
-/

namespace SaveLint

structure Linter where
  config : Analyzer.Config
  store : Store := {}
  /-- The events that were sent and not yet applied, the oldest first. -/
  queue : List Event := []
  /-- The tasks that have ended and were not yet noticed, the earliest first. -/
  ended : List TaskEnd := []
  /-- How many runs were started and not yet reported as finished. -/
  inFlight : Nat := 0

namespace Linter

/-! ### Runs and their events -/

def capacity : Nat := 256

/-- Whether saving a document of a language starts a run. -/
def accepts (l : Linter) (language : String) : Bool :=
  l.config.enabled && language == l.config.language

def started (l : Linter) : Linter := { l with inFlight := l.inFlight + 1 }

/-- The queue with one more event, if there is room. -/
def send? (l : Linter) (e : Event) : Option Linter :=
  if l.queue.length < capacity then some { l with queue := l.queue ++ [e] } else none

def taskEnded (l : Linter) (t : TaskEnd) : Linter := { l with ended := l.ended ++ [t] }

/-! ### Applying events -/

/-- The label of warnings: the analyzer's label with a capital, or a general word. -/
def label (c : Analyzer.Config) : String :=
  match Text.capitalized c.source.toList with
  | [] => "Analyzer"
  | cs => String.ofList cs

/-- The store with the diagnostics of a report, and the report itself. -/
def applyReport (l : Linter) (file : FileIdentity) (stdout : String) : Linter :=
  { l with
    store := (l.store.replace file (Report.diagnostics l.config.source stdout)).recordReport
      file stdout }

def handle (l : Linter) (e : Event) : Linter × Delivery :=
  match e.news with
  | .stderr chunk => (l, ⟨e.run, .warning (label l.config ++ " Error: " ++ chunk)⟩)
  | .failed why => ({ l with inFlight := l.inFlight - 1 }, ⟨e.run, .error why.message⟩)
  | .report stdout _ =>
    ({ l.applyReport e.file stdout with inFlight := l.inFlight - 1 },
      ⟨e.run, .published e.file (Report.diagnostics l.config.source stdout)⟩)

/-- The update for a task that has broken down with an error. -/
def breakdown (run : Nat) (error : String) : Delivery :=
  ⟨run, .error ("Analysis task failed: " ++ error)⟩

/--
The updates of the tasks that have ended, at most `budget` of them, and the tasks that are left.
Tasks that have returned give none.
-/
def noticed : Nat → List TaskEnd → List Delivery × List TaskEnd
  | 0, tasks => ([], tasks)
  | _, [] => ([], [])
  | budget + 1, .returned _ :: tasks => noticed (budget + 1) tasks
  | budget + 1, .died run error :: tasks =>
    let (deliveries, left) := noticed budget tasks
    (breakdown run error :: deliveries, left)

/-! ### Taking updates -/

/-- Applies queued events, at most `budget` of them. -/
def pollQueue : Nat → Linter → List Delivery × Linter
  | 0, l => ([], l)
  | budget + 1, l =>
    match l.queue with
    | [] => ([], l)
    | e :: queue =>
      let (l, delivery) := ({ l with queue := queue } : Linter).handle e
      let (deliveries, l) := pollQueue budget l
      (delivery :: deliveries, l)

/-- Takes the updates that are ready, at most `budget` of them: events first, then ended tasks. -/
def poll (budget : Nat) (l : Linter) : List Delivery × Linter :=
  let (applied, l) := pollQueue budget l
  let (failures, ended) := noticed (budget - applied.length) l.ended
  (applied ++ failures, { l with ended := ended, inFlight := l.inFlight - failures.length })

inductive Next where
  /-- No run is in flight. -/
  | idle
  /-- A run is in flight and has nothing ready. -/
  | waiting
  | update (d : Delivery)
  deriving DecidableEq

def next (l : Linter) : Next × Linter :=
  if l.inFlight = 0 then (.idle, l)
  else
    match l.queue with
    | e :: queue =>
      let (l, delivery) := ({ l with queue := queue } : Linter).handle e
      (.update delivery, l)
    | [] =>
      match noticed 1 l.ended with
      | (delivery :: _, ended) =>
        (.update delivery, { l with ended := ended, inFlight := l.inFlight - 1 })
      | ([], ended) => (.waiting, { l with ended := ended })

end Linter

end SaveLint
