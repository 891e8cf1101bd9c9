import SaveLint.Linter.Basic

/-!
# The pipeline

The pipeline is the linter together with the runs that are still alive. Every step of it is small:
a run sends its next event or ends (`advance?`), or the host takes the next update
(`Linter.next`, `Linter.poll`). How the steps of several runs and of the host interleave is up to
the machine, so whatever depends on it takes a list of turns.
-/

namespace SaveLint

/-- A run that is still alive, with what is left of it. -/
structure LiveRun where
  number : Nat
  file : FileIdentity
  left : Analyzer.Run
  deriving DecidableEq

/-- The linter with the live runs, in the order in which they were started. -/
structure Pipeline where
  linter : Linter
  live : List LiveRun := []
  /-- How many runs were ever started. -/
  count : Nat := 0

namespace Pipeline

def ofConfig (c : Analyzer.Config) : Pipeline := { linter := { config := c } }

def start (p : Pipeline) (file : FileIdentity) (run : Analyzer.Run) : Pipeline :=
  { linter := p.linter.started
    live := p.live ++ [⟨p.count, file, run⟩]
    count := p.count + 1 }

/-- A document is saved. A run is started if its language is the analyzer's and it has an identity. -/
def save? (p : Pipeline) (m : Machine) (language : String) (path : Path) : Option Pipeline := do
  guard (p.linter.accepts language)
  let file ← m.identity? path
  return p.start file (Analyzer.Run.ofFile m p.linter.config p.count file path)

/-! ### Steps of runs -/

/-- The pipeline after a run has sent its last event and returned, if there is room for the event. -/
def sendLast? (p : Pipeline) (k : Nat) (r : LiveRun) (news : News) : Option Pipeline :=
  (p.linter.send? ⟨r.number, r.file, news⟩).map fun linter =>
    { p with linter := linter.taskEnded (.returned r.number), live := p.live.eraseIdx k }

/-- The pipeline after the next step of a live run; a run that finds the queue full has to wait. -/
def advance? (p : Pipeline) (k : Nat) : Option Pipeline := do
  let r ← p.live[k]?
  match r.left.chunks with
  | chunk :: chunks =>
    let linter ← p.linter.send? ⟨r.number, r.file, .stderr chunk⟩
    return { p with
      linter := linter
      live := p.live.set k { r with left := { r.left with chunks := chunks } } }
  | [] =>
    match r.left.ending with
    | .report stdout exit => p.sendLast? k r (.report stdout exit)
    | .failed why => p.sendLast? k r (.failed why)
    | .died error =>
      return { p with
        linter := p.linter.taskEnded (.died r.number error)
        live := p.live.eraseIdx k }

/-- How many steps the live runs have left. -/
def stepsLeft (p : Pipeline) : Nat :=
  p.live.foldr (fun r n => r.left.chunks.length + 1 + n) 0

/-- The first live run takes up to `n` steps, and the runs after it in turn. -/
def advanceFirst : Nat → Pipeline → Pipeline
  | 0, p => p
  | n + 1, p =>
    match p.advance? 0 with
    | some p => advanceFirst n p
    | none => p

/-- The live runs go on as far as the queue has room. -/
def settle (p : Pipeline) : Pipeline := advanceFirst p.stepsLeft p

/-! ### Draining -/

inductive Turn where
  | run (k : Nat)
  | host
  deriving DecidableEq, Repr

def takeNext (p : Pipeline) : Option Delivery × Pipeline :=
  match p.linter.next with
  | (.update d, linter) => (some d, { p with linter := linter })
  | (_, linter) => (none, { p with linter := linter })

/-- The effect of a turn; a run that cannot move leaves everything as it is. -/
def turn (p : Pipeline) : Turn → Option Delivery × Pipeline
  | .run k => (none, (p.advance? k).getD p)
  | .host => p.takeNext

def turns (p : Pipeline) : List Turn → List Delivery × Pipeline
  | [] => ([], p)
  | t :: ts =>
    let (d, p) := p.turn t
    let (ds, p) := p.turns ts
    (d.toList ++ ds, p)

/-- Takes up to `n` updates; before each of them the live runs go on. -/
def takeAll : Nat → Pipeline → List Delivery × Pipeline
  | 0, p => ([], p)
  | n + 1, p =>
    match p.settle.takeNext with
    | (some d, p) =>
      let (ds, p) := takeAll n p
      (d :: ds, p)
    | (none, p) => ([], p)

def updatesLeft (p : Pipeline) : Nat := p.linter.queue.length + p.linter.ended.length + p.stepsLeft

/-- Waits for all runs and takes their updates: first in the given turns, then run after run. -/
def drain (p : Pipeline) (schedule : List Turn) : List Delivery × Pipeline :=
  let (early, p) := p.turns schedule
  let (late, p) := takeAll (p.updatesLeft + 1) p
  (early ++ late, p)

end Pipeline

end SaveLint
