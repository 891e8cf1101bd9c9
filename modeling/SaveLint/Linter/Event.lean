import SaveLint.Analyzer.Run
import SaveLint.Diagnostic

/-!
# Events and updates

Runs send events to the linter, and the linter answers each event with one update for the host. A
run is known by its number, so that every update can be traced back to the run it belongs to.
-/

namespace SaveLint

/-- What a run tells the linter. -/
inductive News where
  /-- A chunk of the analyzer's standard error. -/
  | stderr (chunk : String)
  /-- The analyzer has exited. -/
  | report (stdout : String) (exit : Option Int)
  | failed (why : Analyzer.Failure)
  deriving DecidableEq, Repr

/-- Whether a run sends nothing after the news. -/
def News.isLast : News → Bool
  | stderr _ => false
  | report _ _ => true
  | failed _ => true

structure Event where
  run : Nat
  file : FileIdentity
  news : News
  deriving DecidableEq

/-- The end of a run's task. -/
inductive TaskEnd where
  /-- The task has returned; its last event was sent before. -/
  | returned (run : Nat)
  /-- The task has broken down without a last event; the error tells what has become of it. -/
  | died (run : Nat) (error : String)
  deriving DecidableEq, Repr

/-- What the host is told. -/
inductive Update where
  /-- The diagnostics of a file have been replaced. -/
  | published (file : FileIdentity) (items : List Diagnostic)
  | warning (text : String)
  | error (text : String)
  deriving DecidableEq

/-- An update with the run it belongs to. -/
structure Delivery where
  run : Nat
  update : Update
  deriving DecidableEq

end SaveLint
