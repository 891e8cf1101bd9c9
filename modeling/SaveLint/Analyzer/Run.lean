import SaveLint.Analyzer.Config
import SaveLint.Analyzer.Stderr
import SaveLint.Machine.Basic

/-!
# Runs of the analyzer

A run analyzes one saved file: it reads the file, starts the analyzer in the directory of the file,
feeds it the text, and collects what the analyzer writes. Seen from outside, a run sends the chunks
of the standard error one after the other, and then it ends in one of three ways. If more than one
thing goes wrong with the analyzer, the run fails for the first of them: its output, its standard
error, its exit.
-/

namespace SaveLint.Analyzer

/-- Why a run ended without a report. -/
inductive Failure where
  | unreadable (reason : String)
  | notRun (reason : String)
  deriving DecidableEq, Repr

def Failure.message : Failure → String
  | unreadable reason => "Failed to read file: " ++ reason
  | notRun reason => "Failed to run analyzer: " ++ reason

inductive Ending where
  /-- The analyzer has exited; whatever its exit status, what it wrote is the report. -/
  | report (stdout : String) (exit : Option Int)
  | failed (why : Failure)
  /-- The task of the run breaks down, with an error that others have to notice. -/
  | died (error : String)
  deriving DecidableEq, Repr

/-- A run: the chunks of the standard error, and the end. -/
structure Run where
  chunks : List String := []
  ending : Ending
  deriving DecidableEq, Repr

namespace Run

def startMessage (command : String) : StartError → String
  | .unknown => command ++ " not found in PATH"
  | .refused reason => "spawning " ++ command ++ ": " ++ reason

/-- How reading the standard error ends, if no read before has brought the end of the stream. -/
def streamEnd (o : Outcome) : StreamEnd :=
  match o.stderrError with
  | none => .closed
  | some _ => .failed

/-- Why the standard error cannot be read to its end; nothing if it is closed before. -/
def readError? (o : Outcome) : Option String :=
  match (({} : Forwarding).follow (streamEnd o) o.stderr).2 with
  | .closed => none
  | .failed => o.stderrError

/-- How a run ends whose analyzer has left an outcome. -/
def endingOf (o : Outcome) : Ending :=
  match o.breakdown, o.stdout, readError? o, o.exit with
  | some error, _, _, _ => .died error
  | none, .error reason, _, _ => .failed (.notRun ("reading analyzer output: " ++ reason))
  | none, .ok _, some reason, _ => .failed (.notRun ("reading analyzer output: " ++ reason))
  | none, .ok _, none, .error reason => .failed (.notRun ("waiting for analyzer: " ++ reason))
  | none, .ok stdout, none, .ok exit => .report (lossyString stdout) exit

def ofOutcome (o : Outcome) : Run := ⟨forward o.stderr (streamEnd o), endingOf o⟩

/-- The run of an analyzer for a saved file, after a number of other runs. -/
def ofFile (m : Machine) (c : Config) (number : Nat) (id : FileIdentity) (p : Path) : Run :=
  match m.readText p with
  | .error e => { ending := .failed (.unreadable e.message) }
  | .ok text =>
    let invocation : Invocation :=
      { number := number
        files := m.files
        base := m.directory
        directory := id.path.directory?.getD m.directory
        args := c.args
        input := bytesOf text }
    match m.programs c.command invocation with
    | .error e => { ending := .failed (.notRun (startMessage c.command e)) }
    | .ok outcome => ofOutcome outcome

end Run

end SaveLint.Analyzer
