import SaveLint.CommandLine.Arguments
import SaveLint.Commands.Check
import SaveLint.Commands.Fix
import SaveLint.Commands.Watch
import SaveLint.Settings.File

/-!
# Running the program

The program reads its arguments, opens its log, loads the configuration and runs the command. What
it prints and how it exits is the whole of its effect, apart from files.
-/

namespace SaveLint.CommandLine

def programName : String := "codesense"

def version : String := "0.0.0"

/-- What the program finds when it is started. -/
structure Setting where
  machine : Machine
  environment : Environment := fun _ => none
  /-- The home directory of the account, for when the environment names none. -/
  accountHome : Path := ⟨"/root"⟩
  server : Llm.Server := fun _ => .unreachable
  /-- What happens while files are watched. -/
  moments : List Commands.Watch.Moment := []
  /-- How the runs overlap. -/
  schedule : List Pipeline.Turn := []

structure Exit where
  status : Nat
  out : String := ""
  err : String := ""
  machine : Machine
  /-- What the requests name, and their bodies. -/
  requests : List (String × String) := []

namespace Setting

def home (s : Setting) : Path :=
  match s.environment "HOME" with
  | some dir => if dir = "" then s.accountHome else ⟨dir⟩
  | none => s.accountHome

/-! ### The log -/

/-- The log file below a directory of the program's files. -/
def logFile (directory : Path) : Path := (directory.join "logs").join (programName ++ ".log")

/-- The places for the log, in the order in which they are tried. -/
def logFiles (s : Setting) : List Path :=
  [logFile (Settings.directory s.home), logFile ⟨Settings.directoryName⟩]

/-- The files with a log opened, together with the directories above it. -/
def openLog? (m : Machine) (p : Path) : Option FileSystem :=
  let dir := m.resolved (p.directory?.getD ⟨"."⟩)
  match m.files.makeDirectory dir with
  | .ok files => (files.openToAppend (m.resolved p)).toOption
  | .error _ => none

/-- The machine with the log opened in the first place that takes it. -/
def withLog (s : Setting) : Setting :=
  match s.logFiles.findSome? (openLog? s.machine) with
  | some files => { s with machine := { s.machine with files := files } }
  | none => s

/-! ### The configuration -/

/-- An error with what underlies it, as it is printed at the end. -/
def errorText (message : String) (causes : List String) : String :=
  let numbered := causes.zipIdx.map fun (cause, k) => s!"    {k}: {cause}\n"
  let lines :=
    match causes with
    | [cause] => s!"    {cause}\n"
    | _ => String.join numbered
  s!"Error: {message}\n\nCaused by:\n{lines}"

/-- The settings, or the text of the error that ends the program. -/
def settings (s : Setting) : Option Path → Except String Settings
  | some p =>
    (Settings.load s.machine p).mapError fun e =>
      errorText s!"loading {p.text}" [e.message, e.cause]
  | none =>
    match Settings.loadDefault s.machine s.home with
    | .ok found => .ok (found.getD {})
    | .error e => .error (errorText e.message [e.cause])

/-! ### Commands -/

/-- The exit status of a program that a fault has stopped. -/
def exitFault : Nat := 101

/-- The end of a command that printed on one terminal. -/
def exitOf (s : Setting) : Except Crash (Nat × Workplace) → Exit
  | .ok (status, w) => ⟨status, w.terminal.out, w.terminal.err, w.machine, []⟩
  | .error crash =>
    ⟨exitFault, crash.terminal.out, crash.terminal.err ++ crash.fault.message ++ "\n", s.machine, []⟩

/-- The workplace of a command, with the file for untitled documents. -/
def workplace (s : Setting) (settings : Settings) (untitled : Option Path) : Workplace where
  session := .ofSettings settings s.environment
  terminal := { baseDirectory := some s.machine.directory, untitled := untitled }
  machine := s.machine

def runAction (s : Setting) (settings : Settings) : Action → Exit
  | .check files => s.exitOf (Commands.check (s.workplace settings none) files s.schedule)
  | .watch files _ => s.exitOf (Commands.watch (s.workplace settings none) files s.moments s.schedule)
  | .fix file output =>
    let quiet : Terminal := { baseDirectory := some s.machine.directory }
    let done := Commands.fix (s.workplace settings output) quiet s.server file s.schedule
    let err := done.quiet.both ++ done.terminal.err
    match done.fault with
    | none => ⟨done.exit, done.terminal.out, err, done.machine, done.requests⟩
    | some fault =>
      ⟨exitFault, done.terminal.out, err ++ fault.message ++ "\n", done.machine, done.requests⟩

end Setting

def run (s : Setting) (args : List String) : Exit :=
  match Arguments.read s.environment args with
  | .error .usage => ⟨2, "", s!"error: usage of {programName}\n", s.machine, []⟩
  | .error .help => ⟨0, s!"Usage: {programName} [OPTIONS] <COMMAND>\n", "", s.machine, []⟩
  | .error .version => ⟨0, s!"{programName} {version}\n", "", s.machine, []⟩
  | .ok arguments =>
    let s := s.withLog
    match s.settings arguments.config with
    | .error text => ⟨1, "", text, s.machine, []⟩
    | .ok settings => s.runAction settings arguments.action

end SaveLint.CommandLine
