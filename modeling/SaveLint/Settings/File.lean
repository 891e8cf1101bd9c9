import SaveLint.Machine.Basic
import SaveLint.Settings.Basic

/-!
# The configuration file

Where the configuration file is, and why it may not be loaded. A missing file in the default place
is no error; it means that all settings keep their defaults.
-/

namespace SaveLint.Settings

inductive LoadError where
  | unreadable (path : Path) (reason : OsError)
  | unparsable (path : Path)
  deriving DecidableEq, Repr

namespace LoadError

/-- What underlies an error. -/
def cause : LoadError → String
  | unreadable _ reason => reason.message
  | unparsable _ => "TOML parse error"

def message : LoadError → String
  | unreadable path reason => s!"failed to read config at {path.text}: {reason.message}"
  | unparsable path => s!"failed to parse config at {path.text}: TOML parse error"

def path : LoadError → Path
  | unreadable p _ => p
  | unparsable p => p

end LoadError

def load (m : Machine) (p : Path) : Except LoadError Settings :=
  match m.readText p with
  | .error e => .error (.unreadable p e)
  | .ok text =>
    match ofToml? text with
    | some settings => .ok settings
    | none => .error (.unparsable p)

def directoryName : String := ".codesense"

def directory (home : Path) : Path := home.join directoryName

def defaultFile (home : Path) : Path := (directory home).join "config.toml"

/-- The settings of the default file; nothing if the file is missing. -/
def loadDefault (m : Machine) (home : Path) : Except LoadError (Option Settings) :=
  if m.files.isThere (m.resolved (defaultFile home)) then (load m (defaultFile home)).map some
  else .ok none

end SaveLint.Settings
