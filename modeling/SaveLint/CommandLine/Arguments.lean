import SaveLint.CommandLine.Options
import SaveLint.Number.Numeral
import SaveLint.Path.Basic
import SaveLint.Settings.Expand

/-!
# The arguments of the program

The program has three commands: `check FILES`, `fix FILE [--output FILE]` and
`watch FILES [--interval-ms N]`. The options `--config` and `--verbose` may stand before or after
the command. For `--config` the place next to the command takes precedence, and a variable of the
environment counts only if the option is not given.
-/

namespace SaveLint.CommandLine

inductive Action where
  | check (files : List Path)
  | fix (file : Path) (output : Option Path)
  /-- The interval is in milliseconds. -/
  | watch (files : List Path) (interval : Nat)
  deriving DecidableEq, Repr

structure Arguments where
  config : Option Path
  verbose : Bool
  action : Action
  deriving DecidableEq, Repr

namespace Arguments

/-! ### Levels -/

def isPath (s : String) : Bool := s != ""

def isInterval (s : String) : Bool := (Number.unsigned64? s.toList).isSome

/-- The options that may stand before and after the command. -/
def globalOptions : List OptionSpec := [
  { name := "config", kind := .value isPath },
  { name := "verbose", letter := some 'v', kind := .flag },
  { name := "help", letter := some 'h', kind := .stop .help }]

def topLevel : Level :=
  { options := globalOptions ++ [{ name := "version", letter := some 'V', kind := .stop .version }]
    positionals := some 0 }

def checkLevel : Level := { options := globalOptions, isValid := isPath }

def fixLevel : Level :=
  { options := globalOptions ++ [{ name := "output", letter := some 'o', kind := .value isPath }]
    positionals := some 1
    isValid := isPath }

def watchLevel : Level :=
  { options := globalOptions ++ [{ name := "interval-ms", kind := .value isInterval }]
    isValid := isPath }

def defaultInterval : Nat := 500

/-! ### Reading -/

def action? (command : String) (g : Given) : Option Action :=
  match command, g.positionals with
  | "check", file :: files => some (.check ((file :: files).map Path.mk))
  | "fix", [file] => some (.fix ⟨file⟩ ((g.value? "output").map Path.mk))
  | "watch", file :: files =>
    let interval := (g.value? "interval-ms").bind fun s => Number.unsigned64? s.toList
    some (.watch ((file :: files).map Path.mk) (interval.getD defaultInterval))
  | _, _ => none

def level? : String → Option Level
  | "check" => some checkLevel
  | "fix" => some fixLevel
  | "watch" => some watchLevel
  | _ => none

/-- Whether the arguments of the command `help` name at most one command. -/
def isHelpTopic (args : List String) : Bool :=
  match args with
  | [] => true
  | [name] => name == "help" || (level? name).isSome
  | _ => false

/-- The environment variable that names the configuration file. -/
def configVariable : String := "CODESENSE_CONFIG"

/--
The configuration file that the two levels and the environment name. Each level reads the variable
for itself, so an empty one is refused unless both levels give the option.
-/
def configFile (env : Environment) (top inner : Given) : Except Stop (Option Path) :=
  match inner.value? "config", top.value? "config", env configVariable with
  | some p, some _, _ => .ok (some ⟨p⟩)
  | _, _, some "" => .error .usage
  | some p, none, _ => .ok (some ⟨p⟩)
  | none, some p, _ => .ok (some ⟨p⟩)
  | none, none, p => .ok (p.map Path.mk)

def read (env : Environment) (args : List String) : Except Stop Arguments := do
  match ← Given.readUntilPositional topLevel {} args with
  | (_, none) => throw .usage
  | (_, some ("help", topic)) => throw (if isHelpTopic topic then .help else .usage)
  | (top, some (command, args)) =>
    match level? command with
    | none => throw .usage
    | some level =>
      let inner ← Given.readAll level {} args
      match action? command inner with
      | none => throw .usage
      | some action =>
        let config ← configFile env top inner
        let verbose := (top.value? "verbose").isSome || (inner.value? "verbose").isSome
        return ⟨config, verbose, action⟩

end Arguments

end SaveLint.CommandLine
