import SaveLint.Text.Ascii

/-!
# Options on a command line

A level of a command line takes options and positional arguments in any order. An option is written
`--name`, `--name value` or `--name=value`, or by a letter as `-n`, `-n value`, `-nvalue` or
`-n=value`; letters without values may share one dash. After `--` all arguments are positional. No
option may be given twice, and a value that stands alone may not look like an option.
-/

namespace SaveLint.CommandLine

/-- Why reading a command line stops early. -/
inductive Stop where
  | usage
  | help
  | version
  deriving DecidableEq, Repr

/-- What an option does. -/
inductive Kind where
  | flag
  /-- The option takes a value, which has to pass a test. -/
  | value (isValid : String → Bool)
  | stop (why : Stop)

structure OptionSpec where
  name : String
  letter : Option Char := none
  kind : Kind

structure Level where
  options : List OptionSpec
  /-- How many positional arguments there may be; nothing for any number. -/
  positionals : Option Nat := none
  isValid : String → Bool := fun _ => true

/-- What was given at a level: options with their values, and positional arguments, in order. -/
structure Given where
  options : List (String × String) := []
  positionals : List String := []
  /-- The option whose value comes next. -/
  pending : Option OptionSpec := none
  /-- Whether `--` was read. -/
  onlyPositionals : Bool := false

namespace Given

def value? (g : Given) (name : String) : Option String := g.options.lookup name

def add (g : Given) (spec : OptionSpec) (value : String) : Except Stop Given :=
  if (g.value? spec.name).isSome then .error .usage
  else .ok { g with options := g.options ++ [(spec.name, value)], pending := none }

/-- An option whose value was written next to it, or is still to come. -/
def option (g : Given) (spec : OptionSpec) (attached : Option String) : Except Stop Given :=
  match spec.kind, attached with
  | .stop why, none => .error why
  | .stop _, some _ => .error .usage
  | .flag, none => g.add spec ""
  | .flag, some _ => .error .usage
  | .value isValid, some v => if isValid v then g.add spec v else .error .usage
  | .value _, none => .ok { g with pending := some spec }

/-- Options written by their letters, without the dash. -/
def letters (level : Level) (g : Given) : List Char → Except Stop Given
  | [] => .ok g
  | c :: cs =>
    match level.options.find? (·.letter == some c) with
    | none => .error .usage
    | some spec =>
      match spec.kind, cs with
      | .value _, '=' :: v => g.option spec (some (String.ofList v))
      | .value _, [] => g.option spec none
      | .value _, v => g.option spec (some (String.ofList v))
      | _, _ => do letters level (← g.option spec none) cs

/-- An option written by its name, without the dashes. -/
def named (level : Level) (g : Given) (cs : List Char) : Except Stop Given :=
  let name := String.ofList (cs.takeWhile (· != '='))
  let attached :=
    match cs.dropWhile (· != '=') with
    | _ :: v => some (String.ofList v)
    | [] => none
  match level.options.find? (·.name == name) with
  | none => .error .usage
  | some spec => g.option spec attached

def positional (level : Level) (g : Given) (arg : String) : Except Stop Given :=
  if level.positionals.any (· ≤ g.positionals.length) || !level.isValid arg then .error .usage
  else .ok { g with positionals := g.positionals ++ [arg] }

/-- The value that a pending option waits for. -/
def pendingValue (g : Given) (spec : OptionSpec) (arg : String) : Except Stop Given :=
  match spec.kind with
  | .value isValid => if isValid arg then g.add spec arg else .error .usage
  | _ => .error .usage

def looksLikeOption (arg : String) : Bool :=
  match arg.toList with
  | '-' :: _ :: _ => true
  | _ => false

/-- Reads an argument that is no positional one; nothing if it is one. -/
def nonPositional? (level : Level) (g : Given) (arg : String) : Option (Except Stop Given) :=
  if g.onlyPositionals then none
  else
    match g.pending with
    | some spec => some (if looksLikeOption arg then .error .usage else g.pendingValue spec arg)
    | none =>
      match arg.toList with
      | ['-', '-'] => some (.ok { g with onlyPositionals := true })
      | '-' :: '-' :: cs => some (g.named level cs)
      | '-' :: c :: cs => some (g.letters level (c :: cs))
      | _ => none

def readAll (level : Level) : Given → List String → Except Stop Given
  | g, [] => if g.pending.isSome then .error .usage else .ok g
  | g, arg :: args =>
    match g.nonPositional? level arg with
    | some result => do readAll level (← result) args
    | none => do readAll level (← g.positional level arg) args

/-- Reads arguments up to the first positional one, which is returned with the rest. -/
def readUntilPositional (level : Level) :
    Given → List String → Except Stop (Given × Option (String × List String))
  | g, [] => if g.pending.isSome then .error .usage else .ok (g, none)
  | g, arg :: args =>
    match g.nonPositional? level arg with
    | some result => do readUntilPositional level (← result) args
    | none => if g.onlyPositionals then .error .usage else .ok (g, some (arg, args))

end Given

end SaveLint.CommandLine
