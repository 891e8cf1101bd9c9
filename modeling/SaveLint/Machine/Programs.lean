import SaveLint.Analyzer.Stderr
import SaveLint.Machine.Basic
import SaveLint.Text.Blank

/-!
# The programs of a bare machine

Which programs there are is up to the machine (`Machine.programs`). A bare one has a few: `cat`
copies its input or the files that it is given, `echo` writes its arguments, and `true` and `false`
only exit. Its files are texts, so a file that is named by its path can be found as a program, but
it is in no form that the system can run.
-/

namespace SaveLint.Program

def isEchoOption (arg : String) : Bool :=
  match arg.toList with
  | '-' :: c :: cs => (c :: cs).all fun c => c == 'n' || c == 'E'
  | _ => false

/-- Writes the arguments with spaces between them, and a line feed unless `-n` is given. -/
def echo (i : Invocation) : Outcome :=
  let options := i.args.takeWhile isEchoOption
  let words := i.args.dropWhile isEchoOption
  let ending := if options.any (·.toList.contains 'n') then "" else "\n"
  { stdout := .ok (bytesOf (" ".intercalate words ++ ending)) }

def unknownOption (arg : String) : String :=
  let what :=
    match arg.toList with
    | '-' :: '-' :: _ => s!"unrecognized option '{arg}'"
    | _ :: c :: _ => s!"invalid option -- '{c}'"
    | _ => ""
  s!"cat: {what}\nTry 'cat --help' for more information.\n"

/-- What a file holds, or the message that tells why it cannot be read; `-` is the input. -/
def catFile (i : Invocation) (name : String) : Except Bytes Bytes :=
  if name = "-" then .ok i.input
  else
    (i.files.read (i.directory.join name)).mapError fun e =>
      let text := String.ofList (e.message.toList.takeWhile (· != '('))
      bytesOf s!"cat: {name}: {Text.trimmedEnd text}\n"

/-- The outcome of a program that has written an output and some messages. -/
def written (output : Bytes) (messages : List Bytes) : Outcome :=
  { stdout := .ok output
    stderr := Analyzer.readsOf messages.flatten
    exit := .ok (some (if messages = [] then 0 else 1)) }

/-- Copies the input, or the files that are given, one after the other. -/
def cat (i : Invocation) : Outcome :=
  match i.args.find? fun arg => arg.length > 1 && arg.toList.head? == some '-' with
  | some arg => written [] [bytesOf (unknownOption arg)]
  | none =>
    let parts := (if i.args = [] then ["-"] else i.args).map (catFile i)
    written (parts.filterMap (·.toOption)).flatten (parts.filterMap fun part =>
      match part with
      | .ok _ => none
      | .error message => some message)

/-- A text file that is started as a program; no interpreter that it may name is there. -/
def ofFile (p : Path) : Program := fun i =>
  match i.files.lookUp (i.base.join p.text) with
  | .ok (_, .file content _ true) =>
    match lossyString (content.take 2) with
    | "#!" => .error (.refused OsError.notFound.message)
    | _ => .error (.refused OsError.badFormat.message)
  | _ => .error .unknown

/-- The programs of a bare machine, by their names; a command that is a path names a file. -/
def standard (command : String) : Program :=
  if 1 < (Path.mk command).components.length then ofFile ⟨command⟩
  else
    match command with
    | "cat" => fun i => .ok (cat i)
    | "echo" => fun i => .ok (echo i)
    | "true" => fun _ => .ok {}
    | "false" => fun _ => .ok { exit := .ok (some 1) }
    | _ => fun _ => .error .unknown

end SaveLint.Program
