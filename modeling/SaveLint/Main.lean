import SaveLint.CommandLine.Run
import SaveLint.Machine.Programs

/-!
# The program

This is the only module that touches the system. The program runs on a picture of the files that its
arguments and its environment name. Afterwards the files that are new or have changed are written,
and what was printed is printed. The analyzers are the programs of a bare machine, and no server of
a language model is connected.
-/

namespace SaveLint.Main

/-! ### Pictures of the disk -/

inductive Sight where
  | missing
  | directory
  | file (content : Bytes)

/-- The number of the system's error for a directory where a file was expected. -/
def isADirectoryNumber : UInt32 := 21

def look (p : Path) : IO Sight := do
  try
    return .file (← IO.FS.readBinFile p.text).toList
  catch
    | .inappropriateType _ number _ =>
      return (if number = isADirectoryNumber then .directory else .missing)
    | _ => return .missing

/-- The picture with what was seen under a path. A file counts as modified if its content is new. -/
def seen (m : Machine) (p : Path) : Sight → Except OsError FileSystem
  | .missing => if m.files.isThere (m.resolved p) then m.files.remove (m.resolved p) else .ok m.files
  | .directory => m.files.makeDirectory (m.resolved p)
  | .file content => do
    if (m.files.read (m.resolved p)).toOption = some content then return m.files
    else
      let files ← m.files.makeDirectory ((m.resolved p).directory?.getD ⟨"/"⟩)
      files.write (m.resolved p) content

/-- The machine with a new picture of some paths. -/
def refreshed (m : Machine) (paths : List Path) : IO Machine :=
  paths.foldlM (fun m p => do
    match seen m p (← look (m.resolved p)) with
    | .ok files => return { m with files := files }
    | .error _ => return m) m

/-- Writes what has changed from one picture to the next. -/
def writeChanges (before after : FileSystem) : IO Unit := do
  for (names, node) in after.entries do
    let path := (FileSystem.pathOf names).text
    match node, before.node? names with
    | .directory _, none => IO.FS.createDirAll path
    | .file content _ _, some (.file old _ _) =>
      if content != old then IO.FS.writeBinFile path (ByteArray.mk content.toArray)
    | .file content _ _, none => IO.FS.writeBinFile path (ByteArray.mk content.toArray)
    | _, _ => pure ()

/-! ### Arguments and environment -/

/-- The variables of an environment, each written as `NAME=VALUE` and ended by a NUL. -/
def environment (bs : Bytes) : List (String × String) :=
  ((lossyString bs).splitOn "\x00").filterMap fun entry =>
    match entry.splitOn "=" with
    | name :: value :: more => some (name, "=".intercalate (value :: more))
    | _ => none

/-- The paths that arguments name: each argument, and what it holds after an equals sign. -/
def argumentPaths (args : List String) : List Path :=
  args.flatMap fun arg => ⟨arg⟩ :: ((arg.splitOn "=").drop 1).map Path.mk

def pathsOf (s : CommandLine.Setting) (args : List String) : List Path :=
  (argumentPaths args ++ (s.environment CommandLine.Arguments.configVariable).toList.map Path.mk ++
    Settings.defaultFile s.home :: s.logFiles).filter (!·.isEmpty)

/-! ### Running -/

def print (texts : List Printed) : IO Unit := do
  for p in texts do
    match p.channel with
    | .out => IO.print p.text
    | .err => IO.eprint p.text
  (← IO.getStdout).flush

/-- Watches files until the process is interrupted; the interval is in milliseconds. -/
partial def watch (interval : Nat) (files : List Path) (w : Commands.Watch) : IO UInt32 := do
  print w.workplace.terminal.printed
  let place := { w.workplace with
    terminal := { w.workplace.terminal with printed := [] }
    session := w.workplace.session.settle
    machine := ← refreshed w.workplace.machine files }
  match ({ w with workplace := place } : Commands.Watch).tick with
  | .ok (_, w) =>
    IO.sleep (UInt32.ofNat (max interval 1))
    watch interval files w
  | .error crash =>
    print crash.terminal.printed
    IO.eprintln crash.fault.message
    return UInt32.ofNat CommandLine.Setting.exitFault

def run (s : CommandLine.Setting) (args : List String) : IO UInt32 := do
  match CommandLine.Arguments.read s.environment args with
  | .ok ⟨config, _, .watch files interval⟩ =>
    match s.withLog.settings config with
    | .ok settings =>
      writeChanges s.machine.files s.withLog.machine.files
      watch interval files (.start (s.withLog.workplace settings none) files)
    | .error text =>
      IO.eprint text
      return 1
  | _ =>
    let exit := CommandLine.run s args
    writeChanges s.machine.files exit.machine.files
    IO.print exit.out
    IO.eprint exit.err
    return UInt32.ofNat exit.status

end SaveLint.Main

def main (args : List String) : IO UInt32 := do
  let environment := SaveLint.Main.environment (← IO.FS.readBinFile "/proc/self/environ").toList
  let directory := (environment.lookup "PWD").getD "/"
  let setting : SaveLint.CommandLine.Setting :=
    { machine := { directory := ⟨directory⟩, programs := SaveLint.Program.standard }
      environment := .ofList environment }
  let machine ← SaveLint.Main.refreshed setting.machine (SaveLint.Main.pathsOf setting args)
  SaveLint.Main.run { setting with machine := machine } args
