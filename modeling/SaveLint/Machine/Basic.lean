import SaveLint.FileIdentity
import SaveLint.Machine.FileSystem

/-!
# The machine

What runs and commands see of the machine: its files, the working directory, and its programs. A
command is a name or a path; which program it stands for and whether that can be started is up to
the machine. A program that was started reads its input and writes to two streams, which are read
until they are closed, and then it exits; any of these may fail.
-/

namespace SaveLint

/-- What is seen of a program from its start to its exit. -/
structure Outcome where
  /-- The standard output, or why it cannot be read to its end. -/
  stdout : Except String Bytes := .ok []
  /-- What each read of the standard error brings. -/
  stderr : List Bytes := []
  /-- Why the standard error cannot be read any further after that; nothing if it is closed. -/
  stderrError : Option String := none
  /-- The exit status, none if the program was killed, or why it cannot be waited for. -/
  exit : Except String (Option Int) := .ok (some 0)
  /-- The error of the task that looks after the program, if the task breaks down. -/
  breakdown : Option String := none

structure Invocation where
  /-- How many runs were started before. A program may do something else every time. -/
  number : Nat
  files : FileSystem
  /-- The directory that the command is looked up from, if it is a relative path. -/
  base : Path
  /-- The directory that the program runs in. -/
  directory : Path
  args : List String
  input : Bytes

/-- Why a program cannot be started. -/
inductive StartError where
  /-- No program is found for the command. -/
  | unknown
  | refused (reason : String)
  deriving DecidableEq, Repr

abbrev Program := Invocation → Except StartError Outcome

structure Machine where
  files : FileSystem := {}
  directory : Path := ⟨"/"⟩
  /-- What the commands stand for. -/
  programs : String → Program := fun _ _ => .error .unknown

namespace Machine

/-- A path as seen from the working directory. -/
def resolved (m : Machine) (p : Path) : Path := if p.isEmpty then p else m.directory.join p.text

def readText (m : Machine) (p : Path) : Except OsError String := m.files.readText (m.resolved p)

def modified? (m : Machine) (p : Path) : Option Stamp := m.files.modified? (m.resolved p)

def write (m : Machine) (p : Path) (content : Bytes) : Except OsError Machine :=
  (m.files.write (m.resolved p) content).map fun files => { m with files := files }

/--
The identity of a file: its path without links if it is there, and the absolute spelling of its path
otherwise. The empty path has no identity.
-/
def identity? (m : Machine) (p : Path) : Option FileIdentity :=
  if p.isEmpty then none
  else
    match m.files.canonical (m.resolved p) with
    | .ok path => FileIdentity.ofPath? path
    | .error _ => FileIdentity.ofPath? (.absoluteFrom m.directory p)

theorem identity?_root (m : Machine) : m.identity? ⟨"/"⟩ = some ⟨⟨"/"⟩, by decide⟩ := by
  have hresolved : m.resolved ⟨"/"⟩ = ⟨"/"⟩ := rfl
  rw [identity?, hresolved, m.files.canonical_root]
  rfl

theorem identity?_of_lookUp {m : Machine} {p : Path} {names : Names} {node : Node}
    (hp : p.isEmpty = false) (h : m.files.lookUp (m.resolved p) = .ok (names, node)) :
    m.identity? p = FileIdentity.ofPath? (FileSystem.pathOf names) := by
  rw [identity?, hp, FileSystem.canonical, h]
  rfl

theorem readText_of_lookUp {m : Machine} {p : Path} {names : Names} {content : Bytes}
    {modified : Stamp} {executable : Bool} {text : String}
    (h : m.files.lookUp (m.resolved p) = .ok (names, .file content modified executable))
    (htext : stringOf? content = some text) : m.readText p = .ok text := by
  have hread : m.files.read (m.resolved p) = .ok content := by
    rw [FileSystem.read, h]
    rfl
  rw [readText, FileSystem.readText, hread]
  simp only [bind, Except.bind, htext]
  rfl

end Machine

end SaveLint
