import SaveLint.Machine.OsError
import SaveLint.Path.Parts
import SaveLint.Text.Utf8

/-!
# Files

A file system holds files, directories and symbolic links under their names from the root. `walk`
follows a path piece by piece, as the system does: every piece but the last has to be a directory,
links are followed on the way, and after too many of them the walk is given up.
-/

namespace SaveLint

/-- When a file was modified: what a running clock showed, or a time in seconds that was set. -/
inductive Stamp where
  | clock (tick : Nat)
  | seconds (n : Int)
  deriving DecidableEq, Repr

inductive Node where
  | file (content : Bytes) (modified : Stamp) (executable : Bool)
  | directory (modified : Stamp)
  | link (target : Path)
  deriving Repr

namespace Node

def modified? : Node → Option Stamp
  | file _ t _ => some t
  | directory t => some t
  | link _ => none

def isDirectory : Node → Bool
  | directory _ => true
  | _ => false

end Node

/-- The names that lead from the root to a node. -/
abbrev Names := List String

/-- A file system. The root is always a directory. -/
structure FileSystem where
  entries : List (Names × Node) := []
  tick : Nat := 0
  deriving Repr

namespace FileSystem

def pathOf (names : Names) : Path := ⟨"/" ++ "/".intercalate names⟩

def node? (fs : FileSystem) (names : Names) : Option Node :=
  if names = [] then some (.directory (.clock 0)) else fs.entries.lookup names

/-- How many links are followed before a path is given up. -/
def linkLimit : Nat := 40

def nameLimit : Nat := 255

def pathLimit : Nat := 4095

inductive Place where
  /-- A node that is there, under its own names. -/
  | found (names : Names) (node : Node)
  | free (names : Names)

def piecesOf (p : Path) : List String := (Path.pieces p.text.toList).map String.ofList

/-- Follows pieces from a directory. At most `links` links are followed. -/
def walk (fs : FileSystem) (links : Nat) (here : Names) (pieces : List String) :
    Except OsError Place :=
  match pieces with
  | [] => .ok (.found here ((fs.node? here).getD (.directory (.clock 0))))
  | piece :: rest =>
    if piece = "" ∨ piece = "." then fs.walk links here rest
    else if piece = ".." then fs.walk links here.dropLast rest
    else if nameLimit < piece.utf8ByteSize then .error .nameTooLong
    else
      match fs.node? (here ++ [piece]) with
      | none => if rest = [] then .ok (.free (here ++ [piece])) else .error .notFound
      | some (.directory _) => fs.walk links (here ++ [piece]) rest
      | some (.file content modified executable) =>
        if rest = [] then .ok (.found (here ++ [piece]) (.file content modified executable))
        else .error .notADirectory
      | some (.link target) =>
        match links with
        | 0 => .error .tooManyLinks
        | links + 1 =>
          let start := if target.isAbsolute then [] else here
          fs.walk links start (piecesOf target ++ rest)
termination_by (links, pieces.length)

def locate (fs : FileSystem) (p : Path) : Except OsError Place :=
  if p.text.toList.contains '\x00' then .error .nulInPath
  else if p.isEmpty then .error .notFound
  else if pathLimit < p.text.utf8ByteSize then .error .nameTooLong
  else fs.walk linkLimit [] (piecesOf p)

/-! ### Reading -/

def lookUp (fs : FileSystem) (p : Path) : Except OsError (Names × Node) := do
  match ← fs.locate p with
  | .found names node => return (names, node)
  | .free _ => throw .notFound

def isThere (fs : FileSystem) (p : Path) : Bool := (fs.lookUp p).toBool

def read (fs : FileSystem) (p : Path) : Except OsError Bytes := do
  match (← fs.lookUp p).2 with
  | .file content _ _ => return content
  | .directory _ => throw .isADirectory
  | .link _ => throw .tooManyLinks

def readText (fs : FileSystem) (p : Path) : Except OsError String := do
  match stringOf? (← fs.read p) with
  | some text => return text
  | none => throw .notUtf8

def modified? (fs : FileSystem) (p : Path) : Option Stamp :=
  match fs.lookUp p with
  | .ok (_, node) => node.modified?
  | .error _ => none

/-- The path of a node by its own names, without links. -/
def canonical (fs : FileSystem) (p : Path) : Except OsError Path :=
  (fs.lookUp p).map fun (names, _) => pathOf names

theorem walk_root (fs : FileSystem) (links : Nat) :
    fs.walk links [] ["", ""] = .ok (.found [] (.directory (.clock 0))) := by
  rw [walk, if_pos (.inl rfl), walk, if_pos (.inl rfl), walk]
  rfl

theorem canonical_root (fs : FileSystem) : fs.canonical ⟨"/"⟩ = .ok ⟨"/"⟩ := by
  have hlocate : fs.locate ⟨"/"⟩ = .ok (.found [] (.directory (.clock 0))) :=
    fs.walk_root linkLimit
  rw [canonical, lookUp, hlocate]
  rfl

/-! ### Writing -/

def setEntry (names : Names) (node : Node) : List (Names × Node) → List (Names × Node)
  | [] => [(names, node)]
  | (other, n) :: rest =>
    if other = names then (names, node) :: rest else (other, n) :: setEntry names node rest

/-- A node put under names. A new name in a directory modifies the directory. -/
def put (fs : FileSystem) (names : Names) (node : Node) : FileSystem :=
  let parent := names.dropLast
  let entries :=
    match fs.node? names, fs.node? parent with
    | none, some (.directory _) =>
      if parent = [] then fs.entries else setEntry parent (.directory (.clock fs.tick)) fs.entries
    | _, _ => fs.entries
  { fs with entries := setEntry names node entries, tick := fs.tick + 1 }

def endsInSlash (p : Path) : Bool := p.text.toList.getLast? == some '/'

/--
Writes a file, which is made if it is missing and replaced if it is there. A path that ends in a
slash names no file.
-/
def write (fs : FileSystem) (p : Path) (content : Bytes) : Except OsError FileSystem := do
  if endsInSlash p then
    match p.directory? with
    | none => throw .isADirectory
    | some above =>
      if (← fs.lookUp above).2.isDirectory then throw .isADirectory else throw .notADirectory
  else
    match ← fs.locate p with
    | .free names => return fs.put names (.file content (.clock fs.tick) false)
    | .found names (.file _ _ executable) =>
      return fs.put names (.file content (.clock fs.tick) executable)
    | .found _ _ => throw .isADirectory

/-- Makes the directories that the prefixes of a path name, as far as they are missing. -/
def makeEach (fs : FileSystem) (spelled : String) : List String → Except OsError FileSystem
  | [] => .ok fs
  | piece :: rest => do
    let next := spelled ++ "/" ++ piece
    match ← fs.locate ⟨next⟩ with
    | .found _ (.directory _) => fs.makeEach next rest
    | .found _ _ => throw .alreadyExists
    | .free names => (fs.put names (.directory (.clock fs.tick))).makeEach next rest

def makeDirectory (fs : FileSystem) (p : Path) : Except OsError FileSystem :=
  fs.makeEach "" (piecesOf p)

/-- Opens a file to add to it, which is made if it is missing. -/
def openToAppend (fs : FileSystem) (p : Path) : Except OsError FileSystem := do
  match ← fs.locate p with
  | .free names => return fs.put names (.file [] (.clock fs.tick) false)
  | .found _ (.file _ _ _) => return fs
  | .found _ _ => throw .isADirectory

def makeLink (fs : FileSystem) (p target : Path) : Except OsError FileSystem := do
  match ← fs.locate p with
  | .free names => return fs.put names (.link target)
  | .found _ _ => throw .alreadyExists

def setModified (fs : FileSystem) (p : Path) (t : Stamp) : Except OsError FileSystem := do
  match ← fs.lookUp p with
  | (names, .file content _ executable) =>
    return { fs with entries := setEntry names (.file content t executable) fs.entries }
  | (names, .directory _) =>
    return { fs with entries := setEntry names (.directory t) fs.entries }
  | (_, .link _) => return fs

def setExecutable (fs : FileSystem) (p : Path) : Except OsError FileSystem := do
  match ← fs.lookUp p with
  | (names, .file content t _) =>
    return { fs with entries := setEntry names (.file content t true) fs.entries }
  | _ => return fs

/-- Removes a node with everything below it; a link is removed itself. -/
def remove (fs : FileSystem) (p : Path) : Except OsError FileSystem := do
  let above ← fs.lookUp (p.directory?.getD ⟨"/"⟩)
  let names := above.1 ++ (p.fileName?.map ([·])).getD []
  let parent := above.1
  let entries := fs.entries.filter fun (other, _) => !names.isPrefixOf other
  if entries.length = fs.entries.length then throw .notFound
  else
    let entries :=
      if parent = [] then entries else setEntry parent (.directory (.clock fs.tick)) entries
    return { fs with entries := entries, tick := fs.tick + 1 }

end FileSystem

end SaveLint
