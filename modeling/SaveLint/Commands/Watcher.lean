import SaveLint.Machine.Basic

/-!
# Watching files

A watcher remembers when each watched file was last seen to be modified; a file that is absent has
no such time. A file has changed when it is there and its time is not the one seen before, be it
later or earlier. Several spellings of one path are one file, known by the first of them; when the
watcher starts, it looks at the file under the last of them.
-/

namespace SaveLint

/-- What is seen of files: when each was modified, or nothing for one that is absent. -/
abbrev Observation := Path → Option Stamp

def Machine.observation (m : Machine) : Observation := m.modified?

/-- The watched files with the times last seen. -/
structure Watcher where
  seen : List (Path × Option Stamp)
  deriving Repr

namespace Watcher

/-- The paths without further spellings of one that came before. -/
def distinct (known : List Path) : List Path → List Path
  | [] => []
  | p :: ps =>
    if known.any (·.same p) then distinct known ps else p :: distinct (p :: known) ps

/-- The last spelling of a path among some. -/
def lastSpelling (files : List Path) (p : Path) : Path :=
  (files.reverse.find? (·.same p)).getD p

/-- A watcher of files that has seen one observation. -/
def ofFiles (observe : Observation) (files : List Path) : Watcher :=
  ⟨(distinct [] files).map fun p => (p, observe (lastSpelling files p))⟩

/-- Whether an observation differs from what was seen, and shows a file that is there. -/
def hasChanged (observe : Observation) (entry : Path × Option Stamp) : Bool :=
  (observe entry.1).isSome && observe entry.1 != entry.2

/-- The files that have changed, in order, and the watcher that has seen the observation. -/
def changed (w : Watcher) (observe : Observation) : List Path × Watcher :=
  (Path.sorted ((w.seen.filter (hasChanged observe)).map (·.1)),
    ⟨w.seen.map fun entry => (entry.1, observe entry.1)⟩)

end Watcher

end SaveLint
