import SaveLint.Diagnostic
import SaveLint.Path.Table

/-!
# The store of diagnostics

For every analyzed file the store holds the diagnostics of its last report, and the report itself.
Diagnostics are replaced as a whole, so none of an earlier report survives a later one; a file
without diagnostics keeps its entry.

A snapshot lists the files for display: those with an error first, and within each group by path.
-/

namespace SaveLint

/-- The diagnostics and the last report of every analyzed file. -/
structure Store where
  diagnostics : FileTable (List Diagnostic) := {}
  reports : FileTable String := {}

namespace Store

def empty : Store := {}

def replace (s : Store) (id : FileIdentity) (items : List Diagnostic) : Store :=
  { s with diagnostics := s.diagnostics.insert id items }

/-- Keeps a report as the last one of a file. -/
def recordReport (s : Store) (id : FileIdentity) (raw : String) : Store :=
  { s with reports := s.reports.insert id raw }

def current (s : Store) (id : FileIdentity) : Option (List Diagnostic) := s.diagnostics.get? id

def lastReport (s : Store) (id : FileIdentity) : Option String := s.reports.get? id

end Store

/-! ### Snapshots -/

/-- The files of a store, in the order of display. -/
structure Snapshot where
  files : List (FileIdentity × List Diagnostic)

namespace Snapshot

def hasErrors (items : List Diagnostic) : Bool := items.any (·.severity == .error)

/-- The order of display: files with errors first, then by path. -/
def comesFirst (a b : FileIdentity × List Diagnostic) : Bool :=
  match hasErrors a.2, hasErrors b.2 with
  | true, false => true
  | false, true => false
  | _, _ => a.1.path.le b.1.path

def diagnostics (s : Snapshot) : List Diagnostic := s.files.flatMap (·.2)

def count (s : Snapshot) (severity : Severity) : Nat :=
  s.diagnostics.countP (·.severity == severity)

def total (s : Snapshot) : Nat := s.files.foldr (fun file n => file.2.length + n) 0

/-- The status line: the numbers of errors and warnings. -/
def status (s : Snapshot) : String := s!"E:{s.count .error} W:{s.count .warning}"

end Snapshot

def Store.snapshot (s : Store) : Snapshot := ⟨s.diagnostics.entries.mergeSort Snapshot.comesFirst⟩

end SaveLint
