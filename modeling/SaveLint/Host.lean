import SaveLint.Linter.Event

/-!
# The host

The host is the editor, or the terminal in its place. A session does not touch it; it says which
calls are to be made, in order. A document of the host has a path and a language, and its text is
asked for when it is needed. The text of a document that is backed by its file is what was saved
last.
-/

namespace SaveLint

inductive HostCall where
  | error (message : String)
  | warning (message : String)
  /-- A longer operation begins. -/
  | progress (title : String)
  /-- The diagnostics shown for a file are replaced. -/
  | publish (file : FileIdentity) (items : List Diagnostic)
  /-- A new document, which has no file, is opened. -/
  | untitled (content language : String)
  deriving DecidableEq

/-- The call that shows an update. -/
def HostCall.ofUpdate : Update → HostCall
  | .published file items => publish file items
  | .warning text => warning text
  | .error text => error text

structure Document where
  path : Path
  language : String
  /-- The text as it is on a machine, or why it cannot be had. -/
  text : Machine → Except String String

/-- A document that is backed by the file at its path. -/
def Document.ofFile (path : Path) (language : String) : Document where
  path := path
  language := language
  text := fun m => (m.readText path).mapError OsError.message

@[simp] theorem Document.language_ofFile (path : Path) (language : String) :
    (ofFile path language).language = language := rfl

theorem Document.text_ofFile {m : Machine} {path : Path} {language text : String}
    (h : m.readText path = .ok text) : (ofFile path language).text m = .ok text := by
  show (m.readText path).mapError OsError.message = _
  rw [h]
  rfl

end SaveLint
