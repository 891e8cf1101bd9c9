import SaveLint.Path.Parts
import SaveLint.Text.Ascii

/-!
# The analyzer

Which analyzer runs, on which documents, and how its results are labelled. A file belongs to the
analyzer when its extension is one of the analyzer's extensions, whatever their case and however
many dots they are written with.
-/

namespace SaveLint.Analyzer

structure Config where
  /-- Whether saving a document runs the analyzer. -/
  enabled : Bool := true
  /-- The program: a name on the search path, or a path. -/
  command : String := "python"
  /-- The arguments; the program reads the document from its standard input. -/
  args : List String := ["-m", "pylint", "--from-stdin", "test.py"]
  language : String := "python"
  /-- The label of diagnostics and warnings. -/
  source : String := "pylint"
  extensions : List String := ["py", "pyi"]
  deriving DecidableEq, Repr, Inhabited

namespace Config

/-- A configuration that runs the given command and leaves the rest at its default. -/
def ofCommand (command : String) (args : List String) : Config :=
  { command := command, args := args }

/-- The configuration with a change made to its texts; the extensions stay as they are. -/
def mapTexts (f : String → String) (c : Config) : Config :=
  { c with
    command := f c.command
    args := c.args.map f
    language := f c.language
    source := f c.source }

/-- The form in which extensions are compared: without leading dots, in lower case. -/
def extensionKey (extension : String) : List Char :=
  Text.lowerAscii (extension.toList.dropWhile (· == '.'))

/-- Whether the analyzer claims files with the extension of the path. -/
def claims (c : Config) (p : Path) : Bool :=
  match p.extension? with
  | some extension => c.extensions.any (extensionKey · == Text.lowerAscii extension.toList)
  | none => false

/-- The language of a file, if the analyzer claims it. -/
def languageOf? (c : Config) (p : Path) : Option String :=
  if c.claims p then some c.language else none

end Config

end SaveLint.Analyzer
