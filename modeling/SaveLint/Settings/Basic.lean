import SaveLint.Analyzer.Config
import SaveLint.Llm.Config
import SaveLint.Settings.Expand
import SaveLint.Settings.Record
import SaveLint.Toml.Document

/-!
# Settings

The configuration file has a section for the analyzer and a section for the language model; both may
be missing, and so may each of their keys. The effective settings are the sections with defaults for
what is missing and with references to the environment replaced. A host in the environment takes
precedence over the base URL of the file.
-/

namespace SaveLint

/-- The sections of a configuration file. -/
structure Settings where
  analyzer? : Option Analyzer.Config := none
  llm? : Option Llm.Config := none
  deriving DecidableEq, Repr

namespace Settings

/-! ### The sections of a file -/

def analyzerFields : List (Field Analyzer.Config) := [
  ⟨"enabled", fun v c => v.asBool?.map fun b => { c with enabled := b }⟩,
  ⟨"command", fun v c => v.asString?.map fun s => { c with command := s }⟩,
  ⟨"args", fun v c => (texts? v).map fun ss => { c with args := ss }⟩,
  ⟨"language_id", fun v c => v.asString?.map fun s => { c with language := s }⟩,
  ⟨"source", fun v c => v.asString?.map fun s => { c with source := s }⟩,
  ⟨"file_extensions", fun v c => (texts? v).map fun ss => { c with extensions := ss }⟩]

def llmFields : List (Field Llm.Config) := [
  ⟨"base_url", fun v c => v.asString?.map fun s => { c with baseUrl := s }⟩,
  ⟨"model", fun v c => v.asString?.map fun s => { c with model := s }⟩,
  ⟨"timeout_secs", fun v c =>
    (naturalUpTo? Number.max64 v).map fun n => { c with timeoutSeconds := n }⟩,
  ⟨"max_retries", fun v c =>
    (naturalUpTo? Number.max32 v).map fun n => { c with maxRetries := UInt32.ofNat n }⟩]

def analyzerOfJson? (v : Json) : Option Analyzer.Config :=
  Field.ofJson? analyzerFields false {} v

def sections : List (Field Settings) := [
  ⟨"analyzer", fun v s =>
    (Field.ofJson? analyzerFields true {} v).map fun c => { s with analyzer? := some c }⟩,
  ⟨"llm", fun v s =>
    (Field.ofJson? llmFields true {} v).map fun c => { s with llm? := some c }⟩]

def ofToml? (text : String) : Option Settings :=
  (Toml.read? text).bind (Field.ofJson? sections true {})

/-! ### Effective settings -/

def hostVariable : String := "OLLAMA_HOST"

/-- The analyzer, with references to the environment replaced. -/
def analyzer (s : Settings) (env : Environment) : Analyzer.Config :=
  (s.analyzer?.getD {}).mapTexts (expanded env)

/-- The host that takes precedence, without blanks around it, if one is given that is not blank. -/
def host? (given : Option String) : Option String := (given.map Text.trimmed).filter (· != "")

/--
The connection to the language model if a host may be given, with references to the environment
replaced.
-/
def llmWithHost (s : Settings) (env : Environment) (host : Option String) : Llm.Config :=
  let file := s.llm?.getD {}
  let url := (host? host).getD (expanded env file.baseUrl)
  { file.withBaseUrl url with model := expanded env file.model }

/-- The connection to the language model; the host is that of the environment. -/
def llm (s : Settings) (env : Environment) : Llm.Config := s.llmWithHost env (env hostVariable)

end Settings

end SaveLint
