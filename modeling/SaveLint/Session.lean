import SaveLint.Host
import SaveLint.Linter.Pipeline
import SaveLint.Llm.Client
import SaveLint.Llm.FixPrompt
import SaveLint.Settings.Basic

/-!
# Sessions

A session joins the pipeline and the language model. Saved documents start runs; `pump` shows what
is ready and never more than a budget, `drain` waits for all runs. The fix command sends a document
with its last report to the language model and opens the reply.
-/

namespace SaveLint

structure Session where
  pipeline : Pipeline
  client : Llm.Client

namespace Session

/-- How many updates are shown by one pump. -/
def updateBudget : Nat := 32

def ofConfig (c : Analyzer.Config) (client : Llm.Client) : Session :=
  { pipeline := .ofConfig c, client := client }

def ofSettings (s : Settings) (env : Environment) : Session :=
  ofConfig (s.analyzer env) (.ofConfig (s.llm env))

def linter (s : Session) : Linter := s.pipeline.linter

def config (s : Session) : Analyzer.Config := s.linter.config

def snapshot (s : Session) : Snapshot := s.linter.store.snapshot

/-! ### Runs -/

/-- A document is saved: whether a run was started, and the session after it. -/
def save (s : Session) (m : Machine) (d : Document) : Bool × Session :=
  match s.pipeline.save? m d.language d.path with
  | some p => (true, { s with pipeline := p })
  | none => (false, s)

/-- The live runs go on as far as there is room for their events. -/
def settle (s : Session) : Session := { s with pipeline := s.pipeline.settle }

def calls (ds : List Delivery) : List HostCall := ds.map fun d => .ofUpdate d.update

/-- A pump: how many updates it has applied, how they are shown, and the session after it. -/
structure Pumped where
  count : Nat
  calls : List HostCall
  session : Session

/-- Shows what is ready, up to the budget. -/
def pump (s : Session) : Pumped :=
  let (ds, linter) := s.linter.poll updateBudget
  { count := ds.length
    calls := calls ds
    session := { s with pipeline := { s.pipeline with linter := linter } } }

def drain (s : Session) (schedule : List Pipeline.Turn) : List HostCall × Session :=
  let (ds, p) := s.pipeline.drain schedule
  (calls ds, { s with pipeline := p })

/-! ### The fix command -/

structure Fix where
  calls : List HostCall
  requests : List (String × String) := []
  opened : Bool := false
  /-- What stopped the command on the spot, after the calls. -/
  fault : Option Fault := none

/-- The last report of a document; the empty text if there is none. -/
def reportOf (s : Session) (m : Machine) (d : Document) : String :=
  ((m.identity? d.path).bind s.linter.store.lastReport).getD ""

/-- The fix command for the active document. -/
def fix (s : Session) (m : Machine) (server : Llm.Server) : Option Document → Fix
  | none => { calls := [.error "No active editor found."] }
  | some d =>
    match d.text m with
    | .error reason => { calls := [.error ("Failed to read file: " ++ reason)] }
    | .ok code =>
      let prompt := Llm.FixPrompt.text code (s.reportOf m d)
      let progress := HostCall.progress "Generating fixed code using LLM..."
      match s.client.chat server [⟨.user, prompt⟩] with
      | .error fault => { calls := [progress], fault := some fault }
      | .ok chat =>
        match chat.reply with
        | .ok reply =>
          { calls := [progress, .untitled reply.content d.language]
            requests := chat.requests
            opened := true }
        | .error e =>
          { calls := [progress, .error ("Error generating fixed code: " ++ e.message)]
            requests := chat.requests }

end Session

end SaveLint
