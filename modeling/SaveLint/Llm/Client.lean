import SaveLint.Llm.Config
import SaveLint.Llm.ErrorBody
import SaveLint.Llm.Message
import SaveLint.Llm.Retry
import SaveLint.Llm.Url

/-!
# Chats with the language model

A chat sends one request, again and again while the policy allows it, and gives the answer of the
last attempt its meaning. What the attempts lead to is up to the server, so a chat is a function of
a server: the outcome of the first attempt, of the second one, and so on.
-/

namespace SaveLint.Llm

/-! ### Attempts -/

/-- The body of a response: its chunks, and whether they are all of it. -/
structure Body where
  chunks : List Bytes
  isComplete : Bool := true
  deriving DecidableEq, Repr

inductive Attempt where
  | response (status : Nat) (headers : Headers) (body : Body)
  /-- No connection was made, or the time ran out. -/
  | unreachable
  /-- The connection broke before a response came. -/
  | broken
  deriving DecidableEq, Repr

abbrev Server := Nat → Attempt

def isSuccess (status : Nat) : Bool := 200 ≤ status && status ≤ 299

/-- Why a chat has no answer. -/
inductive ChatError where
  | connection (attempts : Nat) (reason : String)
  | refused (status : Nat) (message : String)
  | undecodable (url : String)
  | emptyResponse
  deriving DecidableEq, Repr

def ChatError.message : ChatError → String
  | connection attempts reason =>
    s!"request to LLM failed after {attempts} attempt(s): {reason}"
  | refused status message => s!"LLM returned HTTP {status}: {message}"
  | undecodable url => s!"decoding LLM response: error decoding response body for url ({url})"
  | emptyResponse => "LLM returned an empty response"

/-! ### Chats -/

/-- A client for one server and one model. -/
structure Client where
  endpoint : Endpoint
  model : String
  policy : RetryPolicy := {}
  deriving DecidableEq, Repr

def Client.ofConfig (c : Config) : Client where
  endpoint := .ofString c.endpoint
  model := c.model
  policy := { maxRetries := c.maxRetries.toNat }

/-- What a client does in a chat: it sends a request, or it waits. -/
inductive Step (α : Type) where
  | request (sent : α)
  | pause (d : Duration)
  deriving DecidableEq, Repr

namespace Step

variable {α β : Type}

def map (f : α → β) : Step α → Step β
  | request sent => request (f sent)
  | pause d => pause d

def sent? : Step α → Option α
  | request sent => some sent
  | pause _ => none

def pause? : Step α → Option Duration
  | request _ => none
  | pause d => some d

@[simp] theorem sent?_map (f : α → β) (s : Step α) : (s.map f).sent? = s.sent?.map f := by
  cases s <;> rfl

end Step

/-- The last attempt of a chat, and the steps that led to it, with the numbers of the requests. -/
structure Tried where
  attempts : Nat
  outcome : Attempt
  steps : List (Step Nat)
  deriving DecidableEq, Repr

def Attempt.isRetryable : Attempt → Bool
  | response status headers _ => !isSuccess status && shouldRetry status headers
  | unreachable => true
  | broken => false

/-- The delay after an attempt that is worth another one. -/
def Attempt.delay (policy : RetryPolicy) (step : UInt32) : Attempt → Except Fault Duration
  | response _ headers _ => policy.delay step headers
  | _ => policy.backoff step

/-- Makes attempts from number `k` on while retries are left, after the given steps. -/
def tryFrom (policy : RetryPolicy) (server : Server) (k : Nat) (steps : List (Step Nat)) :
    Nat → Except Fault Tried
  | 0 => .ok ⟨k + 1, server k, steps ++ [.request k]⟩
  | left + 1 =>
    if (server k).isRetryable then
      match (server k).delay policy (UInt32.ofNat k) with
      | .ok d => tryFrom policy server (k + 1) (steps ++ [.request k, .pause d]) left
      | .error fault => .error fault
    else .ok ⟨k + 1, server k, steps ++ [.request k]⟩

structure Chat where
  reply : Except ChatError Message
  /-- All that the client does, with what each request names and its body. -/
  trace : List (Step (String × String))

namespace Chat

/-- What the requests name, and their bodies. -/
def requests (c : Chat) : List (String × String) := c.trace.filterMap Step.sent?

def delays (c : Chat) : List Duration := c.trace.filterMap Step.pause?

end Chat

/-- The reply that the last attempt stands for. -/
def replyOf (url : Url) (tried : Tried) : Except ChatError Message :=
  match tried.outcome with
  | .response status _ body =>
    if isSuccess status then
      if body.isComplete then
        match responseMessage? body.chunks.flatten with
        | some (some message) => .ok message
        | some none => .error .emptyResponse
        | none => .error (.undecodable url.text)
      else .error (.undecodable url.text)
    else .error (.refused status (errorMessage (cappedText [] body.chunks)))
  | _ => .error (.connection tried.attempts s!"error sending request for url ({url.text})")

/-- Sends messages and waits for the reply. -/
def Client.chat (c : Client) (server : Server) (messages : List Message) : Except Fault Chat :=
  match c.endpoint with
  | .unusable reason => .ok ⟨.error (.connection 1 reason), []⟩
  | .server url => do
    let tried ← tryFrom c.policy server 0 [] c.policy.maxRetries
    let request := (url.target, requestBody c.model messages)
    return ⟨replyOf url tried, tried.steps.map (Step.map fun _ => request)⟩

end SaveLint.Llm
