import SaveLint.Duration
import SaveLint.Llm.Headers
import SaveLint.Number.Decimal

/-!
# Retries

Which responses are worth another request, and how long to wait before it. The server can decide
both by headers: `x-should-retry` overrules the status, and `retry-after-ms` or `retry-after` name a
delay, which counts only if it is longer than nothing and shorter than a minute. Without such a
header the delay doubles from retry to retry up to a limit. It is not shortened at random: the
jitter factor is 0.
-/

namespace SaveLint.Llm

/-- How often a request is repeated, and how the delays grow. -/
structure RetryPolicy where
  maxRetries : Nat := 2
  initialDelay : Duration := .ofParts 0 500000000
  maxDelay : Duration := .ofSeconds 8
  deriving DecidableEq, Repr

/-! ### Delays named by the server -/

def admitted (d : Duration) : Option Duration := if d.isWithinMinute then some d else none

/-- The delay named in milliseconds: a finite number above zero, divided by a thousand. -/
def delayOfMilliseconds (text : List Char) : Except Fault (Option Duration) :=
  match Number.binary64? text with
  | some ms =>
    if ms.isPositive then (Duration.ofBinary64 (ms.divNat 1000)).map admitted else .ok none
  | none => .ok none

def delayOfSeconds (text : List Char) : Option Duration :=
  (Number.unsigned64? text).bind fun n => admitted (.ofSeconds n)

/--
The delay that headers name. Milliseconds come first; where they name none that counts, the seconds
decide.
-/
def retryAfter (headers : Headers) : Except Fault (Option Duration) := do
  let ms ←
    match headers.text? "retry-after-ms" with
    | some text => delayOfMilliseconds text
    | none => pure none
  match ms with
  | some d => return some d
  | none => return (headers.text? "retry-after").bind delayOfSeconds

/-! ### The decision and the delay -/

/-- The statuses that are worth another request. -/
def isTransient (status : Nat) : Bool :=
  status == 408 || status == 409 || status == 429 || (500 ≤ status && status ≤ 599)

def shouldRetry (status : Nat) (headers : Headers) : Bool :=
  match (headers.text? "x-should-retry").map fun cs => String.ofList (Text.lowerAscii cs) with
  | some "true" => true
  | some "false" => false
  | _ => isTransient status

/-- The exponent of a retry's doubling: the number of the retry read as a signed number. -/
def doublings (step : UInt32) : Int :=
  if step.toNat < Nat.pow 2 31 then step.toNat else (step.toNat : Int) - Nat.pow 2 32

/-- The delay before a retry without a delay named by the server. -/
def RetryPolicy.backoff (policy : RetryPolicy) (step : UInt32) : Except Fault Duration :=
  Duration.ofBinary64 <|
    ((policy.initialDelay.toBinary64).mul (Number.Binary64.twoPow (doublings step))).least
      policy.maxDelay.toBinary64

def RetryPolicy.delay (policy : RetryPolicy) (step : UInt32) (headers : Headers) :
    Except Fault Duration := do
  match ← retryAfter headers with
  | some d => return d
  | none => policy.backoff step

end SaveLint.Llm
