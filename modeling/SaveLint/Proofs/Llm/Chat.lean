import Mathlib.Algebra.Group.Nat.Even
import Mathlib.Order.Bounds.Basic
import Mathlib.Order.Nat
import SaveLint.Llm.Client
import SaveLint.Proofs.Llm.Backoff

/-!
# The attempt that decides a chat

A chat makes attempts one after the other until an attempt is final (`Attempt.IsFinal`) or no retry
is left. That attempt alone decides the reply (`Answers`). Each of the attempts before it is
followed by one delay, which its headers may name (`Attempt.pause`).

`tryFrom_eq` follows the loop from any attempt on; which attempt is the last one is given there by
conditions on the server, so it is the least number with a property.
-/

namespace SaveLint.Llm

/-! ### Single attempts -/

/-- Whether an attempt ends a chat, however many retries are left. -/
def Attempt.IsFinal : Attempt → Prop
  | response status headers _ => isSuccess status = true ∨ shouldRetry status headers = false
  | unreachable => False
  | broken => True

theorem Attempt.isRetryable_iff {a : Attempt} : a.isRetryable = true ↔ ¬ a.IsFinal := by
  cases a with
  | response status headers body =>
      cases isSuccess status <;> simp [isRetryable, IsFinal, *]
  | unreachable => simp [isRetryable, IsFinal]
  | broken => simp [isRetryable, IsFinal]

/-- The delay after an attempt: the one that its headers name, or else the doubled one. -/
def Attempt.pause (number : Nat) : Attempt → Duration
  | response _ headers _ =>
    match retryAfter headers with
    | .ok (some named) => named
    | _ => doubled number
  | _ => doubled number

theorem Attempt.delay_default (retries : Nat) {number : Nat} (hnumber : number < 2 ^ 31)
    {a : Attempt} (hread : ∀ status headers body, a = .response status headers body →
      ∃ named, retryAfter headers = .ok named) :
    a.delay { maxRetries := retries } (UInt32.ofNat number) = .ok (a.pause number) := by
  have hbackoff := backoff_default retries hnumber
  cases a with
  | response status headers body =>
      obtain ⟨named, hnamed⟩ := hread status headers body rfl
      simp only [delay, pause, RetryPolicy.delay, hnamed]
      cases named with
      | some d => rfl
      | none => exact hbackoff
  | unreachable => exact hbackoff
  | broken => exact hbackoff

/-! ### The trace -/

namespace Step

variable {β : Type} (wait : Nat → Duration) (sent : β) (numbers : List Nat)

/-- Numbered requests with a pause after each of them. -/
def beforePauses : List (Step Nat) := numbers.flatMap fun i => [.request i, .pause (wait i)]

/-- Requests with a pause before each of them. -/
def afterPauses : List (Step β) := numbers.flatMap fun i => [.pause (wait i), .request sent]

theorem beforePauses_cons (i : Nat) : beforePauses wait (i :: numbers) =
    .request i :: .pause (wait i) :: beforePauses wait numbers := rfl

theorem afterPauses_cons (i : Nat) : afterPauses wait sent (i :: numbers) =
    .pause (wait i) :: .request sent :: afterPauses wait sent numbers := rfl

theorem sent?_afterPauses : (afterPauses wait sent numbers).filterMap sent? =
    List.replicate numbers.length sent := by
  induction numbers with
  | nil => rfl
  | cons i numbers ih =>
      rw [afterPauses_cons]
      exact congrArg (sent :: ·) ih

theorem pause?_afterPauses :
    (afterPauses wait sent numbers).filterMap pause? = numbers.map wait := by
  induction numbers with
  | nil => rfl
  | cons i numbers ih =>
      rw [afterPauses_cons]
      exact congrArg (wait i :: ·) ih

/-- A pause after every request but the last is a pause before every request but the first. -/
theorem map_pauses (last : Nat) :
    (beforePauses wait numbers ++ [request last]).map (Step.map fun _ => sent) =
      .request sent :: afterPauses wait sent numbers := by
  induction numbers with
  | nil => rfl
  | cons i numbers ih =>
      rw [beforePauses_cons, afterPauses_cons, ← ih]
      rfl

end Step

/-! ### The loop -/

/-- The attempts that are worth another one are all made, each with a pause after it. -/
theorem tryFrom_eq {policy : RetryPolicy} {server : Server} {wait : Nat → Duration}
    {first last left : Nat} (steps : List (Step Nat)) (hfirst : first ≤ last)
    (hleft : last ≤ first + left)
    (hlast : last = first + left ∨ (server last).isRetryable = false)
    (hretry : ∀ i, first ≤ i → i < last → (server i).isRetryable = true)
    (hdelay : ∀ i, first ≤ i → i < last →
      (server i).delay policy (UInt32.ofNat i) = .ok (wait i)) :
    tryFrom policy server first steps left =
      .ok ⟨last + 1, server last,
        steps ++ Step.beforePauses wait (List.range' first (last - first)) ++ [.request last]⟩ := by
  induction left generalizing first steps with
  | zero =>
      have heq : last = first := by omega
      subst heq
      simp [tryFrom, Step.beforePauses]
  | succ left ih =>
      rcases Nat.eq_or_lt_of_le hfirst with heq | hlt
      · -- The attempt is the last one though retries are left, so it is final.
        subst heq
        have hfinal : (server first).isRetryable = false := hlast.resolve_left (by omega)
        simp [tryFrom, Step.beforePauses, hfinal]
      · have hsplit : last - first = last - (first + 1) + 1 := by omega
        have hlast' : last = first + 1 + left ∨ (server last).isRetryable = false := by
          rcases hlast with heq | hfinal
          · exact Or.inl (by omega)
          · exact Or.inr hfinal
        have hrest := ih (steps ++ [.request first, .pause (wait first)]) hlt (by omega) hlast'
          (fun i hi => hretry i (by omega)) (fun i hi => hdelay i (by omega))
        simp only [tryFrom, hretry first (Nat.le_refl _) hlt, hdelay first (Nat.le_refl _) hlt,
          if_true, hrest, hsplit, List.range'_succ, Step.beforePauses_cons, List.append_assoc,
          List.cons_append, List.nil_append]

/-! ### The reply -/

/-- The replies that an attempt stands for when it is the last one, after so many attempts. -/
inductive Answers (url : Url) (attempts : Nat) : Attempt → Except ChatError Message → Prop where
  | message {status : Nat} {headers : Headers} {body : Body} {message : Message}
      (success : isSuccess status = true) (complete : body.isComplete = true)
      (decoded : responseMessage? body.chunks.flatten = some (some message)) :
      Answers url attempts (.response status headers body) (.ok message)
  | empty {status : Nat} {headers : Headers} {body : Body}
      (success : isSuccess status = true) (complete : body.isComplete = true)
      (decoded : responseMessage? body.chunks.flatten = some none) :
      Answers url attempts (.response status headers body) (.error .emptyResponse)
  /-- The body broke off, or it is no response. -/
  | undecodable {status : Nat} {headers : Headers} {body : Body}
      (success : isSuccess status = true)
      (undecoded : body.isComplete = false ∨ responseMessage? body.chunks.flatten = none) :
      Answers url attempts (.response status headers body) (.error (.undecodable url.text))
  | refused {status : Nat} {headers : Headers} {body : Body}
      (failure : isSuccess status = false) :
      Answers url attempts (.response status headers body)
        (.error (.refused status (errorMessage (cappedText [] body.chunks))))
  | unreachable :
      Answers url attempts .unreachable
        (.error (.connection attempts s!"error sending request for url ({url.text})"))
  | broken :
      Answers url attempts .broken
        (.error (.connection attempts s!"error sending request for url ({url.text})"))

theorem answers_replyOf (url : Url) (tried : Tried) :
    Answers url tried.attempts tried.outcome (replyOf url tried) := by
  obtain ⟨attempts, outcome, delays⟩ := tried
  cases outcome with
  | unreachable => exact .unreachable
  | broken => exact .broken
  | response status headers body =>
      simp only [replyOf]
      cases success : isSuccess status with
      | false => exact .refused success
      | true =>
          simp only [if_true]
          cases complete : body.isComplete with
          | false => exact .undecodable success (Or.inl complete)
          | true =>
              simp only [if_true]
              split
              · rename_i decoded
                exact .message success complete decoded
              · rename_i decoded
                exact .empty success complete decoded
              · rename_i undecoded
                exact .undecodable success (Or.inr undecoded)

theorem Answers.eq_of_message {url : Url} {attempts status : Nat} {headers : Headers} {body : Body}
    {message : Message} {reply : Except ChatError Message}
    (h : Answers url attempts (.response status headers body) reply)
    (hsuccess : isSuccess status = true) (hcomplete : body.isComplete = true)
    (hdecoded : responseMessage? body.chunks.flatten = some (some message)) :
    reply = .ok message := by
  cases h with
  | message _ _ decoded => cases decoded.symm.trans hdecoded; rfl
  | empty _ _ decoded => cases decoded.symm.trans hdecoded
  | undecodable _ undecoded =>
      rcases undecoded with incomplete | undecoded
      · cases incomplete.symm.trans hcomplete
      · cases undecoded.symm.trans hdecoded
  | refused failure => cases failure.symm.trans hsuccess

/-- A chat does what its attempts do, with one request for all of them; the last gives the reply. -/
theorem Client.chat_of_tried (url : Url) (model : String) (messages : List Message)
    {policy : RetryPolicy} {server : Server} {tried : Tried}
    (h : tryFrom policy server 0 [] policy.maxRetries = .ok tried) :
    ∃ chat, ({ endpoint := .server url, model := model, policy := policy } : Client).chat server
        messages = .ok chat ∧
      Answers url tried.attempts tried.outcome chat.reply ∧
      chat.trace =
        tried.steps.map (Step.map fun _ => (url.target, requestBody model messages)) := by
  refine ⟨⟨replyOf url tried, _⟩, ?_, answers_replyOf url tried, rfl⟩
  simp only [chat, h]
  rfl

/-! ### Main statement -/

/--
A chat with the default delays is decided by its last attempt: the first one that is final, or else
the last one for which a retry is left. All attempts up to that one send the same request; it alone
decides the reply; and each attempt before it is followed by one delay, the one that its headers
name or else the doubled one, and then by the request of the next attempt.
-/
theorem chat_decided_by_last_attempt (url : Url) (model : String) (server : Server)
    (messages : List Message) {retries : Nat} (hretries : retries < 2 ^ 31)
    (hread : ∀ i status headers body, server i = .response status headers body →
      ∃ named, retryAfter headers = .ok named) :
    ∃ last chat, IsLeast {i | i = retries ∨ (server i).IsFinal} last ∧
      ({ endpoint := .server url, model := model, policy := { maxRetries := retries } } :
        Client).chat server messages = .ok chat ∧
      chat.requests = List.replicate (last + 1) (url.target, requestBody model messages) ∧
      Answers url (last + 1) (server last) chat.reply ∧
      chat.delays = (List.range last).map (fun i => (server i).pause i) ∧
      chat.trace = .request (url.target, requestBody model messages) ::
        (List.range last).flatMap (fun i =>
          [.pause ((server i).pause i), .request (url.target, requestBody model messages)]) := by
  classical
  have hstop : ∃ i, i = retries ∨ (server i).IsFinal := ⟨retries, Or.inl rfl⟩
  obtain ⟨last, hmem, hleast⟩ : ∃ last, IsLeast {i | i = retries ∨ (server i).IsFinal} last :=
    ⟨Nat.find hstop, Nat.isLeast_find hstop⟩
  have hle : last ≤ retries := hleast (Or.inl rfl)
  -- No attempt before the least one is final, so each of them is retried after a delay.
  have hretry : ∀ i, i < last → (server i).isRetryable = true := by
    intro i hi
    rw [Attempt.isRetryable_iff]
    intro hfinal
    exact absurd (hleast (Or.inr hfinal)) (Nat.not_le_of_lt hi)
  have hlast : last = 0 + retries ∨ (server last).isRetryable = false := by
    rcases hmem with heq | hfinal
    · exact Or.inl (by omega)
    · right
      rw [← Bool.not_eq_true, Attempt.isRetryable_iff]
      exact not_not_intro hfinal
  have hdelay : ∀ i, i < last → (server i).delay { maxRetries := retries } (UInt32.ofNat i) =
      .ok ((server i).pause i) := by
    intro i hi
    exact Attempt.delay_default retries (by omega) (hread i)
  have htried : tryFrom { maxRetries := retries } server 0 [] retries = .ok ⟨last + 1, server last,
      [] ++ Step.beforePauses (fun i => (server i).pause i) (List.range' 0 (last - 0)) ++
        [.request last]⟩ :=
    tryFrom_eq [] (Nat.zero_le last) (by omega) hlast (fun i _ => hretry i) (fun i _ => hdelay i)
  rw [List.nil_append, Nat.sub_zero, ← List.range_eq_range'] at htried
  obtain ⟨chat, hchat, hanswers, htrace⟩ := Client.chat_of_tried url model messages htried
  rw [Step.map_pauses] at htrace
  refine ⟨last, chat, ⟨hmem, hleast⟩, hchat, ?_, hanswers, ?_, htrace⟩
  · have hsent := Step.sent?_afterPauses (fun i => (server i).pause i)
      (url.target, requestBody model messages) (List.range last)
    rw [List.length_range] at hsent
    rw [Chat.requests, htrace, List.replicate_succ, ← hsent]
    rfl
  · rw [Chat.delays, htrace, ← Step.pause?_afterPauses (fun i => (server i).pause i)
      (url.target, requestBody model messages)]
    rfl

/--
The server names one delay, the next one is doubled, and the third attempt is final: it brings the
message that is the reply.
-/
theorem chat_decided_by_third_attempt :
    ∃ (url : Url) (server : Server) (last : Nat) (chat : Chat) (request : String × String),
      5 < 2 ^ 31 ∧
      ({ endpoint := .server url, model := "m", policy := { maxRetries := 5 } } :
        Client).chat server [⟨.user, "hi"⟩] = .ok chat ∧
      last = 2 ∧ chat.requests.length = 3 ∧
      chat.delays = [.ofSeconds 3, .ofSeconds 1] ∧
      chat.trace = [.request request, .pause (.ofSeconds 3), .request request,
        .pause (.ofSeconds 1), .request request] ∧
      chat.reply = .ok ⟨.assistant, "x = 1"⟩ := by
  let url : Url := ⟨['h', 't', 't', 'p'], ['a'], none, ['/'], none, none⟩
  let body : Bytes :=
    bytesOf "\x7b\"message\":\x7b\"role\":\"assistant\",\"content\":\"x = 1\"\x7d\x7d"
  let server : Server := fun
    | 0 => .response 503 [⟨"Retry-After", [51]⟩] ⟨[], true⟩
    | 1 => .unreachable
    | _ => .response 200 [] ⟨[body], true⟩
  have hread : ∀ i status headers body, server i = .response status headers body →
      ∃ named, retryAfter headers = .ok named := by
    intro i status headers body h
    match i with
    | 0 => cases h; exact ⟨some ⟨3000000000⟩, rfl⟩
    | 1 => cases h
    | i + 2 => cases h; exact ⟨none, rfl⟩
  have hdecoded : responseMessage? [body].flatten = some (some ⟨.assistant, "x = 1"⟩) := by
    decide +kernel
  obtain ⟨last, chat, ⟨hmem, hleast⟩, hchat, hrequests, hanswers, hdelays, htrace⟩ :=
    chat_decided_by_last_attempt url "m" server [⟨.user, "hi"⟩] (show 5 < 2 ^ 31 by decide) hread
  have hle : last ≤ 2 := hleast (Or.inr (Or.inl rfl))
  have hlast : last = 2 := by
    match last, hmem, hle with
    | 0, hmem, _ => exact hmem.elim nofun fun h => absurd h (Attempt.isRetryable_iff.mp rfl)
    | 1, hmem, _ => exact hmem.elim nofun fun h => absurd h (Attempt.isRetryable_iff.mp rfl)
    | 2, _, _ => rfl
  subst hlast
  have hreply : chat.reply = .ok ⟨.assistant, "x = 1"⟩ := hanswers.eq_of_message rfl rfl hdecoded
  refine ⟨url, server, 2, chat, _, by decide, hchat, rfl, ?_, ?_, htrace, hreply⟩
  · rw [hrequests, List.length_replicate]
  · rw [hdelays]
    rfl

end SaveLint.Llm
