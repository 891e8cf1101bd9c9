import SaveLint.Proofs.Llm.Chat
import SaveLint.Proofs.Text.Lines

/-!
# What a failed request says

The body of a failed request is read in chunks of any size, and no further than needed to know that
it is longer than the limit. What is kept of it (`keptText`) depends on its bytes alone, not on how
they are cut into chunks nor on whether more of them should have come (`cappedText_eq`), and of the
bytes only on those up to the limit and one more (`keptText_take`). What the kept text says to the
user is given by rules (`Says`), exactly one of which applies (`says_iff`).
-/

namespace SaveLint.Llm

open SaveLint.Text

/-! ### The text that is kept -/

/-- The text of a body: all of it, or the text of its first bytes with a mark. -/
def keptText (body : Bytes) : String :=
  if body.length ≤ 32768 then lossyString body
  else lossyString (body.take 32768) ++ "...(truncated)"

/-- By induction on the chunks: what was read so far is within the limit, or reading has stopped. -/
theorem cappedText_eq {read : Bytes} (chunks : List Bytes) (h : read.length ≤ errorBodyLimit) :
    cappedText read chunks = keptText (read ++ chunks.flatten) := by
  have hlimit : errorBodyLimit = 32768 := rfl
  induction chunks generalizing read with
  | nil => rw [cappedText, List.flatten_nil, List.append_nil, keptText, if_pos (hlimit ▸ h)]
  | cons chunk chunks ih =>
    rw [cappedText, List.flatten_cons, ← List.append_assoc]
    split
    · rename_i hover
      have hwhole : ¬ (read ++ chunk ++ chunks.flatten).length ≤ 32768 := by
        rw [List.length_append]
        omega
      have hfront : (read ++ chunk ++ chunks.flatten).take 32768 = (read ++ chunk).take 32768 :=
        List.take_append_of_le_length (by omega)
      rw [keptText, if_neg hwhole, hfront, hlimit, cutMark]
    · rename_i hwithin
      exact ih (Nat.le_of_not_lt hwithin)

/-- One byte beyond the limit tells that a body is longer, and nothing behind it matters. -/
theorem keptText_take (body : Bytes) : keptText (body.take 32769) = keptText body := by
  unfold keptText
  rw [List.take_take, List.length_take]
  split
  · rename_i h
    rw [if_pos (by omega), List.take_of_length_le (by omega)]
  · rename_i h
    rw [if_neg (by omega)]
    rfl

/-! ### The message of a text -/

/-- The text is an object with a text under `error`. -/
def Reports (text message : String) : Prop :=
  ∃ members, Json.ofString? text = some (.object members) ∧
    members.lookup "error" = some (.string message)

theorem reportedError?_eq_some_iff {text message : String} :
    reportedError? text = some message ↔ Reports text message := by
  simp only [reportedError?, Option.bind_eq_some_iff, Reports]
  constructor
  · rintro ⟨value, ⟨document, hdocument, hvalue⟩, hmessage⟩
    cases document with
    | object members =>
      cases value with
      | string s =>
        obtain rfl := Option.some.inj hmessage
        exact ⟨members, hdocument, hvalue⟩
      | _ => cases hmessage
    | _ => cases hvalue
  · rintro ⟨members, hdocument, herror⟩
    exact ⟨.string message, ⟨.object members, hdocument, herror⟩, rfl⟩

theorem reportedError?_eq_none_iff {text : String} :
    reportedError? text = none ↔ ∀ message, ¬ Reports text message := by
  simp only [Option.eq_none_iff_forall_ne_some, ne_eq, reportedError?_eq_some_iff]

/-- What the text of a failed request says to the user. -/
inductive Says (text : String) : String → Prop where
  | reported {message : String} (reports : Reports text message) : Says text message
  | plain (unreported : ∀ message, ¬ Reports text message) (filled : ¬ AllBlank text.toList) :
      Says text (trimmed text)
  | nothing (unreported : ∀ message, ¬ Reports text message) (blank : AllBlank text.toList) :
      Says text "no response body"

theorem says_iff {text message : String} : Says text message ↔ errorMessage text = message := by
  constructor
  · intro h
    cases h with
    | reported reports => rw [errorMessage, reportedError?_eq_some_iff.mpr reports]
    | plain unreported filled =>
      rw [errorMessage, reportedError?_eq_none_iff.mpr unreported]
      exact if_neg (mt trimmed_eq_empty_iff.mp filled)
    | nothing unreported blank =>
      rw [errorMessage, reportedError?_eq_none_iff.mpr unreported]
      exact if_pos (trimmed_eq_empty_iff.mpr blank)
  · rintro rfl
    unfold errorMessage
    split
    · rename_i reported
      exact .reported (reportedError?_eq_some_iff.mp reported)
    · rename_i unreported
      have unreported := reportedError?_eq_none_iff.mp unreported
      dsimp only
      split
      · rename_i blank
        exact .nothing unreported (trimmed_eq_empty_iff.mp blank)
      · rename_i filled
        exact .plain unreported (mt trimmed_eq_empty_iff.mpr filled)

/-! ### Refused requests -/

theorem Answers.eq_of_failure {url : Url} {attempts status : Nat} {headers : Headers} {body : Body}
    {reply : Except ChatError Message}
    (h : Answers url attempts (.response status headers body) reply)
    (hfailure : isSuccess status = false) :
    reply = .error (.refused status (errorMessage (cappedText [] body.chunks))) := by
  cases h with
  | message success => cases success.symm.trans hfailure
  | empty success => cases success.symm.trans hfailure
  | undecodable success => cases success.symm.trans hfailure
  | refused => rfl

/--
The text of a failed request does not depend on how its body arrives. So a chat whose last response
has the status of a failure tells that status and what the text of the first bytes says, up to the
limit and one more, whatever the rest of the body is and however it ends.
-/
theorem refusal_decided_by_front (url : Url) (model : String) (messages : List Message)
    {policy : RetryPolicy} {server : Server} {tried : Tried} {status : Nat} {headers : Headers}
    {body : Body} (htried : tryFrom policy server 0 [] policy.maxRetries = .ok tried)
    (hlast : tried.outcome = .response status headers body) (hfailure : isSuccess status = false) :
    (∀ chunks : List Bytes, cappedText [] chunks =
      if chunks.flatten.length ≤ 32768 then lossyString chunks.flatten
      else lossyString (chunks.flatten.take 32768) ++ "...(truncated)") ∧
    ∃ chat message,
      ({ endpoint := .server url, model := model, policy := policy } : Client).chat server
        messages = .ok chat ∧
      chat.reply = .error (.refused status message) ∧
      ∀ said, Says (keptText (body.chunks.flatten.take 32769)) said ↔ said = message := by
  have hkept (chunks : List Bytes) : cappedText [] chunks = keptText chunks.flatten :=
    cappedText_eq chunks (Nat.zero_le _)
  obtain ⟨chat, hchat, hanswers, -⟩ := Client.chat_of_tried url model messages htried
  rw [hlast] at hanswers
  have hreply := hanswers.eq_of_failure hfailure
  refine ⟨hkept, chat, _, hchat, hreply, fun said => ?_⟩
  rw [keptText_take, ← hkept, says_iff, eq_comm]

/-- The body comes in two chunks, cut inside its message, and then it breaks off. -/
theorem refusal_decided_by_front_broken_off :
    ∃ (url : Url) (server : Server) (tried : Tried) (body : Body) (chat : Chat),
      tryFrom { maxRetries := 0 } server 0 [] 0 = .ok tried ∧
      tried.outcome = .response 500 [] body ∧ isSuccess 500 = false ∧
      body = ⟨[bytesOf "\x7b\"error\": \"no mo", bytesOf "del\"\x7d"], false⟩ ∧
      ({ endpoint := .server url, model := "m", policy := { maxRetries := 0 } } : Client).chat
        server [⟨.user, "hi"⟩] = .ok chat ∧
      chat.reply = .error (.refused 500 "no model") := by
  let url : Url := ⟨['h', 't', 't', 'p'], ['a'], none, ['/'], none, none⟩
  let body : Body := ⟨[bytesOf "\x7b\"error\": \"no mo", bytesOf "del\"\x7d"], false⟩
  let server : Server := fun _ => .response 500 [] body
  have htried : tryFrom { maxRetries := 0 } server 0 [] 0 =
    .ok ⟨1, server 0, [.request 0]⟩ := rfl
  obtain ⟨-, chat, message, hchat, hreply, hsaid⟩ :=
    refusal_decided_by_front url "m" [⟨.user, "hi"⟩] htried rfl (by decide)
  have hmessage : "no model" = message := by
    apply (hsaid _).mp
    apply says_iff.mpr
    decide +kernel
  exact ⟨url, server, _, body, chat, htried, rfl, by decide, rfl, hchat, hmessage ▸ hreply⟩

end SaveLint.Llm
