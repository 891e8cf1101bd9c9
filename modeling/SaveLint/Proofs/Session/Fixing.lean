import SaveLint.Proofs.Llm.Delays
import SaveLint.Proofs.Machine.Writing
import SaveLint.Proofs.Session.Shown
import SaveLint.Proofs.Text.Lossy

/-!
# What a fix sends, and what it opens

A fix reads the document, takes the last report that was applied for the file it is now, and sends
both in one message. Its last call says how the chat has ended (`Session.ending`): the content of
the reply is opened as it is, or one error is shown. The session is not changed by it.

Whether the chat comes to an end is up to the headers of the responses, and they can always be read
(`Llm.Client.exists_chat`) unless they name too long a delay.
-/

namespace SaveLint

/-! ### Requests -/

/-- All requests of a chat have the same body, which is made of the model and the messages. -/
theorem Llm.Client.body_of_mem_requests {c : Client} {server : Server} {messages : List Message}
    {chat : Chat} (h : c.chat server messages = .ok chat) {request : String × String}
    (hrequest : request ∈ chat.requests) : request.2 = requestBody c.model messages := by
  obtain ⟨endpoint, model, policy⟩ := c
  cases endpoint with
  | unusable reason =>
      cases h
      cases hrequest
  | server url =>
      simp only [Client.chat] at h
      cases htried : tryFrom policy server 0 [] policy.maxRetries with
      | error fault =>
          rw [htried] at h
          cases h
      | ok tried =>
          rw [htried] at h
          cases h
          obtain ⟨_, hstep, hsent⟩ := List.mem_filterMap.mp hrequest
          obtain ⟨step, -, rfl⟩ := List.mem_map.mp hstep
          rw [Step.sent?_map] at hsent
          obtain ⟨_, -, rfl⟩ := Option.map_eq_some_iff.mp hsent
          rfl

/-- A chat whose first attempt brings a message sends one request, and the message is its reply. -/
theorem Llm.Client.exists_chat_of_message {c : Client} {url : Url} {server : Server} {status : Nat}
    {headers : Headers} {body : Body} {message : Message} (messages : List Message)
    (endpoint : c.endpoint = .server url) (first : server 0 = .response status headers body)
    (success : isSuccess status = true) (complete : body.isComplete = true)
    (decoded : responseMessage? body.chunks.flatten = some (some message)) :
    ∃ chat, c.chat server messages = .ok chat ∧ chat.reply = .ok message ∧
      chat.requests = [(url.target, requestBody c.model messages)] := by
  have htried : tryFrom c.policy server 0 [] c.policy.maxRetries =
      .ok ⟨1, server 0, [.request 0]⟩ := by
    unfold tryFrom
    split
    · rfl
    · rw [first, Attempt.isRetryable, success]
      rfl
  refine ⟨_, by rw [chat, endpoint]; simp only [htried]; rfl, ?_, rfl⟩
  simp only [replyOf, first, success, complete, decoded, if_true]

namespace Session

variable {c : Analyzer.Config} {client : Llm.Client} {sent more : List Event}
  {shown further : List HostCall} {s t : Session} {m : Machine} {server : Llm.Server} {d : Document}

/-! ### The session of a fix -/

theorem Step.client_eq (h : Step s more further t) : t.client = s.client := by
  cases h with
  | save m d =>
      unfold Session.save
      split <;> rfl
  | started saved => rfl
  | ran moved => rfl
  | pump => rfl
  | take => rfl
  | fix m server d => rfl

theorem Steps.client_eq (h : Steps s sent shown t) : t.client = s.client := by
  induction h with
  | refl => rfl
  | snoc _ step ih => exact step.client_eq.trans ih

/-- The report that a fix sends is the last one that was applied for the file of the document. -/
theorem Shows.reportOf (h : Shows c sent shown s) : ∃ applied, sent = applied ++ s.linter.queue ∧
    ∀ m d, s.reportOf m d =
      ((m.identity? d.path).bind fun file => (reportsFor file applied).getLast?).getD "" := by
  obtain ⟨applied, hsent, hstore, -⟩ := h.applied
  refine ⟨applied, hsent, ?_⟩
  intro m d
  have hreports : s.linter.store.lastReport = fun file => (reportsFor file applied).getLast? := by
    funext file
    rw [hstore, Store.lastReport_applyAll]
    exact Option.or_none
  rw [Session.reportOf, hreports]

/-! ### How a fix ends -/

/-- The call that tells that a fix is being made. -/
def fixProgress : HostCall := .progress "Generating fixed code using LLM..."

/-- The message of a fix. -/
def fixMessage (s : Session) (m : Machine) (d : Document) (code : String) : Llm.Message :=
  ⟨.user, Llm.FixPrompt.text code (s.reportOf m d)⟩

theorem fixMessage_eq (code : String) : s.fixMessage m d code =
    ⟨.user, Llm.FixPrompt.beforeCode ++ code ++ Llm.FixPrompt.beforeReport ++ s.reportOf m d ++
      Llm.FixPrompt.afterReport⟩ := by
  rw [fixMessage, Llm.FixPrompt.text_eq]

/-- The call that shows how the chat of a fix has ended. -/
def ending (language : String) : Except Llm.ChatError Llm.Message → HostCall
  | .ok reply => .untitled reply.content language
  | .error e => .error ("Error generating fixed code: " ++ e.message)

theorem fix_of_unread {reason : String} (h : d.text m = .error reason) :
    s.fix m server (some d) = { calls := [.error ("Failed to read file: " ++ reason)] } := by
  simp only [fix, h]

/-- A fix whose text can be read is decided by its chat. -/
theorem fix_of_chat {code : String} {chat : Llm.Chat} (hcode : d.text m = .ok code)
    (hchat : s.client.chat server [s.fixMessage m d code] = .ok chat) :
    s.fix m server (some d) =
      { calls := [fixProgress, ending d.language chat.reply]
        requests := chat.requests
        opened := chat.reply.toBool } := by
  obtain ⟨reply, trace⟩ := chat
  rw [fixMessage] at hchat
  simp only [fix, hcode, hchat]
  cases reply <;> rfl

/-- The content of the reply to a fix; none if the text cannot be read or the chat has no reply. -/
def replyTo? (s : Session) (m : Machine) (server : Llm.Server) (d : Document) : Option String := do
  let code ← (d.text m).toOption
  let chat ← (s.client.chat server [s.fixMessage m d code]).toOption
  let reply ← chat.reply.toOption
  return reply.content

theorem replyTo?_of_chat {code : String} {chat : Llm.Chat} (hcode : d.text m = .ok code)
    (hchat : s.client.chat server [s.fixMessage m d code] = .ok chat) :
    s.replyTo? m server d = chat.reply.toOption.map (·.content) := by
  rw [replyTo?, hcode]
  simp only [Except.toOption, bind, Option.bind, hchat]
  cases chat.reply <;> rfl

/-- A fix ends with its reply opened, or else with one error. -/
theorem fix_ends (hlimit : s.client.policy.LimitFits) (hread : server.IsReadable) (m : Machine)
    (d : Document) : (s.fix m server (some d)).fault = none ∧
      ((∃ content, s.replyTo? m server d = some content ∧
        (s.fix m server (some d)).calls = [fixProgress, .untitled content d.language] ∧
        (s.fix m server (some d)).opened = true) ∨
      (s.replyTo? m server d = none ∧
        (∃ why, (s.fix m server (some d)).calls = [.error why] ∨
          (s.fix m server (some d)).calls = [fixProgress, .error why]) ∧
        (s.fix m server (some d)).opened = false)) := by
  cases hcode : d.text m with
  | error reason =>
      have hreply : s.replyTo? m server d = none := by
        rw [replyTo?, hcode]
        rfl
      rw [fix_of_unread hcode]
      exact ⟨rfl, .inr ⟨hreply, ⟨_, .inl rfl⟩, rfl⟩⟩
  | ok code =>
      obtain ⟨chat, hchat⟩ := Llm.Client.exists_chat hlimit hread [s.fixMessage m d code]
      rw [fix_of_chat hcode hchat, replyTo?_of_chat hcode hchat]
      refine ⟨rfl, ?_⟩
      cases chat.reply with
      | ok reply => exact .inl ⟨reply.content, rfl, rfl, rfl⟩
      | error e => exact .inr ⟨rfl, ⟨_, .inr rfl⟩, rfl⟩

/-! ### Main statement -/

/--
After any steps of a session, a fix of a document whose text can be had makes one chat, with one
message: the template with the text in its first slot, and in the second one the last report that
was applied for the file of the document, or nothing if there is none. Every request carries that
message. If the chat has a reply, its content is opened once, as it is, with the language of the
document, and no error is shown; otherwise nothing is opened and one error is shown. The same holds
without a chat if the text cannot be had or there is no document. A fix leaves the session as it
is. The limit of the delays is a duration for all clients that are made from settings
(`Llm.limitFits_default`); only one near the end of all durations is not.
-/
theorem fix_sends_last_report (h : Steps (ofConfig c client) sent shown s)
    (hlimit : client.policy.LimitFits) (hread : server.IsReadable) (m : Machine) :
    ∃ applied, sent = applied ++ s.linter.queue ∧
      (∀ d code, d.text m = .ok code → ∃ report prompt chat,
        report =
          ((m.identity? d.path).bind fun file => (reportsFor file applied).getLast?).getD "" ∧
        prompt = Llm.FixPrompt.beforeCode ++ code ++ Llm.FixPrompt.beforeReport ++ report ++
          Llm.FixPrompt.afterReport ∧
        client.chat server [⟨.user, prompt⟩] = .ok chat ∧
        (s.fix m server (some d)).requests = chat.requests ∧
        (∀ request ∈ chat.requests,
          request.2 = Llm.requestBody client.model [⟨.user, prompt⟩]) ∧
        (s.fix m server (some d)).fault = none ∧
        (∀ reply, chat.reply = .ok reply →
          (s.fix m server (some d)).calls = [fixProgress, .untitled reply.content d.language] ∧
          (s.fix m server (some d)).opened = true) ∧
        ∀ e, chat.reply = .error e →
          (s.fix m server (some d)).calls =
            [fixProgress, .error ("Error generating fixed code: " ++ e.message)] ∧
          (s.fix m server (some d)).opened = false) ∧
      (∀ d reason, d.text m = .error reason →
        s.fix m server (some d) = { calls := [.error ("Failed to read file: " ++ reason)] }) ∧
      s.fix m server none = { calls := [.error "No active editor found."] } ∧
      ∀ d, Steps (ofConfig c client) sent (shown ++ (s.fix m server d).calls) s := by
  obtain ⟨applied, hsent, hreport⟩ := h.shows.reportOf
  refine ⟨applied, hsent, ?_, fun d reason => fix_of_unread, rfl, ?_⟩
  · intro d code hcode
    -- No step changes the client, so the limit of its delays still holds.
    have hclient : s.client = client := h.client_eq
    obtain ⟨chat, hchat⟩ := Llm.Client.exists_chat hlimit hread [s.fixMessage m d code]
    have hfix := fix_of_chat hcode (hclient ▸ hchat)
    rw [fixMessage_eq] at hchat
    refine ⟨s.reportOf m d, _, chat, hreport m d, rfl, hchat, ?_, ?_, ?_, ?_, ?_⟩
    · rw [hfix]
    · intro request hrequest
      exact Llm.Client.body_of_mem_requests hchat hrequest
    · rw [hfix]
    · intro reply hreply
      rw [hfix, hreply]
      exact ⟨rfl, rfl⟩
    · intro e hreply
      rw [hfix, hreply]
      exact ⟨rfl, rfl⟩
  · intro d
    have hfixed := h.snoc (.fix m server d)
    rwa [List.append_nil] at hfixed

/--
A script that holds a mark for the report was reported on with a mark for the code. Both marks stay
in the message of the one request that is sent, and the reply of the server is opened.
-/
theorem fix_sends_last_report_marked :
    ∃ (client : Llm.Client) (server : Llm.Server) (m : Machine) (sent : List Event)
      (shown : List HostCall) (s : Session) (d : Document),
      Steps (ofConfig {} client) sent shown s ∧ client.policy.LimitFits ∧ server.IsReadable ∧
      d.text m = .ok "\x7b\x7breport\x7d\x7d" ∧
      sent.map (·.news) = [.report ":1:0: E0001: \x7b\x7bcode\x7d\x7d" none] ∧
      (s.fix m server (some d)).requests = [("/", Llm.requestBody "m"
        [⟨.user, Llm.FixPrompt.beforeCode ++ "\x7b\x7breport\x7d\x7d" ++
          Llm.FixPrompt.beforeReport ++ ":1:0: E0001: \x7b\x7bcode\x7d\x7d" ++
          Llm.FixPrompt.afterReport⟩])] ∧
      (s.fix m server (some d)).calls = [fixProgress, .untitled "x = 1" "python"] ∧
      (s.fix m server (some d)).opened = true := by
  let client : Llm.Client :=
    ⟨.server ⟨['h', 't', 't', 'p'], ['a'], none, ['/'], none, none⟩, "m", { maxRetries := 0 }⟩
  let answer : Llm.Body := ⟨[bytesOf "\x7b\"message\":[\"assistant\",\"x = 1\"]\x7d"], true⟩
  let server : Llm.Server := fun _ => .response 200 [] answer
  let m : Machine := .ofScript (bytesOf "\x7b\x7breport\x7d\x7d") fun _ _ => .error .unknown
  let file : FileIdentity := ⟨⟨"/a.py"⟩, Machine.isAbsolute_script⟩
  let d : Document := .ofFile ⟨"/a.py"⟩ "python"
  let e : Event := ⟨0, file, .report ":1:0: E0001: \x7b\x7bcode\x7d\x7d" none⟩
  have hread : server.IsReadable := by
    rintro i status headers body ⟨⟩
    exact ⟨none, rfl⟩
  have hlimit : client.policy.LimitFits := Llm.limitFits_default 0
  have htext : d.text m = .ok "\x7b\x7breport\x7d\x7d" :=
    Document.text_ofFile (Machine.readText_ofScript _ _ (Text.stringOf?_bytesOf _))
  have named : m.identity? ⟨"/a.py"⟩ = some file := Machine.identity?_ofScript _ _
  have accepted : (Pipeline.ofConfig {}).linter.accepts "python" = true := by decide
  have hdecoded : Llm.responseMessage? answer.chunks.flatten =
      some (some ⟨.assistant, "x = 1"⟩) := by decide +kernel
  obtain ⟨shown, s, hsteps, hqueue⟩ : ∃ shown s,
      Steps (ofConfig {} client) [e] shown s ∧ s.linter.queue = [] := by
    have started : Steps (ofConfig {} client) [] [] _ :=
      Steps.single (.started (.start ⟨[], .report ":1:0: E0001: \x7b\x7bcode\x7d\x7d" none⟩
        accepted named))
    have ran := started.snoc (.ran (@Pipeline.Moves.last _ [] [] _ _ rfl rfl rfl (by decide)))
    exact ⟨_, _, ran.snoc .take, rfl⟩
  obtain ⟨applied, hsent, hfix, -⟩ := fix_sends_last_report hsteps hlimit hread m
  rw [hqueue, List.append_nil] at hsent
  subst hsent
  obtain ⟨report, prompt, chat, hreport, hprompt, hchat, hrequests, -, -, hreplied, -⟩ :=
    hfix d _ htext
  have hlast : report = ":1:0: E0001: \x7b\x7bcode\x7d\x7d" := by
    have hidentity : m.identity? d.path = some file := named
    rw [hreport, hidentity]
    simp [reportsFor, e, Event.report?, FileIdentity.same, Path.same]
  rw [hlast] at hprompt
  have hendpoint : client.endpoint = .server
    ⟨['h', 't', 't', 'p'], ['a'], none, ['/'], none, none⟩ := rfl
  have hfirst : server 0 = .response 200 [] answer := rfl
  obtain ⟨chat', hchat', hreply, hrequest⟩ := Llm.Client.exists_chat_of_message
    [⟨.user, prompt⟩] hendpoint hfirst rfl rfl hdecoded
  obtain rfl : chat = chat' := Except.ok.inj (hchat.symm.trans hchat')
  refine ⟨client, server, m, [e], shown, s, d, hsteps, hlimit, hread, htext, rfl, ?_,
    (hreplied _ hreply).1, (hreplied _ hreply).2⟩
  rw [hrequests, hrequest, hprompt]
  rfl

end Session

end SaveLint
