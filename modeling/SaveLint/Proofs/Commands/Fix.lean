import SaveLint.CommandLine.Run
import SaveLint.Proofs.Commands.Saving
import SaveLint.Proofs.Session.Fixing

/-!
# The standard output of a fix

A fix shows its analysis on a quiet terminal, all of which goes to the standard error, and then the
calls for the fix itself on another one. Of these calls only the one that opens an untitled document
can print on the standard output, and only if no file was named for it. So the standard output is
the reply or nothing, whatever the analyzer and the server do, and the exit status tells whether the
reply has reached its destination. There are four ways in which that can end (`FixEnds`).
-/

namespace SaveLint

/-! ### What is printed on the standard output -/

namespace Terminal

variable (t : Terminal) (m : Machine)

theorem out_print_err (text : String) : (t.print .err text).out = t.out := by
  simp [out, on, print]

theorem out_print_out (text : String) : (t.print .out text).out = t.out ++ text := by
  simp [out, on, print, concat, String.join_append]

theorem out_showError (message : String) : (t.showError message).out = t.out :=
  t.out_print_err _

theorem callAll_singleton (call : HostCall) : t.callAll m [call] = t.call m call := by
  rw [callAll]
  cases t.call m call with
  | mk terminal machine fault => cases fault <;> rfl

/-- An error shown, be it right away or after the progress, leaves the standard output as it is. -/
theorem callAll_error {calls : List HostCall} {why : String}
    (h : calls = [.error why] ∨ calls = [Session.fixProgress, .error why]) :
    (t.callAll m calls).terminal.out = t.out ∧ (t.callAll m calls).machine = m ∧
      (t.callAll m calls).fault = none := by
  rcases h with rfl | rfl
  · exact ⟨t.out_showError why, rfl, rfl⟩
  · refine ⟨?_, rfl, rfl⟩
    exact ((t.print .err _).out_showError why).trans (t.out_print_err _)

/-- An untitled document is opened after the progress as it is without. -/
theorem callAll_untitled (content language : String) :
    t.callAll m [Session.fixProgress, .untitled content language] =
      (t.print .err "Generating fixed code using LLM...\n").openUntitled m content :=
  callAll_singleton _ m (.untitled content language)

/-- An untitled document is printed, or written to the file that was named for it. -/
theorem openUntitled_cases (content : String) : (t.openUntitled m content).fault = none ∧
    ((t.untitled = none ∧ (t.openUntitled m content).terminal.out = t.out ++ withFeed content ∧
        (t.openUntitled m content).terminal.opened = true ∧
        (t.openUntitled m content).machine = m) ∨
      (∃ path, t.untitled = some path ∧ (t.openUntitled m content).terminal.out = t.out ∧
        ((m.write path (bytesOf content) = .ok (t.openUntitled m content).machine ∧
            (t.openUntitled m content).terminal.opened = true) ∨
          ((∃ e, m.write path (bytesOf content) = .error e) ∧
            (t.openUntitled m content).terminal.opened = t.opened ∧
            (t.openUntitled m content).machine = m)))) := by
  unfold openUntitled
  cases hpath : t.untitled with
  | none => exact ⟨rfl, .inl ⟨rfl, t.out_print_out _, rfl, rfl⟩⟩
  | some path =>
      dsimp only
      cases hwrite : m.write path (bytesOf content) with
      | ok m' => exact ⟨rfl, .inr ⟨path, rfl, t.out_print_err _, .inl ⟨hwrite, rfl⟩⟩⟩
      | error e =>
          exact ⟨rfl, .inr ⟨path, rfl, t.out_showError _, .inr ⟨⟨e, hwrite⟩, rfl, rfl⟩⟩⟩

end Terminal

/-! ### How a fix ends -/

/--
How a fix can end, given the file for untitled documents, the machine and the reply: with some text
on the standard output, an exit status, and the machine as it is afterwards.
-/
inductive FixEnds (untitled : Option Path) (m : Machine) :
    Option String → String → Nat → Machine → Prop where
  | unanswered : FixEnds untitled m none "" exitFailure m
  | printed {content : String} (unnamed : untitled = none) :
      FixEnds untitled m (some content) (Terminal.withFeed content) exitSuccess m
  | written {content : String} {path : Path} {m' : Machine} (named : untitled = some path)
      (write : m.write path (bytesOf content) = .ok m') :
      FixEnds untitled m (some content) "" exitSuccess m'
  | unwritten {content : String} {path : Path} {e : OsError} (named : untitled = some path)
      (write : m.write path (bytesOf content) = .error e) :
      FixEnds untitled m (some content) "" exitFailure m

/-! ### The analysis -/

namespace Workplace

variable {c : Analyzer.Config} {w : Workplace}

theorem session_save (w : Workplace) (p : Path) :
    (w.save p).2.session = (w.session.save w.machine (w.session.documentOf p)).2 := by
  unfold save
  split <;> rename_i h <;> rw [h]

/-- The analysis of one file goes through if its report has no finding in the last column. -/
theorem IsFresh.analyzed (hw : w.IsFresh c) (file : Path) (schedule : List Pipeline.Turn)
    (hcolumns : ∀ r ∈ (w.save file).2.session.pipeline.live, r.left.ending.IsListable) :
    ∃ terminal, (w.save file).2.drain schedule =
      .ok ⟨((w.save file).2.session.drain schedule).2, terminal, w.machine⟩ := by
  obtain ⟨labels, p, h⟩ := hw.drains [file] schedule
  have hsaved : w.saveAll [file] = (w.save file).2 := rfl
  -- Nothing that the drain shows is in the last column, so no call stops the terminal.
  have hdrain := h.drain
  rw [hsaved, Session.calls_eq] at hdrain
  have hdrained := drain_of_listable hdrain (h.isListable_updates hcolumns)
  rw [(w.saves_save file).machine] at hdrained
  rw [hdrain]
  exact ⟨_, hdrained⟩

end Workplace

/-! ### The command -/

namespace Commands

variable {w : Workplace} {server : Llm.Server}

/-- The calls of a fix lead to one of the four ends, if nothing was printed or opened before. -/
theorem askForFix_ends (hprinted : w.terminal.printed = []) (hopened : w.terminal.opened = false)
    (hlimit : w.session.client.policy.LimitFits) (hread : server.IsReadable) (quiet : Terminal)
    (file : Path) : (askForFix w quiet server file).fault = none ∧
      FixEnds w.terminal.untitled w.machine
        (w.session.replyTo? w.machine server (w.session.documentOf file))
        (askForFix w quiet server file).terminal.out (askForFix w quiet server file).exit
        (askForFix w quiet server file).machine := by
  have hout : w.terminal.out = "" := by
    rw [Terminal.out, Terminal.on, hprinted]
    rfl
  unfold askForFix
  dsimp only
  obtain ⟨hfault, ⟨content, hreply, hcalls, hfixed⟩ | ⟨hreply, ⟨why, hcalls⟩, hfixed⟩⟩ :=
    w.session.fix_ends hlimit hread w.machine (w.session.documentOf file)
  · -- The reply is opened on the terminal as it is after the progress.
    rw [hfault, hreply, hcalls, hfixed, Terminal.callAll_untitled, Bool.true_and]
    obtain ⟨hfault', hends⟩ := (w.terminal.print .err
      "Generating fixed code using LLM...\n").openUntitled_cases w.machine content
    rw [Terminal.out_print_err, hout, String.empty_append] at hends
    refine ⟨by rw [hfault']; rfl, ?_⟩
    rcases hends with ⟨hpath, hout', hopened', hmachine⟩ |
      ⟨path, hpath, hout', ⟨hwrite, hopened'⟩ | ⟨⟨e, hwrite⟩, hopened', hmachine⟩⟩
    · rw [hout', hopened', hmachine]
      exact .printed hpath
    · rw [hout', hopened']
      exact .written hpath hwrite
    · have hclosed := hopened'.trans hopened
      rw [hout', hclosed, hmachine]
      exact .unwritten hpath hwrite
  · -- Without a reply all calls are for the standard error.
    rw [hfault, hreply, hfixed]
    obtain ⟨hout', hmachine, hfault'⟩ := w.terminal.callAll_error w.machine hcalls
    rw [hout', hmachine, hfault', hout]
    exact ⟨rfl, .unanswered⟩

/-- A fix on fresh terminals asks for the fix after the analysis. -/
theorem fix_eq_askForFix {c : Analyzer.Config} {quiet : Terminal}
    (hquiet : ({ w with terminal := quiet } : Workplace).IsFresh c) (server : Llm.Server)
    (file : Path) (schedule : List Pipeline.Turn) {saved : Session}
    (hsaved : (w.session.save w.machine (w.session.documentOf file)).2 = saved)
    (hcolumns : ∀ r ∈ saved.pipeline.live, r.left.ending.IsListable) :
    ∃ terminal, fix w quiet server file schedule =
      askForFix { w with session := (saved.drain schedule).2 } terminal server file := by
  have hsession : ({ w with terminal := quiet }.save file).2.session = saved :=
    (Workplace.session_save _ file).trans hsaved
  obtain ⟨terminal, hdrain⟩ := hquiet.analyzed file schedule (hsession ▸ hcolumns)
  refine ⟨terminal, ?_⟩
  rw [fix, hdrain, hsession]

end Commands

/-! ### The program -/

namespace CommandLine.Setting

variable (s : Setting) (settings : Settings) (file : Path)

/-- The session of a fix, once its file was saved. -/
def saved : Session :=
  ((Session.ofSettings settings s.environment).save s.machine
    ((Session.ofSettings settings s.environment).documentOf file)).2

/-- The session of a fix, once its file was analyzed. -/
def analyzed : Session := ((s.saved settings file).drain s.schedule).2

/-- The reply to a fix, which is asked for after the analysis. -/
def reply? : Option String :=
  (s.analyzed settings file).replyTo? s.machine s.server
    ((s.analyzed settings file).documentOf file)

theorem client_analyzed :
    (s.analyzed settings file).client = (Session.ofSettings settings s.environment).client := by
  have hdrained : (s.analyzed settings file).client = (s.saved settings file).client := rfl
  rw [hdrained]
  unfold saved Session.save
  split <;> rfl

/-- The message of the first response is the reply, if the file can be read and the server named. -/
theorem reply?_of_message {url : Llm.Url} {status : Nat} {headers : Llm.Headers} {body : Llm.Body}
    {message : Llm.Message} {code : String} (hcode : s.machine.readText file = .ok code)
    (endpoint : (Session.ofSettings settings s.environment).client.endpoint = .server url)
    (first : s.server 0 = .response status headers body) (success : Llm.isSuccess status = true)
    (complete : body.isComplete = true)
    (decoded : Llm.responseMessage? body.chunks.flatten = some (some message)) :
    s.reply? settings file = some message.content := by
  rw [← s.client_analyzed settings file] at endpoint
  obtain ⟨chat, hchat, hmessage, -⟩ := Llm.Client.exists_chat_of_message
    [(s.analyzed settings file).fixMessage s.machine
      ((s.analyzed settings file).documentOf file) code] endpoint first success complete decoded
  have hreply := Session.replyTo?_of_chat
    (d := (s.analyzed settings file).documentOf file) (Document.text_ofFile hcode) hchat
  rw [hmessage] at hreply
  exact hreply

theorem limitFits_analyzed : (s.analyzed settings file).client.policy.LimitFits := by
  rw [client_analyzed]
  exact Llm.limitFits_default _

theorem runAction_fix {output : Option Path} {done : Commands.FixEnd}
    (h : Commands.fix (s.workplace settings output) { baseDirectory := some s.machine.directory }
      s.server file s.schedule = done) (hfault : done.fault = none) :
    (s.runAction settings (.fix file output)).out = done.terminal.out ∧
      (s.runAction settings (.fix file output)).status = done.exit ∧
      (s.runAction settings (.fix file output)).machine = done.machine := by
  rw [runAction, h, hfault]
  exact ⟨rfl, rfl, rfl⟩

/-- The program comes to one of the four ends of a fix. -/
theorem runAction_fix_ends (output : Option Path) (hread : s.server.IsReadable)
    (hcolumns : ∀ r ∈ (s.saved settings file).pipeline.live, r.left.ending.IsListable) :
    FixEnds output s.machine (s.reply? settings file)
      (s.runAction settings (.fix file output)).out (s.runAction settings (.fix file output)).status
      (s.runAction settings (.fix file output)).machine := by
  have hsaved : ((s.workplace settings output).session.save (s.workplace settings output).machine
      ((s.workplace settings output).session.documentOf file)).2 = s.saved settings file := rfl
  have hquiet : ({ s.workplace settings output with
      terminal := { baseDirectory := some s.machine.directory } } : Workplace).IsFresh
        (settings.analyzer s.environment) := ⟨rfl, rfl, rfl⟩
  obtain ⟨terminal, hfix⟩ :=
    Commands.fix_eq_askForFix hquiet s.server file s.schedule hsaved hcolumns
  obtain ⟨hfault, hends⟩ := Commands.askForFix_ends
    (w := { s.workplace settings output with session := s.analyzed settings file })
    rfl rfl (s.limitFits_analyzed settings file) hread terminal file
  obtain ⟨hout, hstatus, hmachine⟩ := s.runAction_fix settings file hfix hfault
  rw [hout, hstatus, hmachine]
  exact hends

/-! ### Main statement -/

/--
The standard output of a fix is its reply, with a line feed at the end, or nothing: nothing if a
file was named, which then holds the reply exactly, and nothing without a reply. The exit status is
0 if the reply was printed or written and 2 otherwise. This is so for all files, settings and
servers, whatever becomes of the analysis, as long as the headers of the responses can be read and
the report of the analysis has no finding in the last column.
-/
theorem out_of_fix (output : Option Path) (hread : s.server.IsReadable)
    (hcolumns : ∀ r ∈ (s.saved settings file).pipeline.live, r.left.ending.IsListable) :
    ∃ done, s.runAction settings (.fix file output) = done ∧
      (∀ content, s.reply? settings file = some content →
        (output = none → done.out =
          if content.toList.getLast? = some '\n' then content else content ++ "\n") ∧
        ∀ path m, output = some path → s.machine.write path (bytesOf content) = .ok m →
          done.machine = m ∧ m.files.read (m.resolved path) = .ok (bytesOf content)) ∧
      (s.reply? settings file = none → done.out = "") ∧
      (∀ path, output = some path → done.out = "") ∧
      (done.status = 0 ↔ ∃ content, s.reply? settings file = some content ∧
        ∀ path, output = some path → ∃ m, s.machine.write path (bytesOf content) = .ok m) ∧
      (done.status = 0 ∨ done.status = 2) := by
  have hends := s.runAction_fix_ends settings file output hread hcolumns
  refine ⟨_, rfl, ?_⟩
  generalize s.runAction settings (.fix file output) = done at hends ⊢
  generalize s.reply? settings file = reply at hends ⊢
  obtain ⟨status, out, err, machine, requests⟩ := done
  dsimp only at hends ⊢
  cases hends with
  | unanswered =>
      exact ⟨nofun, fun _ => rfl, fun _ _ => rfl, iff_of_false nofun nofun, .inr rfl⟩
  | @printed content unnamed =>
      refine ⟨?_, nofun, ?_, iff_of_true rfl ⟨content, rfl, ?_⟩, .inl rfl⟩
      · rintro _ ⟨⟩
        refine ⟨fun _ => rfl, ?_⟩
        intro path m named
        cases unnamed.symm.trans named
      · intro path named
        cases unnamed.symm.trans named
      · intro path named
        cases unnamed.symm.trans named
  | @written content path _ named write =>
      refine ⟨?_, nofun, fun _ _ => rfl, iff_of_true rfl ⟨content, rfl, ?_⟩, .inl rfl⟩
      · rintro _ ⟨⟩
        refine ⟨fun unnamed => absurd (named.symm.trans unnamed) nofun, ?_⟩
        intro path' m named' write'
        cases named.symm.trans named'
        cases write.symm.trans write'
        exact ⟨rfl, Machine.read_of_write write⟩
      · intro path' named'
        cases named.symm.trans named'
        exact ⟨machine, write⟩
  | @unwritten content path e named write =>
      refine ⟨?_, nofun, fun _ _ => rfl, iff_of_false nofun ?_, .inr rfl⟩
      · rintro _ ⟨⟩
        refine ⟨fun unnamed => absurd (named.symm.trans unnamed) nofun, ?_⟩
        intro path' m named' write'
        cases named.symm.trans named'
        cases write.symm.trans write'
      · rintro ⟨_, ⟨⟩, hwrites⟩
        obtain ⟨m, write'⟩ := hwrites path named
        cases write.symm.trans write'

/--
A program whose command is a path analyzes a script and lists a finding, and the server replies with
one line. The line is printed, or it takes the place of the script.
-/
theorem out_of_fix_one_line : ∃ (s : Setting) (settings : Settings),
    settings = { analyzer? := some { command := "/opt/venv/bin/python" } } ∧
    s.server.IsReadable ∧
    (s.saved settings ⟨"/a.py"⟩).pipeline.live.map (·.left) =
      [⟨[], .report ":1:0: E0001: boom" (some 0)⟩] ∧
    s.reply? settings ⟨"/a.py"⟩ = some "x = 1" ∧
    (s.runAction settings (.fix ⟨"/a.py"⟩ none)).out = "x = 1\n" ∧
    (s.runAction settings (.fix ⟨"/a.py"⟩ none)).status = 0 ∧
    (s.runAction settings (.fix ⟨"/a.py"⟩ (some ⟨"/a.py"⟩))).out = "" ∧
    (s.runAction settings (.fix ⟨"/a.py"⟩ (some ⟨"/a.py"⟩))).status = 0 := by
  let settings : Settings := { analyzer? := some { command := "/opt/venv/bin/python" } }
  let m : Machine := .ofScript (bytesOf "x=1") fun _ _ =>
    .ok { stdout := .ok (bytesOf ":1:0: E0001: boom") }
  let s : Setting :=
    { machine := m
      server := fun _ =>
        .response 200 [] ⟨[bytesOf "\x7b\"message\":[\"assistant\",\"x = 1\"]\x7d"], true⟩ }
  have hread : s.server.IsReadable := by
    rintro i status headers body ⟨⟩
    exact ⟨none, rfl⟩
  -- The other settings are the defaults, for the analyzer and for the language model.
  let client : Llm.Client := (Session.ofSettings settings s.environment).client
  have hanalyzer : settings.analyzer s.environment = { command := "/opt/venv/bin/python" } := by
    decide +kernel
  have hendpoint : client.endpoint = .server ⟨['h', 't', 't', 'p'], "127.0.0.1".toList, some 11434,
      "/api/chat".toList, none, none⟩ := by decide +kernel
  have htext : m.readText ⟨"/a.py"⟩ = .ok "x=1" :=
    Machine.readText_ofScript _ _ (Text.stringOf?_bytesOf _)
  have hlive : (s.saved settings ⟨"/a.py"⟩).pipeline.live.map (·.left) =
      [⟨[], .report ":1:0: E0001: boom" (some 0)⟩] := by
    let w : Workplace := ⟨.ofConfig { command := "/opt/venv/bin/python" } client, {}, m⟩
    have hsaved : s.saved settings ⟨"/a.py"⟩ = (w.save ⟨"/a.py"⟩).2.session := by
      rw [w.session_save, saved, Session.ofSettings, hanalyzer]
      rfl
    rw [hsaved, w.save_ofScript "/opt/venv/bin/python" "x=1" ":1:0: E0001: boom" rfl rfl]
    rfl
  have hcolumns : ∀ r ∈ (s.saved settings ⟨"/a.py"⟩).pipeline.live, r.left.ending.IsListable := by
    intro r hr
    have hleft := List.mem_map_of_mem (f := (·.left)) hr
    rw [hlive, List.mem_singleton] at hleft
    rw [hleft]
    exact Analyzer.Ending.isListable_report rfl
  have hdecoded : Llm.responseMessage?
      [bytesOf "\x7b\"message\":[\"assistant\",\"x = 1\"]\x7d"].flatten =
        some (some ⟨.assistant, "x = 1"⟩) := by decide +kernel
  have hreply : s.reply? settings ⟨"/a.py"⟩ = some "x = 1" :=
    s.reply?_of_message settings ⟨"/a.py"⟩ htext hendpoint rfl rfl rfl hdecoded
  obtain ⟨done, hdone, hprinted, -, -, hstatus, -⟩ :=
    s.out_of_fix settings ⟨"/a.py"⟩ none hread hcolumns
  obtain ⟨done', hdone', -, -, hempty, hstatus', -⟩ :=
    s.out_of_fix settings ⟨"/a.py"⟩ (some ⟨"/a.py"⟩) hread hcolumns
  refine ⟨s, settings, rfl, hread, hlive, hreply, ?_⟩
  rw [hdone, hdone']
  have hout := (hprinted _ hreply).1 rfl
  rw [if_neg (by decide)] at hout
  refine ⟨hout, ?_, hempty _ rfl, ?_⟩
  · refine hstatus.mpr ⟨_, hreply, ?_⟩
    rintro _ ⟨⟩
  · refine hstatus'.mpr ⟨_, hreply, ?_⟩
    rintro _ ⟨⟩
    exact Machine.write_ofScript _ _ _

end CommandLine.Setting

end SaveLint
