import SaveLint.Commands.Basic
import SaveLint.Proofs.Linter.Listed
import SaveLint.Proofs.Machine.Writing
import SaveLint.Proofs.Text.Lossy

/-!
# Saving and draining

A command saves files before it does anything else. A file starts a run if it is saved as some file
identity (`Workplace.savedAs?`), and it is skipped with a warning otherwise; nothing else happens
(`Workplace.Saves`). A drain after that is known by the labels of its steps (`Workplace.Drains`):
they start the runs of the saved files, and they end when no run is in flight any more. What it
shows goes through if everything can be listed (`Workplace.drain_of_listable`), and then every run
has had the updates that it should have (`Workplace.drain_completes`).
-/

namespace SaveLint

namespace Analyzer.Run

/-! ### Runs of files -/

/-- The run for a file that can be read ends as the analyzer has left it. -/
theorem ofFile_of_program {m : Machine} {c : Config} {p : Path} {text : String} {o : Outcome}
    (htext : m.readText p = .ok text) (hprogram : ∀ i, m.programs c.command i = .ok o)
    (number : Nat) (id : FileIdentity) : ofFile m c number id p = ofOutcome o := by
  rw [ofFile, htext]
  simp only [hprogram]

theorem ofOutcome_bytesOf (out : String) :
    ofOutcome { stdout := .ok (bytesOf out) } = ⟨[], .report out (some 0)⟩ := by
  show (⟨[], .report (lossyString (bytesOf out)) (some 0)⟩ : Run) = _
  rw [Text.lossyString_bytesOf]

end Analyzer.Run

variable {c : Analyzer.Config} {w w' : Workplace}

namespace Workplace

/-! ### Single files -/

/-- The file as which a path is saved; none if no run is started. -/
def savedAs? (w : Workplace) (p : Path) : Option FileIdentity :=
  if w.session.linter.accepts (w.session.documentOf p).language then w.machine.identity? p else none

/-- The line for a path that is skipped. -/
def skipLine (w : Workplace) (p : Path) : Printed :=
  ⟨.err, "warning: " ++ Text.trimmedEnd (w.session.skipMessage p) ++ "\n"⟩

/-- The paths among some that are skipped. -/
def skipped (w : Workplace) (files : List Path) : List Path :=
  files.filter fun p => (w.savedAs? p).isNone

/-- Whether a path starts a run depends on the configuration and on the machine. -/
theorem savedAs?_congr (hconfig : w'.session.config = w.session.config)
    (hmachine : w'.machine = w.machine) : w'.savedAs? = w.savedAs? := by
  funext p
  have haccepts (language : String) :
      w'.session.linter.accepts language = w.session.linter.accepts language := by
    show (w'.session.config.enabled && _ == w'.session.config.language) = _
    rw [hconfig]
    rfl
  rw [savedAs?, savedAs?, haccepts, hmachine, Session.documentOf, Session.documentOf, hconfig]

theorem skipLine_congr (hconfig : w'.session.config = w.session.config) :
    w'.skipLine = w.skipLine := by
  funext p
  rw [skipLine, skipLine, Session.skipMessage, Session.skipMessage, hconfig]

theorem length_skipped_add (w : Workplace) (files : List Path) :
    (w.skipped files).length + (files.filterMap w.savedAs?).length = files.length := by
  induction files with
  | nil => rfl
  | cons p files ih =>
      cases hfile : w.savedAs? p <;> simp [skipped, hfile] at ih ⊢ <;> omega

theorem save?_eq (w : Workplace) (p : Path) :
    w.session.pipeline.save? w.machine (w.session.documentOf p).language
        (w.session.documentOf p).path =
      (w.savedAs? p).map fun file => w.session.pipeline.start file
        (Analyzer.Run.ofFile w.machine w.session.config w.session.pipeline.count file p) := by
  show w.session.pipeline.save? w.machine (w.session.documentOf p).language p = _
  rw [savedAs?, Session.linter, Pipeline.save?]
  cases haccepts : w.session.pipeline.linter.accepts (w.session.documentOf p).language with
  | false =>
      rw [if_neg Bool.false_ne_true]
      rfl
  | true =>
      rw [if_pos rfl]
      cases w.machine.identity? p <;> rfl

/-- A path that starts no run is warned of, and nothing else happens. -/
theorem save_of_eq_none {p : Path} (h : w.savedAs? p = none) :
    (w.save p).2 = { w with terminal := w.terminal.showWarning (w.session.skipMessage p) } := by
  have hnone := w.save?_eq p
  rw [h, Option.map_none] at hnone
  simp only [save, Session.save, hnone]

/-- A path that starts a run changes the pipeline, and nothing else. -/
theorem save_of_eq_some {p : Path} {file : FileIdentity} (h : w.savedAs? p = some file) :
    (w.save p).2 = { w with session := { w.session with
      pipeline := w.session.pipeline.start file
        (Analyzer.Run.ofFile w.machine w.session.config w.session.pipeline.count file p) } } := by
  have hsome := w.save?_eq p
  rw [h, Option.map_some] at hsome
  simp only [save, Session.save, hsome]

/--
The only script of a machine starts a run, for which the analyzer reports what it writes, be its
command a name or a path.
-/
theorem save_ofScript (w : Workplace) (command text out : String)
    (hpipeline : w.session.pipeline = .ofConfig { command := command })
    (hmachine : w.machine =
      .ofScript (bytesOf text) fun _ _ => .ok { stdout := .ok (bytesOf out) }) :
    (w.save ⟨"/a.py"⟩).2 = { w with session := { w.session with
      pipeline := (Pipeline.ofConfig { command := command }).start
        ⟨⟨"/a.py"⟩, Machine.isAbsolute_script⟩ ⟨[], .report out (some 0)⟩ } } := by
  have hconfig : w.session.config = { command := command } := by
    rw [Session.config, Session.linter, hpipeline]
    rfl
  have hlanguage : ({ command := command } : Analyzer.Config).languageOf? ⟨"/a.py"⟩ =
      ({} : Analyzer.Config).languageOf? ⟨"/a.py"⟩ := rfl
  have haccepts (language : String) :
      (Pipeline.ofConfig { command := command }).linter.accepts language =
        (Pipeline.ofConfig {}).linter.accepts language := rfl
  have hfile : w.savedAs? ⟨"/a.py"⟩ = some ⟨⟨"/a.py"⟩, Machine.isAbsolute_script⟩ := by
    rw [savedAs?, Session.documentOf, hconfig, Session.linter, hpipeline, hlanguage, haccepts,
      if_pos (by decide), hmachine]
    exact Machine.identity?_ofScript _ _
  have htext : w.machine.readText ⟨"/a.py"⟩ = .ok text := by
    rw [hmachine]
    exact Machine.readText_ofScript _ _ (Text.stringOf?_bytesOf text)
  have hprogram (i : Invocation) :
      w.machine.programs command i = .ok { stdout := .ok (bytesOf out) } := by
    rw [hmachine]
    rfl
  rw [save_of_eq_some hfile, hconfig, Analyzer.Run.ofFile_of_program htext hprogram,
    Analyzer.Run.ofOutcome_bytesOf, hpipeline]

/-! ### All files -/

/-- What saving some files has done to a workplace. -/
structure Saves (w : Workplace) (files : List Path) (w' : Workplace) : Prop where
  machine : w'.machine = w.machine
  config : w'.session.config = w.session.config
  terminal : w'.terminal =
    { w.terminal with printed := w.terminal.printed ++ (w.skipped files).map w.skipLine }
  /-- The files that are not skipped have started runs, and nothing has been taken from them. -/
  pipeline : ∃ labels, w.session.pipeline.Steps labels w'.session.pipeline ∧
    (Pipeline.startedIn labels).map (·.1) = files.filterMap w.savedAs? ∧
    w'.session.pipeline.live.map (fun r => (r.file, r.left)) =
      w.session.pipeline.live.map (fun r => (r.file, r.left)) ++ Pipeline.startedIn labels ∧
    Pipeline.givenIn labels = []

theorem saves_save (w : Workplace) (p : Path) : w.Saves [p] (w.save p).2 := by
  cases hfile : w.savedAs? p with
  | none =>
      rw [save_of_eq_none hfile]
      refine ⟨rfl, rfl, ?_, [], .refl, ?_, (List.append_nil _).symm, rfl⟩
      · simp [skipped, hfile, Terminal.showWarning, Terminal.print, skipLine]
      · simp [hfile, Pipeline.startedIn]
  | some file =>
      obtain ⟨haccepts, hnamed⟩ := Option.ite_none_right_eq_some.mp hfile
      rw [save_of_eq_some hfile]
      refine ⟨rfl, rfl, ?_, _, .single (.start _ haccepts hnamed), ?_, ?_, rfl⟩
      · simp [skipped, hfile]
      · simp [hfile, Pipeline.startedIn, Pipeline.Label.start?]
      · simp [Pipeline.start, Pipeline.startedIn, Pipeline.Label.start?]

theorem Saves.trans {w'' : Workplace} {files more : List Path} (h : w.Saves files w')
    (h' : w'.Saves more w'') : w.Saves (files ++ more) w'' := by
  obtain ⟨labels, hsteps, hstarted, hlive, hgiven⟩ := h.pipeline
  obtain ⟨labels', hsteps', hstarted', hlive', hgiven'⟩ := h'.pipeline
  have hsaved : w'.savedAs? = w.savedAs? := savedAs?_congr h.config h.machine
  constructor
  case machine => exact h'.machine.trans h.machine
  case config => exact h'.config.trans h.config
  case terminal =>
    rw [h'.terminal, h.terminal, skipLine_congr h.config]
    simp [skipped, hsaved]
  case pipeline =>
    refine ⟨labels ++ labels', hsteps.trans hsteps', ?_, ?_, ?_⟩
    · rw [Pipeline.startedIn_append, List.map_append, hstarted, hstarted', hsaved,
        List.filterMap_append]
    · rw [hlive', hlive, Pipeline.startedIn_append, List.append_assoc]
    · rw [Pipeline.givenIn_append, hgiven, hgiven']
      rfl

theorem saves_saveAll (w : Workplace) (files : List Path) : w.Saves files (w.saveAll files) := by
  induction files generalizing w with
  | nil =>
      refine ⟨rfl, rfl, ?_, [], .refl, rfl, (List.append_nil _).symm, rfl⟩
      simp [saveAll, skipped]
  | cons p files ih => exact (w.saves_save p).trans (ih (w.save p).2)

/-- The runs that saving some files starts: those that are live after it and were not before. -/
def startedBy (w : Workplace) (files : List Path) : List (FileIdentity × Analyzer.Run) :=
  ((w.saveAll files).session.pipeline.live.drop w.session.pipeline.live.length).map
    fun r => (r.file, r.left)

theorem steps_saveAll (w : Workplace) (files : List Path) :
    ∃ labels, w.session.pipeline.Steps labels (w.saveAll files).session.pipeline ∧
      Pipeline.startedIn labels = w.startedBy files ∧ Pipeline.givenIn labels = [] := by
  obtain ⟨labels, hsteps, -, hlive, hgiven⟩ := (w.saves_saveAll files).pipeline
  refine ⟨labels, hsteps, ?_, hgiven⟩
  rw [startedBy, List.map_drop, hlive, List.drop_left' (List.length_map _)]

theorem startedBy_nil (w : Workplace) : w.startedBy [] = [] := by
  rw [startedBy, saveAll, List.foldl_nil, List.drop_length, List.map_nil]

theorem store_saveAll (w : Workplace) (files : List Path) :
    (w.saveAll files).session.linter.store = w.session.linter.store := by
  induction files generalizing w with
  | nil => rfl
  | cons p files ih =>
      refine (ih (w.save p).2).trans ?_
      cases hfile : w.savedAs? p with
      | none => rw [save_of_eq_none hfile]
      | some file =>
          rw [save_of_eq_some hfile]
          rfl

/-! ### Showing -/

/-- Calls for updates that can be listed go through, and they change the terminal only. -/
theorem showCalls_of_listable (w : Workplace) {us : List Update}
    (h : ∀ u ∈ us, u.isListable = true) :
    w.showCalls (us.map HostCall.ofUpdate) = .ok { w with terminal := w.terminal.after us } := by
  rw [showCalls, w.terminal.callAll_ofUpdate w.machine h]

theorem drain_of_listable {us : List Update} {s : Session} {schedule : List Pipeline.Turn}
    (hdrain : w.session.drain schedule = (us.map HostCall.ofUpdate, s))
    (h : ∀ u ∈ us, u.isListable = true) :
    w.drain schedule = .ok ⟨s, w.terminal.after us, w.machine⟩ := by
  rw [drain, hdrain]
  exact showCalls_of_listable { w with session := s } h

/-! ### Draining -/

/-- A workplace in which nothing has happened yet. -/
structure IsFresh (c : Analyzer.Config) (w : Workplace) : Prop where
  pipeline : w.session.pipeline = .ofConfig c
  printed : w.terminal.printed = []
  errorsShown : w.terminal.errorsShown = 0

/-- The runs that a check starts, and all that happens to them, up to the end of the drain. -/
structure Drains (c : Analyzer.Config) (w : Workplace) (files : List Path)
    (schedule : List Pipeline.Turn) (labels : List Pipeline.Label) (p : Pipeline) : Prop where
  steps : Pipeline.Steps (.ofConfig c) labels p
  inFlight : p.linter.inFlight = 0
  identities : (Pipeline.startedIn labels).map (·.1) = files.filterMap w.savedAs?
  started : Pipeline.startedIn labels =
    (w.saveAll files).session.pipeline.live.map fun r => (r.file, r.left)
  drain : (w.saveAll files).session.drain schedule =
    (Session.calls (Pipeline.givenIn labels), { (w.saveAll files).session with pipeline := p })

theorem IsFresh.drains (hw : w.IsFresh c) (files : List Path) (schedule : List Pipeline.Turn) :
    ∃ labels p, w.Drains c files schedule labels p := by
  obtain ⟨labels, hsteps, hfiles, hlive, hgiven⟩ := (w.saves_saveAll files).pipeline
  rw [hw.pipeline] at hsteps hlive
  obtain ⟨more, hmore, hgiven', hstarted'⟩ :=
    (w.saveAll files).session.pipeline.steps_of_drain schedule
  have hstarted : Pipeline.startedIn (labels ++ more) = Pipeline.startedIn labels := by
    rw [Pipeline.startedIn_append, hstarted', List.append_nil]
  refine ⟨labels ++ more, _, hsteps.trans hmore, ?_, ?_, ?_, ?_⟩
  · exact Pipeline.Reached.drain_inFlight ⟨labels, hsteps⟩ schedule
  · rw [hstarted, hfiles]
  · rw [hstarted, hlive]
    rfl
  · rw [Pipeline.givenIn_append, hgiven, List.nil_append, hgiven']
    rfl

theorem Drains.isListable_updates {files : List Path} {schedule : List Pipeline.Turn}
    {labels : List Pipeline.Label} {p : Pipeline} (h : w.Drains c files schedule labels p)
    (hcolumns : ∀ r ∈ (w.saveAll files).session.pipeline.live, r.left.ending.IsListable) :
    ∀ u ∈ (Pipeline.givenIn labels).map (·.update), u.isListable = true := by
  refine h.steps.isListable_updates ?_
  intro start hstart
  rw [h.started] at hstart
  obtain ⟨r, hr, rfl⟩ := List.mem_map.mp hstart
  exact hcolumns r hr

/-- A drain goes through if everything can be listed, and then nothing is left of any run. -/
theorem drain_completes {labels : List Pipeline.Label}
    (h : Pipeline.Steps (.ofConfig c) labels w.session.pipeline)
    (hruns : ∀ start ∈ Pipeline.startedIn labels, start.2.ending.IsListable)
    (schedule : List Pipeline.Turn) :
    ∃ ds w', ds = (w.session.pipeline.drain schedule).1 ∧ w.drain schedule = .ok w' ∧
      w'.terminal = w.terminal.after (ds.map (·.update)) ∧
      (∀ n, Pipeline.updatesOf n (Pipeline.givenIn labels ++ ds) =
        Pipeline.expected c (Pipeline.startedIn labels) n) ∧
      w'.session.linter.inFlight = 0 ∧ w'.session.pipeline.live = [] ∧
      w'.session.linter.queue = [] ∧ w'.session.linter.failures = [] := by
  obtain ⟨more, hmore, hgiven, hstarted⟩ := w.session.pipeline.steps_of_drain schedule
  have hall := h.trans hmore
  have hzero := Pipeline.Reached.drain_inFlight ⟨labels, h⟩ schedule
  have hallStarted : Pipeline.startedIn (labels ++ more) = Pipeline.startedIn labels := by
    rw [Pipeline.startedIn_append, hstarted, List.append_nil]
  have hlistable : ∀ u ∈ (Pipeline.givenIn more).map (·.update), u.isListable = true := by
    intro u hu
    refine hall.isListable_updates (hallStarted ▸ hruns) u ?_
    rw [Pipeline.givenIn_append, List.map_append]
    exact List.mem_append_right _ hu
  have hdrain : w.session.drain schedule =
      (((Pipeline.givenIn more).map (·.update)).map HostCall.ofUpdate,
        { w.session with pipeline := (w.session.pipeline.drain schedule).2 }) := by
    rw [← Session.calls_eq, hgiven]
    rfl
  refine ⟨_, _, hgiven, drain_of_listable hdrain hlistable, rfl, ?_, hzero, hall.finished hzero⟩
  intro n
  rw [← Pipeline.givenIn_append, hall.updatesOf_givenIn hzero, hallStarted]

end Workplace

end SaveLint
