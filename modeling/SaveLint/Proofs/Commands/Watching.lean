import SaveLint.Proofs.Commands.Ticks

/-!
# Watching files

While files are watched, runs go on, files are changed by others, and there are ticks. What happens
between two points of a watch is known by its ticks (`Watch.Goes`): the runs that they start and the
updates that they show are those of the pipeline, and everything that is shown is printed. Only a
tick that shows something can change the store, and it prints the status, so the last status that
was printed stays that of the snapshot. One moment goes so (`Watch.goes_after`), and by induction
any number of them do (`Watch.goes_foldlM`). The drain after the interrupt shows what the ticks have
left (`Watch.Goes.drain`).
-/

namespace SaveLint

variable {c : Analyzer.Config}

namespace Commands.Watch

variable {w : Watch} {labels : List Pipeline.Label}

/-! ### Any moments -/

/-- The ticks of one moment: one or none. -/
def ticksAt (w : Watch) : Moment → List Ticked
  | .run _ => []
  | .files _ => []
  | .tick => [w.ticked]

/-- The ticks among some moments, as far as nothing stops them. -/
def ticks : Watch → List Moment → List Ticked
  | _, [] => []
  | w, moment :: moments =>
    w.ticksAt moment ++
      match w.after moment with
      | .ok next => next.ticks moments
      | .error _ => []

theorem ticks_cons {moment : Moment} {next : Watch} (h : w.after moment = .ok next)
    (moments : List Moment) :
    w.ticks (moment :: moments) = w.ticksAt moment ++ next.ticks moments := by
  rw [ticks, h]

theorem ticks_append {past : List Moment} {now : Watch} (h : past.foldlM after w = .ok now)
    (moments : List Moment) : w.ticks (past ++ moments) = w.ticks past ++ now.ticks moments := by
  induction past generalizing w with
  | nil =>
      cases h
      rfl
  | cons moment past ih =>
      rw [List.foldlM_cons] at h
      cases hafter : w.after moment with
      | error crash =>
          rw [hafter] at h
          cases h
      | ok next =>
          rw [hafter] at h
          rw [List.cons_append, ticks_cons hafter, ticks_cons hafter, ih h, List.append_assoc]

/-- The last status line that was printed is that of the store. -/
def IsCurrent (w : Watch) : Prop :=
  w.workplace.terminal.LastStatus w.workplace.session.linter.store.statusLine

/-- What happens between two points of a watch, if these are the ticks between them. -/
structure Goes (w : Watch) (ts : List Ticked) (w' : Watch) : Prop where
  steps : ∃ labels, w.workplace.session.pipeline.Steps labels w'.workplace.session.pipeline ∧
    Pipeline.startedIn labels = ts.flatMap (·.started) ∧
    Pipeline.givenIn labels = ts.flatMap (·.shown)
  baseDirectory : w'.workplace.terminal.baseDirectory = w.workplace.terminal.baseDirectory
  /-- Everything that was shown has been printed. -/
  printed : ∃ lines, w'.workplace.terminal.printed = w.workplace.terminal.printed ++ lines ∧
    List.Sublist (((ts.flatMap (·.shown)).map (·.update)).flatMap
      w.workplace.terminal.printedUpdate) lines
  current : (w.IsCurrent ∨ ∃ t ∈ ts, t.shown ≠ []) → w'.IsCurrent

theorem Goes.trans {w' w'' : Watch} {ts ts' : List Ticked} (h : w.Goes ts w')
    (h' : w'.Goes ts' w'') : w.Goes (ts ++ ts') w'' := by
  obtain ⟨labels, hsteps, hstarted, hgiven⟩ := h.steps
  obtain ⟨labels', hsteps', hstarted', hgiven'⟩ := h'.steps
  obtain ⟨lines, hprinted, hlines⟩ := h.printed
  obtain ⟨lines', hprinted', hlines'⟩ := h'.printed
  constructor
  case steps =>
    refine ⟨labels ++ labels', hsteps.trans hsteps', ?_, ?_⟩
    · rw [Pipeline.startedIn_append, hstarted, hstarted', List.flatMap_append]
    · rw [Pipeline.givenIn_append, hgiven, hgiven', List.flatMap_append]
  case baseDirectory => exact h'.baseDirectory.trans h.baseDirectory
  case printed =>
    rw [Terminal.printedUpdate_congr h.baseDirectory] at hlines'
    refine ⟨lines ++ lines', ?_, ?_⟩
    · rw [hprinted', hprinted, List.append_assoc]
    · rw [List.flatMap_append, List.map_append, List.flatMap_append]
      exact hlines.append hlines'
  case current =>
    rintro (hcurrent | ⟨t, ht, hshown⟩)
    · exact h'.current (.inl (h.current (.inl hcurrent)))
    · rcases List.mem_append.mp ht with ht | ht
      · exact h'.current (.inl (h.current (.inr ⟨t, ht, hshown⟩)))
      · exact h'.current (.inr ⟨t, ht, hshown⟩)

/-- A moment without a tick leaves the terminal and the store as they are. -/
theorem goes_of_quiet {w' : Watch}
    (hsteps : ∃ labels, w.workplace.session.pipeline.Steps labels w'.workplace.session.pipeline ∧
      Pipeline.startedIn labels = [] ∧ Pipeline.givenIn labels = [])
    (hterminal : w'.workplace.terminal = w.workplace.terminal)
    (hstore : w'.workplace.session.linter.store = w.workplace.session.linter.store) :
    w.Goes [] w' := by
  constructor
  case steps => exact hsteps
  case baseDirectory => rw [hterminal]
  case printed => exact ⟨[], by rw [hterminal, List.append_nil], List.Sublist.refl []⟩
  case current =>
    rintro (hcurrent | ⟨t, ht, -⟩)
    · rw [IsCurrent, hterminal, hstore]
      exact hcurrent
    · cases ht

theorem goes_tick {next : Watch} {count : Nat}
    (h : ∀ u ∈ w.ticked.shown.map (·.update), u.isListable = true)
    (htick : w.tick = .ok (count, next)) : w.Goes [w.ticked] next := by
  obtain ⟨next', htick', hsession, hbase, hprinted⟩ := tick_of_listable h
  rw [htick] at htick'
  cases htick'
  constructor
  case steps =>
    rw [hsession, List.flatMap_singleton, List.flatMap_singleton]
    exact w.steps_tick
  case baseDirectory => exact hbase
  case printed =>
    refine ⟨_, hprinted.trans (List.append_assoc _ _ _), ?_⟩
    rw [List.flatMap_singleton, lines, List.append_assoc]
    exact (List.sublist_append_left _ _).trans (List.sublist_append_right _ _)
  case current =>
    by_cases hnone : w.ticked.shown.isEmpty = true
    · -- Files may have been saved, but the store is as it was and no status was printed.
      rw [if_pos hnone, List.append_nil] at hprinted
      rintro (hcurrent | ⟨t, ht, hshown⟩)
      · have hpump : w.saved.session.pump.calls = [] := by
          rw [w.pump_saved.2, List.isEmpty_iff.mp hnone]
          rfl
        have hstore : next.workplace.session.linter.store =
            w.workplace.session.linter.store := by
          rw [hsession, Session.store_pump hpump]
          exact w.workplace.store_saveAll w.changed
        rw [IsCurrent, hstore]
        exact hcurrent.append hprinted fun p => not_isStatus_of_mem_lines
      · rw [List.mem_singleton.mp ht] at hshown
        exact absurd (List.isEmpty_iff.mp hnone) hshown
    · rw [if_neg hnone] at hprinted
      intro _
      exact Terminal.lastStatus_concat (Store.isStatus_statusLine _) hprinted

/-- A step of a run changes the pipeline only. -/
theorem exists_after_run (w : Watch) (k : Nat) : ∃ next, w.after (.run k) = .ok next ∧
    next.watcher = w.watcher ∧ next.workplace.machine = w.workplace.machine ∧
    next.workplace.terminal = w.workplace.terminal ∧
    next.workplace.session.pipeline = (w.workplace.session.pipeline.turn (.run k)).2 ∧
    next.workplace.session.linter.store = w.workplace.session.linter.store :=
  ⟨_, rfl, rfl, rfl, rfl, rfl, w.workplace.session.pipeline.store_turn_run k⟩

theorem goes_after (hsteps : Pipeline.Steps (.ofConfig c) labels w.workplace.session.pipeline)
    {moment : Moment} (hruns : ∀ start ∈ Pipeline.startedIn labels ++
      (w.ticksAt moment).flatMap (·.started), start.2.ending.IsListable) :
    ∃ next, w.after moment = .ok next ∧ w.Goes (w.ticksAt moment) next := by
  cases moment with
  | run k =>
      obtain ⟨next, hnext, -, -, hterminal, hpipeline, hstore⟩ := w.exists_after_run k
      obtain ⟨more, hmore, hgiven, hstarted⟩ :=
        w.workplace.session.pipeline.steps_of_turn (.run k)
      rw [← hpipeline] at hmore
      exact ⟨next, hnext, goes_of_quiet ⟨more, hmore, hstarted, hgiven⟩ hterminal hstore⟩
  | files fs => exact ⟨_, rfl, goes_of_quiet ⟨[], .refl, rfl, rfl⟩ rfl rfl⟩
  | tick =>
      rw [ticksAt, List.flatMap_singleton] at hruns
      have hlistable := isListable_shown hsteps hruns
      obtain ⟨next, htick, -⟩ := tick_of_listable hlistable
      exact ⟨next, by rw [after, htick]; rfl, goes_tick hlistable htick⟩

/-- Whatever happens, nothing stops a watch if everything can be listed. -/
theorem goes_foldlM (hsteps : Pipeline.Steps (.ofConfig c) labels w.workplace.session.pipeline)
    {moments : List Moment} (hruns : ∀ start ∈ Pipeline.startedIn labels ++
      (w.ticks moments).flatMap (·.started), start.2.ending.IsListable) :
    ∃ now, moments.foldlM after w = .ok now ∧ w.Goes (w.ticks moments) now := by
  induction moments generalizing w labels with
  | nil => exact ⟨w, rfl, goes_of_quiet ⟨[], .refl, rfl, rfl⟩ rfl rfl⟩
  | cons moment moments ih =>
      -- The ticks of the first moment are known before it is known that it goes through.
      have hfirst : ∃ next, w.after moment = .ok next ∧ w.Goes (w.ticksAt moment) next := by
        refine goes_after hsteps fun start hstart => hruns start ?_
        rw [ticks, List.flatMap_append, ← List.append_assoc]
        exact List.mem_append_left _ hstart
      obtain ⟨next, hafter, hgoes⟩ := hfirst
      obtain ⟨more, hmore, hstarted, -⟩ := hgoes.steps
      rw [ticks_cons hafter] at hruns ⊢
      rw [List.flatMap_append, ← hstarted, ← List.append_assoc,
        ← Pipeline.startedIn_append] at hruns
      obtain ⟨now, hnow, hrest⟩ := ih (hsteps.trans hmore) hruns
      refine ⟨now, ?_, hgoes.trans hrest⟩
      rw [List.foldlM_cons, hafter]
      exact hnow

/-- Nothing stops a watch before any of its points either. -/
theorem goes_past (hsteps : Pipeline.Steps (.ofConfig c) labels w.workplace.session.pipeline)
    {past rest : List Moment} (hruns : ∀ start ∈ Pipeline.startedIn labels ++
      (w.ticks (past ++ rest)).flatMap (·.started), start.2.ending.IsListable) :
    ∃ now, past.foldlM after w = .ok now ∧ w.Goes (w.ticks past) now ∧
      w.ticks (past ++ rest) = w.ticks past ++ now.ticks rest := by
  -- All moments go through, so those before the point do, and its past ticks are known.
  obtain ⟨last, hlast, -⟩ := goes_foldlM hsteps hruns
  rw [List.foldlM_append] at hlast
  cases hpast : past.foldlM after w with
  | error crash =>
      rw [hpast] at hlast
      cases hlast
  | ok now =>
      have hticks := ticks_append hpast rest
      have hfirst : ∃ now', past.foldlM after w = .ok now' ∧ w.Goes (w.ticks past) now' := by
        refine goes_foldlM hsteps fun start hstart => hruns start ?_
        rw [hticks, List.flatMap_append, ← List.append_assoc]
        exact List.mem_append_left _ hstart
      obtain ⟨now', hnow', hgoes⟩ := hfirst
      rw [hpast] at hnow'
      cases hnow'
      exact ⟨now, rfl, hgoes, hticks⟩

/-- A tick after some moments shows nothing that cannot be listed. -/
theorem exists_before_tick
    (hsteps : Pipeline.Steps (.ofConfig c) labels w.workplace.session.pipeline)
    {past rest : List Moment} (hruns : ∀ start ∈ Pipeline.startedIn labels ++
      (w.ticks (past ++ .tick :: rest)).flatMap (·.started), start.2.ending.IsListable) :
    ∃ now, past.foldlM after w = .ok now ∧
      ∀ u ∈ now.ticked.shown.map (·.update), u.isListable = true := by
  obtain ⟨now, hnow, hgoes, hticks⟩ := goes_past hsteps hruns
  obtain ⟨more, hmore, hstarted, -⟩ := hgoes.steps
  rw [hticks, List.flatMap_append, ← hstarted, ticks, List.flatMap_append, ticksAt,
    List.flatMap_singleton, ← List.append_assoc, ← List.append_assoc,
    ← Pipeline.startedIn_append] at hruns
  exact ⟨now, hnow, isListable_shown (hsteps.trans hmore) fun start hstart =>
    hruns start (List.mem_append_left _ hstart)⟩

/-- A drain after some ticks shows what they have left, and then nothing is left of any run. -/
theorem Goes.drain {last : Watch} {ts : List Ticked} (h : w.Goes ts last)
    (hsteps : Pipeline.Steps (.ofConfig c) labels w.workplace.session.pipeline)
    (hruns : ∀ start ∈ Pipeline.startedIn labels ++ ts.flatMap (·.started),
      start.2.ending.IsListable) (schedule : List Pipeline.Turn) :
    ∃ ds w', ds = ts.flatMap (·.shown) ++ (last.workplace.session.pipeline.drain schedule).1 ∧
      last.workplace.drain schedule = .ok w' ∧
      List.Sublist ((ds.map (·.update)).flatMap w.workplace.terminal.printedUpdate)
        w'.terminal.printed ∧
      (∀ n, Pipeline.updatesOf n (Pipeline.givenIn labels ++ ds) =
        Pipeline.expected c (Pipeline.startedIn labels ++ ts.flatMap (·.started)) n) ∧
      w'.session.linter.inFlight = 0 ∧ w'.session.pipeline.live = [] ∧
      w'.session.linter.queue = [] ∧ w'.session.linter.failures = [] := by
  obtain ⟨more, hmore, hstarted, hshown⟩ := h.steps
  rw [← hstarted, ← Pipeline.startedIn_append] at hruns
  obtain ⟨late, w', hlate, hdrain, hterminal, hupdates, hleft⟩ :=
    Workplace.drain_completes (hsteps.trans hmore) hruns schedule
  refine ⟨ts.flatMap (·.shown) ++ late, w', by rw [hlate], hdrain, ?_, ?_, hleft⟩
  · obtain ⟨lines, hprinted, hlines⟩ := h.printed
    rw [hterminal, Terminal.after, hprinted, Terminal.printedUpdate_congr h.baseDirectory,
      List.map_append, List.flatMap_append]
    exact (hlines.trans (List.sublist_append_right _ _)).append (List.Sublist.refl _)
  · intro n
    rw [← hshown, ← List.append_assoc, ← Pipeline.givenIn_append, hupdates,
      Pipeline.startedIn_append, hstarted]

/-- The runs that a watch starts: for the files in the beginning, and at its ticks. -/
def runs (w : Workplace) (files : List Path) (moments : List Moment) :
    List (FileIdentity × Analyzer.Run) :=
  w.startedBy files ++ ((start w files).ticks moments).flatMap (·.started)

/-! ### One script -/

/-- A script is analyzed, and the first tick after that shows its report, which has one error. -/
theorem exists_script : ∃ w : Workplace, w.IsFresh {} ∧
    (runs w [⟨"/a.py"⟩] [.run 0, .tick]).map (·.2) =
      [⟨[], .report ":1:0: E0001: boom" (some 0)⟩] ∧
    (∃ t ∈ (start w [⟨"/a.py"⟩]).ticks [.run 0, .tick], t.shown ≠ []) ∧
    ∃ now, [Moment.run 0, .tick].foldlM after (start w [⟨"/a.py"⟩]) = .ok now ∧
      now.workplace.session.linter.store.countHeld .error = 1 ∧
      now.workplace.session.linter.store.countHeld .warning = 0 := by
  let m : Machine := .ofScript (bytesOf "x=1") fun _ _ =>
    .ok { stdout := .ok (bytesOf ":1:0: E0001: boom") }
  let w : Workplace :=
    ⟨.ofConfig {} ⟨.server ⟨['h', 't', 't', 'p'], ['a'], none, ['/'], none, none⟩, "m", {}⟩, {}, m⟩
  have hsave : w.saveAll [⟨"/a.py"⟩] = _ :=
    w.save_ofScript "python" "x=1" ":1:0: E0001: boom" rfl rfl
  have hmachine : (w.saveAll [⟨"/a.py"⟩]).machine = m := (w.saves_saveAll _).machine
  have hstarted : (w.startedBy [⟨"/a.py"⟩]).map (·.2) =
      [⟨[], .report ":1:0: E0001: boom" (some 0)⟩] := by
    rw [Workplace.startedBy, hsave]
    rfl
  -- At the tick the run has ended, and the file is as it was.
  obtain ⟨moved, hmoved, hwatcher, hmovedMachine, -, hpipeline, -⟩ :=
    exists_after_run (start w [⟨"/a.py"⟩]) 0
  have hunchanged : moved.changed = [] := by
    rw [changed, hwatcher, hmovedMachine, start, hmachine]
    exact Watcher.changed_ofFiles_singleton _ _
  have hlinter : moved.workplace.session.linter =
      { config := {}, queue := [⟨0, ⟨⟨"/a.py"⟩, Machine.isAbsolute_script⟩,
        .report ":1:0: E0001: boom" (some 0)⟩], ended := [.returned 0], inFlight := 1 } := by
    rw [Session.linter, hpipeline, start, hsave]
    rfl
  have hticked := ticked_of_unchanged hunchanged
  rw [hlinter] at hticked
  have hticks : (start w [⟨"/a.py"⟩]).ticks [.run 0, .tick] = [moved.ticked] := by
    rw [ticks_cons hmoved, ticksAt, List.nil_append, ticks, ticksAt]
    cases moved.after .tick <;> rfl
  have hlistable : ∀ u ∈ moved.ticked.shown.map (·.update), u.isListable = true := by
    rw [hticked]
    intro u hu
    obtain rfl := List.mem_singleton.mp hu
    rfl
  obtain ⟨next, htick, hsession, -⟩ := tick_of_listable hlistable
  have hstore : next.workplace.session.linter.store = Store.applyAll {} {}
      [⟨0, ⟨⟨"/a.py"⟩, Machine.isAbsolute_script⟩, .report ":1:0: E0001: boom" (some 0)⟩] := by
    rw [hsession, store_pump_saved, saved_of_unchanged hunchanged, Session.config, hlinter]
    rfl
  refine ⟨w, ⟨rfl, rfl, rfl⟩, ?_, ⟨moved.ticked, ?_, ?_⟩, next, ?_, ?_, ?_⟩
  · rw [runs, hticks, List.flatMap_singleton, hticked, List.append_nil]
    exact hstarted
  · rw [hticks]
    exact List.mem_singleton_self _
  · rw [hticked]
    exact List.cons_ne_nil _ _
  · rw [List.foldlM_cons, hmoved]
    show (moved.tick.map (·.2)).bind _ = _
    rw [htick]
    rfl
  · rw [hstore]
    rfl
  · rw [hstore]
    rfl

end Commands.Watch

namespace Commands

/-! ### Main statement -/

/--
If no report has a finding in the last column, nothing stops a watch, whatever happens to the files
and to the runs. At every point after a tick that has shown an update, the last status line that was
printed tells the numbers of errors and warnings that the store holds at that point, as the status
of its snapshot does. A tick prints its warnings and the lines of its updates, none of which is a
status line, and then, if and only if it has shown an update, the status of the snapshot that the
updates have left. When the watch has returned, every run that it has started has had all of its
updates shown, exactly one of them for its end, and no event is left.
-/
theorem watch_status_current {w : Workplace} (hw : w.IsFresh c) (files : List Path)
    (moments : List Watch.Moment) (schedule : List Pipeline.Turn)
    (hcolumns : ∀ start ∈ Watch.runs w files moments, start.2.ending.IsListable) :
    (∀ past rest, moments = past ++ rest → ∃ now store errors warnings,
      past.foldlM Watch.after (Watch.start w files) = .ok now ∧
      store = now.workplace.session.linter.store ∧
      errors = store.held.countP (·.severity == .error) ∧
      warnings = store.held.countP (·.severity == .warning) ∧
      store.snapshot.status = "E:" ++ toString errors ++ " W:" ++ toString warnings ∧
      ((∃ t ∈ (Watch.start w files).ticks past, t.shown ≠ []) →
        now.workplace.terminal.LastStatus
          ⟨.out, "E:" ++ toString errors ++ " W:" ++ toString warnings ++ "\n"⟩)) ∧
    (∀ past rest, moments = past ++ .tick :: rest → ∃ now next store,
      past.foldlM Watch.after (Watch.start w files) = .ok now ∧
      now.tick = .ok (now.ticked.shown.length, next) ∧
      next.workplace.session = now.saved.session.pump.session ∧
      store = next.workplace.session.linter.store ∧
      next.workplace.terminal.printed = now.workplace.terminal.printed ++ now.lines ++
        (if now.ticked.shown.isEmpty then [] else [⟨.out, store.snapshot.status ++ "\n"⟩]) ∧
      ∀ p ∈ now.lines, ¬ p.IsStatus) ∧
    ∃ last ds w', moments.foldlM Watch.after (Watch.start w files) = .ok last ∧
      ds = ((Watch.start w files).ticks moments).flatMap (·.shown) ++
        (last.workplace.session.pipeline.drain schedule).1 ∧
      watch w files moments schedule = .ok (exitSuccess, w') ∧
      List.Sublist ((ds.map (·.update)).flatMap w.terminal.printedUpdate) w'.terminal.printed ∧
      (∀ n file run, (Watch.runs w files moments)[n]? = some (file, run) →
        Pipeline.updatesOf n ds = run.updates c n file ∧
        (Pipeline.updatesOf n ds).countP Update.isLast = 1) ∧
      w'.session.linter.inFlight = 0 ∧ w'.session.pipeline.live = [] ∧
      w'.session.linter.queue = [] ∧ w'.session.linter.failures = [] := by
  obtain ⟨labels, hsteps, hstarted, hgiven⟩ := w.steps_saveAll files
  rw [hw.pipeline] at hsteps
  have hstart : Pipeline.Steps (.ofConfig c) labels
    (Watch.start w files).workplace.session.pipeline := hsteps
  have hruns : ∀ start ∈ Pipeline.startedIn labels ++
      ((Watch.start w files).ticks moments).flatMap (·.started), start.2.ending.IsListable := by
    rw [hstarted]
    exact hcolumns
  refine ⟨?_, ?_, ?_⟩
  · rintro past rest rfl
    obtain ⟨now, hnow, hgoes, -⟩ := Watch.goes_past hstart hruns
    refine ⟨now, _, _, _, hnow, rfl, rfl, rfl, Store.status_snapshot _, fun hshown => ?_⟩
    have hcurrent := hgoes.current (.inr hshown)
    rwa [Watch.IsCurrent, Store.statusLine_eq] at hcurrent
  · rintro past rest rfl
    obtain ⟨now, hnow, hlistable⟩ := Watch.exists_before_tick hstart hruns
    obtain ⟨next, htick, hsession, -, hprinted⟩ := Watch.tick_of_listable hlistable
    exact ⟨now, next, _, hnow, htick, hsession, rfl, hprinted,
      fun p => Watch.not_isStatus_of_mem_lines⟩
  · obtain ⟨last, hlast, hgoes⟩ := Watch.goes_foldlM hstart hruns
    obtain ⟨ds, w', hds, hdrain, hprinted, hupdates, hleft⟩ := hgoes.drain hstart hruns schedule
    have hbase : (Watch.start w files).workplace.terminal.baseDirectory =
        w.terminal.baseDirectory := by
      rw [Watch.start, (w.saves_saveAll files).terminal]
    rw [Terminal.printedUpdate_congr hbase] at hprinted
    refine ⟨last, ds, w', hlast, hds, ?_, hprinted, ?_, hleft⟩
    · rw [watch, hlast]
      show (last.workplace.drain schedule).bind _ = _
      rw [hdrain]
      rfl
    · intro n file run hrun
      have hexpected : Pipeline.expected c (Watch.runs w files moments) n =
          run.updates c n file := by
        rw [Pipeline.expected, hrun]
      have hall := hupdates n
      rw [hgiven, hstarted, List.nil_append] at hall
      rw [hall.trans hexpected]
      exact ⟨rfl, Analyzer.Run.countP_isLast_updates c n file run⟩

/-- One script is analyzed, and the first tick after that prints the status: one error. -/
theorem watch_status_current_script :
    ∃ (w : Workplace) (now : Watch) (w' : Workplace), w.IsFresh {} ∧
      (Watch.runs w [⟨"/a.py"⟩] [.run 0, .tick]).map (·.2) =
        [⟨[], .report ":1:0: E0001: boom" (some 0)⟩] ∧
      [Watch.Moment.run 0, .tick].foldlM Watch.after (Watch.start w [⟨"/a.py"⟩]) = .ok now ∧
      now.workplace.session.linter.store.snapshot.status = "E:1 W:0" ∧
      now.workplace.terminal.LastStatus ⟨.out, "E:1 W:0\n"⟩ ∧
      watch w [⟨"/a.py"⟩] [.run 0, .tick] [] = .ok (exitSuccess, w') ∧
      w'.session.linter.inFlight = 0 := by
  obtain ⟨w, hfresh, hruns, hshown, now, hnow, hone, hnone⟩ := Watch.exists_script
  have hcolumns : ∀ start ∈ Watch.runs w [⟨"/a.py"⟩] [.run 0, .tick],
      start.2.ending.IsListable := by
    intro start hstart
    have hrun := List.mem_map_of_mem (f := (·.2)) hstart
    rw [hruns, List.mem_singleton] at hrun
    rw [hrun]
    exact Analyzer.Ending.isListable_report rfl
  obtain ⟨hpoints, -, last, ds, w', hlast, -, hwatch, -, -, hzero, -⟩ :=
    watch_status_current hfresh [⟨"/a.py"⟩] [.run 0, .tick] [] hcolumns
  obtain ⟨now', store, errors, warnings, hnow', rfl, herrors, hwarnings, hsnapshot, hstatus⟩ :=
    hpoints [.run 0, .tick] [] rfl
  obtain rfl : now = now' := Except.ok.inj (hnow.symm.trans hnow')
  obtain rfl : errors = 1 := herrors.trans hone
  obtain rfl : warnings = 0 := hwarnings.trans hnone
  exact ⟨w, now, w', hfresh, hruns, hnow, hsnapshot, hstatus hshown, hwatch, hzero⟩

end Commands

end SaveLint
