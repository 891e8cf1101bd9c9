import SaveLint.Commands.Watch
import SaveLint.Proofs.Commands.Saving
import SaveLint.Proofs.Linter.Consumption
import SaveLint.Proofs.Terminal.Status

/-!
# Ticks

A tick of a watch saves the files that have changed and then shows what is ready, up to the budget.
For the pipeline this is a number of steps (`Watch.steps_tick`): runs are started, and some updates
are given. On the terminal it is a warning for each file that is skipped, the lines of the updates,
and then the status exactly if there was an update (`Watch.tick_of_listable`).
-/

namespace SaveLint

/-- A watcher of one file that has seen an observation finds no change in it. -/
theorem Watcher.changed_ofFiles_singleton (observe : Observation) (p : Path) :
    ((ofFiles observe [p]).changed observe).1 = [] := by
  have hlast : lastSpelling [p] p = p := by simp [lastSpelling, Path.same]
  have hnone : (ofFiles observe [p]).seen.filter (hasChanged observe) = [] := by
    rw [List.filter_eq_nil_iff]
    intro entry hentry
    obtain rfl := List.mem_singleton.mp hentry
    simp [hasChanged, hlast]
  rw [changed, hnone, Path.sorted, List.map_nil, List.mergeSort_nil]

namespace Commands.Watch

variable {c : Analyzer.Config} {w : Watch} {labels : List Pipeline.Label}

/-! ### What a tick does -/

/-- The files that have changed at a tick. -/
def changed (w : Watch) : List Path := (w.watcher.changed w.workplace.machine.observation).1

/-- The workplace of a tick when the changed files have been saved. -/
def saved (w : Watch) : Workplace := w.workplace.saveAll w.changed

/-- The runs that a tick starts, and the updates that it shows. -/
structure Ticked where
  started : List (FileIdentity × Analyzer.Run)
  shown : List Delivery

def ticked (w : Watch) : Ticked where
  started := w.workplace.startedBy w.changed
  shown := (w.saved.session.linter.poll Session.updateBudget).1

theorem saved_of_unchanged (h : w.changed = []) : w.saved = w.workplace := by
  rw [saved, h]
  rfl

/-- Without a change nothing is started, and what is ready is shown up to the budget. -/
theorem ticked_of_unchanged (h : w.changed = []) :
    w.ticked = ⟨[], w.workplace.session.linter.ready.take Session.updateBudget⟩ := by
  rw [ticked, h, w.workplace.startedBy_nil, saved_of_unchanged h, Linter.poll_fst]

theorem pump_saved (w : Watch) : w.saved.session.pump.count = w.ticked.shown.length ∧
    w.saved.session.pump.calls = (w.ticked.shown.map (·.update)).map HostCall.ofUpdate := by
  rw [Session.pump_eq]
  exact ⟨rfl, Session.calls_eq _⟩

theorem steps_tick (w : Watch) :
    ∃ labels, w.workplace.session.pipeline.Steps labels w.saved.session.pump.session.pipeline ∧
      Pipeline.startedIn labels = w.ticked.started ∧ Pipeline.givenIn labels = w.ticked.shown := by
  obtain ⟨labels, hsteps, hstarted, hgiven⟩ := w.workplace.steps_saveAll w.changed
  obtain ⟨queued, broken, hshown, step⟩ :=
    w.saved.session.pipeline.step_of_poll Session.updateBudget
  refine ⟨labels ++ [.took queued broken], ?_, ?_, ?_⟩
  · rw [Session.pump_eq]
    exact hsteps.snoc step
  · rw [Pipeline.startedIn_append, hstarted]
    exact List.append_nil _
  · rw [Pipeline.givenIn_append, hgiven, ticked, Session.linter, hshown]
    exact List.append_nil _

/-- A tick applies the events that are queued, up to the budget. -/
theorem store_pump_saved (w : Watch) : w.saved.session.pump.session.linter.store =
    w.saved.session.linter.store.applyAll w.saved.session.config
      (w.saved.session.linter.queue.take Session.updateBudget) := by
  rw [Session.pump_eq, Session.withLinter_linter, Linter.poll_store]
  rfl

/-- A tick shows nothing that cannot be listed if no run brings anything of the kind. -/
theorem isListable_shown (h : Pipeline.Steps (.ofConfig c) labels w.workplace.session.pipeline)
    (hruns : ∀ start ∈ Pipeline.startedIn labels ++ w.ticked.started, start.2.ending.IsListable) :
    ∀ u ∈ w.ticked.shown.map (·.update), u.isListable = true := by
  obtain ⟨more, hmore, hstarted, hgiven⟩ := w.steps_tick
  rw [← hstarted, ← Pipeline.startedIn_append] at hruns
  intro u hu
  refine (h.trans hmore).isListable_updates hruns u ?_
  rw [Pipeline.givenIn_append, hgiven, List.map_append]
  exact List.mem_append_right _ hu

/-! ### What a tick prints -/

/-- The lines that a tick prints before the status. -/
def lines (w : Watch) : List Printed :=
  (w.workplace.skipped w.changed).map w.workplace.skipLine ++
    (w.ticked.shown.map (·.update)).flatMap w.workplace.terminal.printedUpdate

theorem not_isStatus_of_mem_lines {p : Printed} (h : p ∈ w.lines) : ¬ p.IsStatus := by
  rcases List.mem_append.mp h with h | h
  · obtain ⟨path, -, rfl⟩ := List.mem_map.mp h
    exact Printed.not_isStatus_of_err _
  · obtain ⟨u, -, hu⟩ := List.mem_flatMap.mp h
    exact Printed.not_isStatus_of_mem_printedUpdate hu

theorem baseDirectory_saved (w : Watch) :
    w.saved.terminal.baseDirectory = w.workplace.terminal.baseDirectory := by
  rw [saved, (w.workplace.saves_saveAll w.changed).terminal]

theorem printed_after_shown (w : Watch) :
    (w.saved.terminal.after (w.ticked.shown.map (·.update))).printed =
      w.workplace.terminal.printed ++ w.lines := by
  rw [Terminal.after, Terminal.printedUpdate_congr w.baseDirectory_saved, saved,
    (w.workplace.saves_saveAll w.changed).terminal, lines, List.append_assoc]

/-- A tick whose calls go through. -/
theorem tick_eq {shown : Workplace}
    (h : ({ w.saved with session := w.saved.session.pump.session } : Workplace).showCalls
      w.saved.session.pump.calls = .ok shown) :
    w.tick = .ok (w.saved.session.pump.count,
      ⟨if 0 < w.saved.session.pump.count then shown.printStatus else shown,
        (w.watcher.changed w.workplace.machine.observation).2⟩) := by
  have hsaved : w.workplace.saveAll (w.watcher.changed w.workplace.machine.observation).1 =
      w.saved := rfl
  -- The pump is generalised before it is taken apart, or its budget would be counted down.
  unfold tick
  dsimp only
  rw [hsaved]
  generalize w.saved.session.pump = pumped at h ⊢
  rw [h]
  rfl

/-- A tick whose updates can be listed goes through, and it ends with the status if it has any. -/
theorem tick_of_listable (h : ∀ u ∈ w.ticked.shown.map (·.update), u.isListable = true) :
    ∃ next, w.tick = .ok (w.ticked.shown.length, next) ∧
      next.workplace.session = w.saved.session.pump.session ∧
      next.workplace.terminal.baseDirectory = w.workplace.terminal.baseDirectory ∧
      next.workplace.terminal.printed = w.workplace.terminal.printed ++ w.lines ++
        if w.ticked.shown.isEmpty then [] else
          [next.workplace.session.linter.store.statusLine] := by
  obtain ⟨hcount, hpumped⟩ := w.pump_saved
  have hcalls := Workplace.showCalls_of_listable
    { w.saved with session := w.saved.session.pump.session } h
  rw [← hpumped] at hcalls
  have htick := tick_eq hcalls
  have hpositive : 0 < w.saved.session.pump.count ↔ ¬ w.ticked.shown.isEmpty = true := by
    rw [hcount, List.length_pos_iff, List.isEmpty_iff]
  rw [hcount] at htick
  rw [hcount] at hpositive
  by_cases hnone : w.ticked.shown.isEmpty = true
  · rw [if_neg (mt hpositive.mp (not_not_intro hnone))] at htick
    refine ⟨_, htick, rfl, w.baseDirectory_saved, ?_⟩
    rw [if_pos hnone, List.append_nil]
    exact w.printed_after_shown
  · rw [if_pos (hpositive.mpr hnone)] at htick
    refine ⟨_, htick, rfl, w.baseDirectory_saved, ?_⟩
    rw [if_neg hnone, ← w.printed_after_shown]
    exact Workplace.printed_printStatus _

end Commands.Watch

end SaveLint
