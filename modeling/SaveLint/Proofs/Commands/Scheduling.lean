import SaveLint.Proofs.Commands.Check

/-!
# The order in which runs go on does not matter

Two histories of the same runs may interleave their events in any way. Each run has sent the same
events and has had the same updates in the end, so the host has been called in the same ways, up to
the order (`perm_of_updatesOf`). What the store holds for a file depends on the reports for this
file alone, so the snapshots agree as soon as the reports of every file have come in the same order.
They always have when all files are different (`Pipeline.completionsOf_eq`).

The exit status of a check is a function of the number of errors and of the snapshot
(`Commands.exitOf_check`).
-/

namespace SaveLint

variable {c : Analyzer.Config}

/-! ### The reports of one file -/

namespace Pipeline

variable {labels labels' : List Label} {p p' : Pipeline} {file : FileIdentity}

theorem completionsOf_eq_nil (h : Steps (.ofConfig c) labels p)
    (hnone : ∀ start ∈ startedIn labels, ¬ start.1.same file = true) :
    completionsOf file (sentIn labels) = [] := by
  rw [completionsOf, List.filter_eq_nil_iff]
  intro e he hreport
  obtain ⟨run, hstart⟩ := h.started_of_mem_sentIn he
  exact hnone _ (List.mem_of_getElem? hstart) (Event.same_of_report? hreport)

/-- If all files are different, the reports for a file are those of a single run. -/
theorem completionsOf_eq_allEvents (h : Steps (.ofConfig c) labels p)
    (hzero : p.linter.inFlight = 0)
    (hfiles : ((startedIn labels).map (·.1)).Pairwise fun a b => a.same b = false)
    {n : Nat} {start : FileIdentity × Analyzer.Run} (hn : (startedIn labels)[n]? = some start)
    (hsame : start.1.same file = true) :
    completionsOf file (sentIn labels) = completionsOf file (allEvents (startedIn labels) n) := by
  rw [← h.eventsOf_sentIn hzero, eventsOf, completionsOf, completionsOf, List.filter_filter]
  apply List.filter_congr
  intro e he
  by_cases hreport : (e.report? file).isSome = true
  · -- A report of another run would be for another file.
    have hrun : e.run = n := by
      by_contra hne
      obtain ⟨run, hstart⟩ := h.started_of_mem_sentIn he
      have hother := FileIdentity.same_eq_false_of_pairwise hfiles hstart hn hne
      rw [FileIdentity.same_congr (Event.same_of_report? hreport), FileIdentity.same_comm,
        hsame] at hother
      cases hother
    simp [hreport, hrun]
  · simp [hreport]

theorem completionsOf_eq (h : Steps (.ofConfig c) labels p) (h' : Steps (.ofConfig c) labels' p')
    (hzero : p.linter.inFlight = 0) (hzero' : p'.linter.inFlight = 0)
    (hstarted : startedIn labels = startedIn labels')
    (hfiles : ((startedIn labels).map (·.1)).Pairwise fun a b => a.same b = false)
    (file : FileIdentity) :
    completionsOf file (sentIn labels) = completionsOf file (sentIn labels') := by
  by_cases hany : ∃ start ∈ startedIn labels, start.1.same file = true
  · obtain ⟨start, hmem, hsame⟩ := hany
    obtain ⟨n, hn⟩ := List.getElem?_of_mem hmem
    rw [completionsOf_eq_allEvents h hzero hfiles hn hsame]
    rw [hstarted] at hfiles hn
    rw [completionsOf_eq_allEvents h' hzero' hfiles hn hsame, hstarted]
  · have hnone : ∀ start ∈ startedIn labels, ¬ start.1.same file = true := by
      intro start hmem hsame
      exact hany ⟨start, hmem, hsame⟩
    rw [completionsOf_eq_nil h hnone]
    rw [hstarted] at hnone
    rw [completionsOf_eq_nil h' hnone]

/-- The same runs have had the same updates in the end, up to their order. -/
theorem perm_givenIn (h : Steps (.ofConfig c) labels p) (h' : Steps (.ofConfig c) labels' p')
    (hzero : p.linter.inFlight = 0) (hzero' : p'.linter.inFlight = 0)
    (hstarted : startedIn labels = startedIn labels') :
    (givenIn labels).Perm (givenIn labels') := by
  apply perm_of_updatesOf
  intro n
  rw [h.updatesOf_givenIn hzero, h'.updatesOf_givenIn hzero', hstarted]

end Pipeline

/-! ### The exit status -/

namespace Commands

/-- The exit status of a check, or what has stopped it. -/
def exitOf : Except Crash (Nat × Workplace) → Except Fault Nat
  | .ok (code, _) => .ok code
  | .error crash => .error crash.fault

/-- The exit status for a number of errors shown and a snapshot. -/
def exitFor (errors : Nat) (s : Snapshot) : Nat :=
  if 0 < errors then exitFailure else if 0 < s.count .error then exitFindings else exitSuccess

variable {w : Workplace} {files : List Path} {schedule : List Pipeline.Turn}
  {labels : List Pipeline.Label} {p : Pipeline}

theorem exitOf_check (h : w.Drains c files schedule labels p) :
    exitOf (check w files schedule) =
      if (Pipeline.givenIn labels).all (·.update.isListable) then
        .ok (exitFor (w.terminal.errorsShown +
          (Pipeline.givenIn labels).countP (·.update.isError)) p.linter.store.snapshot)
      else .error .positionOverflow := by
  have hdrain := h.drain
  rw [Session.calls_eq] at hdrain
  cases hall : (Pipeline.givenIn labels).all (·.update.isListable) with
  | false =>
      obtain ⟨terminal, hcheck⟩ := check_of_not_listable hdrain (by rw [List.all_map]; exact hall)
      rw [hcheck]
      rfl
  | true =>
      obtain ⟨w', hcheck, hsession, herrors, -⟩ := check_of_listable hdrain (by
        intro u hu
        obtain ⟨d, hd, rfl⟩ := List.mem_map.mp hu
        exact List.all_eq_true.mp hall d hd)
      have hshown : w'.terminal.errorsShown =
          w.terminal.errorsShown + (Pipeline.givenIn labels).countP (·.update.isError) := by
        rw [herrors]
        show (w.saveAll files).terminal.errorsShown + List.countP _ _ = _
        rw [(w.saves_saveAll files).terminal, List.countP_map]
        rfl
      rw [hcheck, if_pos rfl, ← hshown]
      show Except.ok (exitFor w'.terminal.errorsShown w'.session.snapshot) = _
      rw [hsession]
      rfl

variable {labels' : List Pipeline.Label} {p' : Pipeline} {schedule' : List Pipeline.Turn}

/-- Checks with the same updates up to their order, and the same snapshot, exit in the same way. -/
theorem exitOf_check_eq (h : w.Drains c files schedule labels p)
    (h' : w.Drains c files schedule' labels' p')
    (hgiven : (Pipeline.givenIn labels).Perm (Pipeline.givenIn labels'))
    (hsnapshot : p.linter.store.snapshot = p'.linter.store.snapshot) :
    exitOf (check w files schedule) = exitOf (check w files schedule') := by
  have hlisted : (Pipeline.givenIn labels).all (·.update.isListable) =
      (Pipeline.givenIn labels').all (·.update.isListable) := hgiven.all_eq
  have herrors := hgiven.countP_eq (·.update.isError)
  rw [exitOf_check h, exitOf_check h', hlisted, herrors, hsnapshot]

end Commands

namespace Pipeline

open Commands

variable {labels labels' : List Label} {p p' : Pipeline}

/-- The same runs have left the same snapshot if the reports of every file have the same order. -/
theorem snapshot_eq (h : Steps (.ofConfig c) labels p) (h' : Steps (.ofConfig c) labels' p')
    (hzero : p.linter.inFlight = 0) (hzero' : p'.linter.inFlight = 0)
    (horder : ∀ file, completionsOf file (sentIn labels) = completionsOf file (sentIn labels')) :
    p.linter.store.snapshot = p'.linter.store.snapshot := by
  rw [h.store_eq hzero, h'.store_eq hzero', Store.snapshot_applyAll_eq horder]

/-! ### Main statement -/

/--
Take two histories of the same runs in which nothing is left to do. If the files of the runs are all
different, the reports of every file have come in the same order. And if they have, then both
histories have left the same diagnostics and the same last report for every file, the same snapshot
and the same status; the host has been called in the same ways and has shown as many errors; and
checks with these histories exit in the same way.
-/
theorem scheduling_does_not_matter (h : Steps (.ofConfig c) labels p)
    (h' : Steps (.ofConfig c) labels' p') (hzero : p.linter.inFlight = 0)
    (hzero' : p'.linter.inFlight = 0) (hstarted : startedIn labels = startedIn labels') :
    (((startedIn labels).map (·.1)).Pairwise (fun a b => a.same b = false) →
      ∀ file, completionsOf file (sentIn labels) = completionsOf file (sentIn labels')) ∧
    ((∀ file, completionsOf file (sentIn labels) = completionsOf file (sentIn labels')) →
      (∀ file, p.linter.store.current file = p'.linter.store.current file ∧
        p.linter.store.lastReport file = p'.linter.store.lastReport file) ∧
      p.linter.store.snapshot = p'.linter.store.snapshot ∧
      p.linter.store.snapshot.status = p'.linter.store.snapshot.status ∧
      (givenIn labels).countP (·.update.isError) = (givenIn labels').countP (·.update.isError) ∧
      (Session.calls (givenIn labels)).Perm (Session.calls (givenIn labels')) ∧
      ∀ (w : Workplace) (files : List Path) (schedule schedule' : List Turn),
        w.Drains c files schedule labels p → w.Drains c files schedule' labels' p' →
        exitOf (check w files schedule) = exitOf (check w files schedule')) := by
  have hgiven := perm_givenIn h h' hzero hzero' hstarted
  refine ⟨completionsOf_eq h h' hzero hzero' hstarted, ?_⟩
  intro horder
  have hsnapshot := snapshot_eq h h' hzero hzero' horder
  refine ⟨?_, hsnapshot, congrArg Snapshot.status hsnapshot, hgiven.countP_eq _, hgiven.map _, ?_⟩
  · intro file
    rw [h.store_eq hzero, h'.store_eq hzero']
    exact Store.lookups_applyAll_eq horder c file
  · intro w files schedule schedule' hdrains hdrains'
    exact exitOf_check_eq hdrains hdrains' hgiven hsnapshot

/-- Two runs of one file, of which one fails: their events come alternately, or run after run. -/
theorem scheduling_does_not_matter_two_runs :
    ∃ (labels labels' : List Label) (p p' : Pipeline), Steps (.ofConfig {}) labels p ∧
      Steps (.ofConfig {}) labels' p' ∧ startedIn labels = startedIn labels' ∧
      (givenIn labels).map (·.run) = [0, 1, 0, 1] ∧ (givenIn labels').map (·.run) = [1, 1, 0, 0] ∧
      (Session.calls (givenIn labels)).Perm (Session.calls (givenIn labels')) ∧
      p.linter.store.snapshot = p'.linter.store.snapshot := by
  let first : Analyzer.Run := ⟨["w"], .report "" (some 0)⟩
  let second : Analyzer.Run := ⟨["v"], .failed (.notRun "oops")⟩
  have named := Machine.identity?_root {}
  have accepted : (ofConfig {}).linter.accepts "python" = true := by decide
  have started : Steps (.ofConfig {}) _ _ :=
    (Steps.single (.start first accepted named)).snoc (.start second accepted named)
  have alternating := (((started.snoc (@Step.run _ _ 0 [_] rfl rfl)).snoc
    (@Step.run _ _ 1 [_] rfl rfl)).snoc (@Step.run _ _ 0 [_] rfl rfl)).snoc
    (@Step.run _ _ 0 [_] rfl rfl)
  have successive := (((started.snoc (@Step.run _ _ 1 [_] rfl rfl)).snoc
    (@Step.run _ _ 1 [_] rfl rfl)).snoc (@Step.run _ _ 0 [_] rfl rfl)).snoc
    (@Step.run _ _ 0 [_] rfl rfl)
  have taken := alternating.snoc (@Step.poll _ _ _ [] 4 rfl rfl)
  have taken' := successive.snoc (@Step.poll _ _ _ [] 4 rfl rfl)
  obtain ⟨-, hagree⟩ := scheduling_does_not_matter taken taken' rfl rfl rfl
  obtain ⟨-, hsnapshot, -, -, hcalls, -⟩ := hagree fun file => by
    simp [completionsOf, sentIn, Label.sent, Event.report?, List.filter_cons]
  exact ⟨_, _, _, _, taken, taken', rfl, rfl, rfl, hcalls, hsnapshot⟩

end Pipeline

/-- A check of different files exits in the same way under every schedule. -/
theorem Commands.exitOf_check_of_pairwise {w : Workplace} (hw : w.IsFresh c) (files : List Path)
    (hfiles : (files.filterMap w.savedAs?).Pairwise fun a b => a.same b = false)
    (schedule schedule' : List Pipeline.Turn) :
    exitOf (check w files schedule) = exitOf (check w files schedule') := by
  obtain ⟨labels, p, h⟩ := hw.drains files schedule
  obtain ⟨labels', p', h'⟩ := hw.drains files schedule'
  have hstarted : Pipeline.startedIn labels = Pipeline.startedIn labels' :=
    h.started.trans h'.started.symm
  rw [← h.identities] at hfiles
  refine exitOf_check_eq h h'
    (Pipeline.perm_givenIn h.steps h'.steps h.inFlight h'.inFlight hstarted) ?_
  exact Pipeline.snapshot_eq h.steps h'.steps h.inFlight h'.inFlight
    (Pipeline.completionsOf_eq h.steps h'.steps h.inFlight h'.inFlight hstarted hfiles)

end SaveLint
