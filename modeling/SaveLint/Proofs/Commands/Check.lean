import SaveLint.Commands.Check
import SaveLint.Proofs.Commands.Saving
import SaveLint.Proofs.Terminal.Status

/-!
# Checking accounts for every file

A check saves all files and drains the session. Every file of the command line is skipped, listed or
reported as an error, since every run that was started has had one update for its end. The exit
status is read off the terminal and the store (`Commands.checkExit_iff`).
-/

namespace SaveLint

variable {c : Analyzer.Config} {w : Workplace}

/-! ### Exit statuses -/

namespace Commands

/-- What the exit status tells. -/
theorem checkExit_iff (w : Workplace) :
    (checkExit w = 2 ↔ 0 < w.terminal.errorsShown) ∧
    (checkExit w = 1 ↔ w.terminal.errorsShown = 0 ∧
      ∃ d ∈ w.session.linter.store.held, d.severity = .error) ∧
    (checkExit w = 0 ↔ w.terminal.errorsShown = 0 ∧
      ∀ d ∈ w.session.linter.store.held, d.severity ≠ .error) := by
  have hcount : 0 < w.session.snapshot.count .error ↔
      ∃ d ∈ w.session.linter.store.held, d.severity = .error := by
    rw [Session.snapshot, Store.count_snapshot, Store.countHeld, List.countP_pos_iff]
    simp only [beq_iff_eq]
  unfold checkExit exitFailure exitFindings exitSuccess
  by_cases hshown : 0 < w.terminal.errorsShown
  · simp [hshown, Nat.ne_of_gt hshown]
  · by_cases herrors : 0 < w.session.snapshot.count .error
    · have hfound := hcount.mp herrors
      simp only [hshown, herrors]
      grind
    · have hnone := mt hcount.mpr herrors
      simp only [hshown, herrors]
      grind

variable {files : List Path} {schedule : List Pipeline.Turn} {us : List Update} {s : Session}

section Drained

variable (hdrain : (w.saveAll files).session.drain schedule = (us.map HostCall.ofUpdate, s))
include hdrain

/-- A check whose listings go through: the updates are shown, and then the status is. -/
theorem check_of_listable (h : ∀ u ∈ us, u.isListable = true) :
    ∃ w' : Workplace, check w files schedule = .ok (checkExit w', w') ∧ w'.session = s ∧
      w'.terminal.errorsShown = ((w.saveAll files).terminal.after us).errorsShown ∧
      w'.terminal.printed = ((w.saveAll files).terminal.after us).printed ++
        [s.linter.store.statusLine] := by
  refine ⟨(⟨s, (w.saveAll files).terminal.after us, (w.saveAll files).machine⟩ :
    Workplace).printStatus, ?_, rfl, rfl, Workplace.printed_printStatus _⟩
  rw [check, Workplace.drain_of_listable hdrain h]
  rfl

/-- Anything that cannot be listed stops a check. -/
theorem check_of_not_listable (h : us.all Update.isListable = false) :
    ∃ terminal, check w files schedule = .error ⟨.positionOverflow, terminal⟩ := by
  have hfault := (w.saveAll files).terminal.callAll_fault (w.saveAll files).machine us
  rw [h, if_neg Bool.false_ne_true] at hfault
  refine ⟨((w.saveAll files).terminal.callAll (w.saveAll files).machine
    (us.map HostCall.ofUpdate)).terminal, ?_⟩
  simp only [check, Workplace.drain, hdrain, Workplace.showCalls, hfault]
  rfl

end Drained

/-! ### Main statement -/

/--
A check of any files goes through, whatever becomes of the runs and in whatever order, if no report
has a finding in the last column. Every file is skipped, listed or reported as an error. The last
line on the standard output tells how many errors and warnings the store holds in the end, which is
the status of its snapshot. The exit status is 2 if an error was shown, or else 1 if the store holds
a diagnostic that is an error, and 0 if neither. And when the started files are all different, the
line tells exactly how many of the listed diagnostics are errors and warnings.
-/
theorem check_accounts_for_files (hw : w.IsFresh c) (files : List Path)
    (schedule : List Pipeline.Turn)
    (hcolumns : ∀ r ∈ (w.saveAll files).session.pipeline.live, r.left.ending.IsListable) :
    ∃ (code : Nat) (us : List Update) (w' : Workplace) (held : List Diagnostic)
      (errors warnings : Nat), check w files schedule = .ok (code, w') ∧
      (w.saveAll files).session.drain schedule = (us.map HostCall.ofUpdate, w'.session) ∧
      held = w'.session.linter.store.diagnostics.entries.flatMap (·.2) ∧
      errors = held.countP (·.severity == .error) ∧
      warnings = held.countP (·.severity == .warning) ∧
      (w.skipped files).length + us.countP Update.isPublished + w'.terminal.errorsShown =
        files.length ∧
      (∃ before, w'.terminal.printed = before ++
          [⟨.out, "E:" ++ toString errors ++ " W:" ++ toString warnings ++ "\n"⟩] ∧
        before = (w.skipped files).map w.skipLine ++ us.flatMap w.terminal.printedUpdate ∧
        ∀ printed ∈ before, ∃ line, printed.text = line ++ "\n") ∧
      w'.session.snapshot.diagnostics.Perm held ∧
      w'.session.snapshot.status = "E:" ++ toString errors ++ " W:" ++ toString warnings ∧
      (code = 2 ↔ 0 < w'.terminal.errorsShown) ∧
      (code = 1 ↔ w'.terminal.errorsShown = 0 ∧ ∃ d ∈ held, d.severity = .error) ∧
      (code = 0 ↔ w'.terminal.errorsShown = 0 ∧ ∀ d ∈ held, d.severity ≠ .error) ∧
      ((files.filterMap w.savedAs?).Pairwise (fun a b => a.same b = false) →
        (us.flatMap Update.items).countP (·.severity == .error) = errors ∧
        (us.flatMap Update.items).countP (·.severity == .warning) = warnings ∧
        ∀ severity, (us.flatMap Update.items).countP (·.severity == severity) =
          w'.session.snapshot.count severity) := by
  obtain ⟨labels, p, h⟩ := hw.drains files schedule
  let us : List Update := (Pipeline.givenIn labels).map (·.update)
  have hlistable : ∀ u ∈ us, u.isListable = true := h.isListable_updates hcolumns
  have hdrain : (w.saveAll files).session.drain schedule =
      (us.map HostCall.ofUpdate, { (w.saveAll files).session with pipeline := p }) := by
    rw [h.drain, Session.calls_eq]
  obtain ⟨w', hcheck, hsession, hshown, hprinted⟩ := check_of_listable hdrain hlistable
  have hsaved := (w.saves_saveAll files).terminal
  have herrors : w'.terminal.errorsShown = us.countP Update.isError := by
    rw [hshown, hsaved]
    show w.terminal.errorsShown + _ = _
    rw [hw.errorsShown, Nat.zero_add]
  -- No run is in flight, so each run that was started has had exactly one update for its end.
  have hends : us.countP Update.isLast = (files.filterMap w.savedAs?).length := by
    have hcount := h.steps.countP_isLast
    rw [h.inFlight, Nat.add_zero] at hcount
    rw [List.countP_map, ← h.identities, List.length_map]
    exact hcount
  have hlines : (w.saveAll files).terminal.printedUpdate = w.terminal.printedUpdate := by
    rw [hsaved]
    exact Terminal.printedUpdate_congr rfl
  have hlisted (hfiles : (files.filterMap w.savedAs?).Pairwise fun a b => a.same b = false)
      (severity : Severity) : (us.flatMap Update.items).countP (·.severity == severity) =
        w'.session.linter.store.countHeld severity := by
    rw [← h.identities] at hfiles
    rw [hsession, List.flatMap_map]
    exact (h.steps.countHeld_eq h.inFlight hfiles severity).symm
  obtain ⟨htwo, hone, hzero⟩ := checkExit_iff w'
  refine ⟨checkExit w', us, w', _, _, _, hcheck, ?_, rfl, rfl, rfl, ?_, ⟨_, ?_, rfl, ?_⟩,
    Store.perm_diagnostics _, Store.status_snapshot _, htwo, hone, hzero, ?_⟩
  · rw [hdrain, hsession]
  · have hall := w.length_skipped_add files
    rw [← hends, Update.countP_isLast] at hall
    rw [herrors, Nat.add_assoc]
    exact hall
  · rw [hprinted, Store.statusLine_eq, hsession, Terminal.after, hlines, hsaved, hw.printed]
    rfl
  · intro printed hmem
    rcases List.mem_append.mp hmem with hmem | hmem
    · obtain ⟨path, -, rfl⟩ := List.mem_map.mp hmem
      exact ⟨_, rfl⟩
    · obtain ⟨u, -, hu⟩ := List.mem_flatMap.mp hmem
      exact w.terminal.exists_line_of_mem_printedUpdate hu
  · intro hfiles
    refine ⟨hlisted hfiles .error, hlisted hfiles .warning, fun severity => ?_⟩
    rw [hlisted hfiles, Session.snapshot, Store.count_snapshot]

/--
One file is analyzed, by a program whose command is a path, and one is skipped: the check accounts
for both, and it tells the one error.
-/
theorem check_accounts_for_two_files :
    ∃ (w : Workplace) (us : List Update) (w' : Workplace),
      w.IsFresh { command := "/opt/venv/bin/python" } ∧
      (w.saveAll [⟨"/a.py"⟩, ⟨"/b.txt"⟩]).session.pipeline.live.map (·.left) =
        [⟨[], .report ":1:0: E0001: boom" (some 0)⟩] ∧
      check w [⟨"/a.py"⟩, ⟨"/b.txt"⟩] [] = .ok (1, w') ∧
      (w.skipped [⟨"/a.py"⟩, ⟨"/b.txt"⟩]).length = 1 ∧
      us.countP Update.isPublished + w'.terminal.errorsShown = 1 ∧
      (us.flatMap Update.items).countP (·.severity == .error) = 1 ∧
      w'.terminal.printed = [⟨.err, "warning: Skipping /b.txt: not a python file\n"⟩,
        ⟨.out, "/a.py:1:1: error: [pylint E0001] boom\n"⟩, ⟨.out, "E:1 W:0\n"⟩] := by
  let c : Analyzer.Config := { command := "/opt/venv/bin/python" }
  let m : Machine := .ofScript (bytesOf "") fun _ _ =>
    .ok { stdout := .ok (bytesOf ":1:0: E0001: boom") }
  let w : Workplace :=
    ⟨.ofConfig c ⟨.server ⟨['h', 't', 't', 'p'], ['a'], none, ['/'], none, none⟩, "m", {}⟩, {}, m⟩
  have hfirst : w.savedAs? ⟨"/a.py"⟩ = some ⟨⟨"/a.py"⟩, Machine.isAbsolute_script⟩ := by
    rw [Workplace.savedAs?, if_pos (by decide)]
    exact Machine.identity?_ofScript _ _
  -- The second file is in no language that the analyzer accepts.
  have hsecond : w.savedAs? ⟨"/b.txt"⟩ = none := if_neg (by decide)
  have hskipped : w.skipped [⟨"/a.py"⟩, ⟨"/b.txt"⟩] = [⟨"/b.txt"⟩] := by
    simp [Workplace.skipped, hfirst, hsecond]
  have hsaved : (w.saveAll [⟨"/a.py"⟩, ⟨"/b.txt"⟩]).session.pipeline = (Pipeline.ofConfig c).start
      ⟨⟨"/a.py"⟩, Machine.isAbsolute_script⟩ ⟨[], .report ":1:0: E0001: boom" (some 0)⟩ := by
    rw [Workplace.saveAll, List.foldl_cons, List.foldl_cons, List.foldl_nil,
      w.save_ofScript "/opt/venv/bin/python" "" ":1:0: E0001: boom" rfl rfl,
      Workplace.save_of_eq_none (if_neg (by decide))]
  have hcolumns : ∀ r ∈ (w.saveAll [⟨"/a.py"⟩, ⟨"/b.txt"⟩]).session.pipeline.live,
      r.left.ending.IsListable := by
    rw [hsaved]
    intro r hr
    obtain rfl := List.mem_singleton.mp hr
    exact Analyzer.Ending.isListable_report rfl
  have hfresh : w.IsFresh c := ⟨rfl, rfl, rfl⟩
  obtain ⟨code, us, w', held, errors, warnings, hcheck, hdrain, -, hheld, -, haccounts,
    ⟨before, hprinted, hbefore, -⟩, -, -, -, hone, -, hcounts⟩ :=
    check_accounts_for_files hfresh [⟨"/a.py"⟩, ⟨"/b.txt"⟩] [] hcolumns
  -- The only update is the listing for the end of the run.
  let listing : Update := .published ⟨⟨"/a.py"⟩, Machine.isAbsolute_script⟩
    (Report.diagnostics "pylint" ":1:0: E0001: boom")
  obtain rfl : us = [listing] := by
    have hcalls : us.map HostCall.ofUpdate = [listing].map HostCall.ofUpdate := by
      refine (congrArg Prod.fst hdrain).symm.trans ?_
      rw [Session.drain, hsaved]
      rfl
    exact (List.map_inj_right HostCall.ofUpdate_injective).mp hcalls
  have hstarted : ([⟨"/a.py"⟩, ⟨"/b.txt"⟩] : List Path).filterMap w.savedAs? =
      [⟨⟨"/a.py"⟩, Machine.isAbsolute_script⟩] := by
    simp [hfirst, hsecond]
  obtain ⟨herrors, hwarnings, -⟩ := hcounts (hstarted ▸ List.pairwise_singleton _ _)
  obtain rfl : 1 = errors := herrors
  obtain rfl : 0 = warnings := hwarnings
  have hshown : w'.terminal.errorsShown = 0 := by
    rw [hskipped] at haccounts
    have htotal : 1 + 1 + w'.terminal.errorsShown = 2 := haccounts
    omega
  have herror : ∃ d ∈ held, d.severity = .error := by
    obtain ⟨d, hd, hseverity⟩ := List.countP_pos_iff.mp (Nat.lt_of_lt_of_eq Nat.one_pos hheld)
    exact ⟨d, hd, beq_iff_eq.mp hseverity⟩
  obtain rfl : code = 1 := hone.mpr ⟨hshown, herror⟩
  have hline : w.skipLine ⟨"/b.txt"⟩ =
      ⟨.err, "warning: Skipping /b.txt: not a python file\n"⟩ := by decide +kernel
  have hlisting : w.terminal.printedUpdate listing =
      [⟨.out, "/a.py:1:1: error: [pylint E0001] boom\n"⟩] := by decide +kernel
  refine ⟨w, [listing], w', hfresh, ?_, hcheck, ?_, ?_, rfl, ?_⟩
  · rw [hsaved]
    rfl
  · rw [hskipped]
    rfl
  · rw [hshown]
    rfl
  · rw [hprinted, hbefore, hskipped, List.map_singleton, hline, List.flatMap_singleton, hlisting]
    rfl

end Commands

end SaveLint
