import SaveLint.Proofs.Report.WellFormed
import SaveLint.Proofs.Store.Completions

/-!
# Every diagnostic is well formed

Diagnostics come into the store and to the host in one way only, as those of a report that some run
has sent. So all that holds of the diagnostics of any report holds of every diagnostic that is ever
stored or published, whatever is sent and however the updates are taken.
-/

namespace SaveLint

variable {c : Analyzer.Config} {sent : List Event} {l : Linter}

theorem Event.mem_of_getLast?_reportsFor {file : FileIdentity} {es : List Event} {stdout : String}
    (h : (reportsFor file es).getLast? = some stdout) : ∃ e ∈ es, e.report? file = some stdout :=
  List.mem_filterMap.mp (List.mem_of_getLast? h)

/-- An update that publishes diagnostics answers a report. -/
theorem Event.report_of_answer {e : Event} {file : FileIdentity} {items : List Diagnostic}
    (h : (e.answer c).update = .published file items) :
    ∃ stdout exit, e.news = .report stdout exit ∧ e.file = file ∧
      items = Report.diagnostics c.source stdout := by
  obtain ⟨run, id, news⟩ := e
  cases news with
  | stderr chunk => cases h
  | failed why => cases h
  | report stdout exit =>
      cases h
      exact ⟨stdout, exit, rfl, rfl, rfl⟩

namespace Linter

/-- An entry of the store holds the diagnostics of the last report for its file. -/
theorem HasApplied.mem_entries (h : HasApplied c sent l) {file : FileIdentity}
    {items : List Diagnostic} (hentry : (file, items) ∈ l.store.diagnostics.entries) :
    ∃ stdout, l.store.lastReport file = some stdout ∧
      items = Report.diagnostics c.source stdout ∧ ∃ e ∈ sent, e.report? file = some stdout := by
  -- The store is what the applied events make of an empty one.
  obtain ⟨applied, hsent, hstore⟩ := h.store
  have hagrees : l.store.Agrees c := hstore ▸ (Store.agrees_empty c).applyAll applied
  have hdistinct : l.store.diagnostics.Distinct :=
    hstore ▸ Store.distinct_applyAll Store.distinct_empty applied
  have hfind := (hdistinct.mem_iff (e := (file, items))).mp hentry
  have hcurrent : l.store.current file = some items := by
    rw [Store.current, FileTable.get?, ← FileTable.find?, hfind]
    rfl
  rw [hagrees.current] at hcurrent
  obtain ⟨stdout, hlast, rfl⟩ := Option.map_eq_some_iff.mp hcurrent
  refine ⟨stdout, hlast, rfl, ?_⟩
  rw [hstore, Store.lastReport_applyAll] at hlast
  obtain ⟨e, he, hreport⟩ := Event.mem_of_getLast?_reportsFor (hlast.symm.trans Option.or_none).symm
  exact ⟨e, hsent ▸ List.mem_append_left _ he, hreport⟩

/-- A call publishes the diagnostics of a report that was sent. -/
theorem HasApplied.published (h : HasApplied c sent l) {k : Call} {d : Delivery}
    (hd : d ∈ (l.call k).1) {file : FileIdentity} {items : List Diagnostic}
    (hupdate : d.update = .published file items) :
    ∃ e ∈ sent, e.run = d.run ∧ e.file = file ∧ ∃ stdout exit, e.news = .report stdout exit ∧
      items = Report.diagnostics c.source stdout := by
  obtain ⟨applied, broken, hk⟩ := l.call_applies k
  obtain ⟨before, hsent, -⟩ := h.store
  rw [hk.given] at hd
  rcases List.mem_append.mp hd with hd | hd
  · obtain ⟨e, he, rfl⟩ := List.mem_map.mp hd
    rw [h.config] at hupdate
    obtain ⟨stdout, exit, hnews, hfile, hitems⟩ := Event.report_of_answer hupdate
    have hmem : e ∈ l.queue := hk.takes.queue ▸ List.mem_append_left _ he
    refine ⟨e, hsent ▸ List.mem_append_right _ hmem, (e.answer_run _).symm, hfile, stdout, exit,
      hnews, hitems⟩
  · -- The updates for tasks that have broken down are errors.
    obtain ⟨passed, -, rfl⟩ := hk.takes.ended
    obtain ⟨text, htext⟩ := TaskEnd.exists_error_of_mem hd
    cases htext.symm.trans hupdate

/-! ### Main statement -/

/--
After any steps, whatever was sent, each entry of the store belongs to the last report for its file,
and each update that a call publishes belongs to the report of its run. All diagnostics of the entry
or update are well formed, and they tell the findings of that report, all of them and in order.
-/
theorem diagnostics_are_wellFormed (h : Steps { config := c } sent l) :
    (∀ file items, (file, items) ∈ l.store.diagnostics.entries →
      ∃ stdout, l.store.lastReport file = some stdout ∧
        (∃ e ∈ sent, e.report? file = some stdout) ∧
        (∀ d ∈ items, d.IsWellFormed c.source) ∧
        items.map Diagnostic.finding? = (Report.findings stdout).map some) ∧
    ∀ k, ∀ delivery ∈ (l.call k).1, ∀ file items, delivery.update = .published file items →
      ∃ e ∈ sent, e.run = delivery.run ∧ ∃ stdout, e.report? file = some stdout ∧
        (∀ d ∈ items, d.IsWellFormed c.source) ∧
        items.map Diagnostic.finding? = (Report.findings stdout).map some := by
  refine ⟨?_, ?_⟩
  · intro file items hentry
    obtain ⟨stdout, hlast, rfl, hreport⟩ := h.hasApplied.mem_entries hentry
    refine ⟨stdout, hlast, hreport, ?_, Report.map_finding?_diagnostics c.source stdout⟩
    intro d hd
    exact Report.isWellFormed_of_mem_diagnostics hd
  · intro k delivery hdelivery file items hupdate
    obtain ⟨e, he, hrun, rfl, stdout, exit, hnews, rfl⟩ :=
      h.hasApplied.published hdelivery hupdate
    refine ⟨e, he, hrun, stdout, ?_, ?_, Report.map_finding?_diagnostics c.source stdout⟩
    · rw [Event.report?, hnews]
      exact if_pos (FileIdentity.same_refl e.file)
    · intro d hd
      exact Report.isWellFormed_of_mem_diagnostics hd

/-- A report with one finding, once it has been taken. -/
theorem diagnostics_are_wellFormed_one :
    ∃ (file : FileIdentity) (sent : List Event) (l : Linter) (items : List Diagnostic),
      Steps { config := {} } sent l ∧ (file, items) ∈ l.store.diagnostics.entries ∧
      items.length = 1 ∧ (∀ d ∈ items, d.IsWellFormed "pylint") ∧
      items.map Diagnostic.finding? =
        (Report.findings "a.py:3:7: E0602: undefined x ").map some := by
  let file : FileIdentity := ⟨⟨"/"⟩, by decide⟩
  let raw := "a.py:3:7: E0602: undefined x "
  have sent := Steps.refl.snoc
    (.sent (l := { config := {} }) (e := ⟨0, file, .report raw (some 0)⟩) rfl)
  have taken := sent.snoc (.called (.poll 3))
  have hentry : (file, Report.diagnostics "pylint" raw) ∈
      [(file, Report.diagnostics "pylint" raw)] := List.mem_singleton_self _
  obtain ⟨stdout, hlast, -, hform, hfindings⟩ := (diagnostics_are_wellFormed taken).1 _ _ hentry
  have hreport := (FileTable.get?_insert .empty file file raw).trans
    (if_pos (FileIdentity.same_refl file))
  obtain rfl : stdout = raw := Option.some.inj (hlast.symm.trans hreport)
  exact ⟨file, _, _, _, taken, hentry, by decide +kernel, hform, hfindings⟩

end Linter

end SaveLint
