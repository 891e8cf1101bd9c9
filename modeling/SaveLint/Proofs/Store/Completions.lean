import SaveLint.Proofs.Linter.Applied
import SaveLint.Proofs.Store.Snapshot

/-!
# The reports of a file decide what the store holds for it

What the store holds for a file after some events depends on the reports for this file alone, and on
their order (`Store.find?_applyAll`). Two sequences of events in which every file has the same
reports in the same order therefore leave the same store, up to the order of its entries, and the
same snapshot (`Store.snapshot_applyAll_eq`).

When all reports are for different files, the entries are the reports in their order
(`Store.entries_applyAll`).
-/

namespace SaveLint

variable {c : Analyzer.Config} {es more : List Event} {file : FileIdentity} {s s' : Store}

/-! ### The reports of one file among others -/

/-- The events among some that bring a report for a file. -/
def completionsOf (file : FileIdentity) (es : List Event) : List Event :=
  es.filter fun e => (e.report? file).isSome

theorem Event.same_of_report? {e : Event} (h : (e.report? file).isSome = true) :
    e.file.same file = true := by
  unfold report? at h
  split at h
  · split at h
    · assumption
    · cases h
  · cases h
  · cases h

theorem reportsFor_completionsOf (file : FileIdentity) (es : List Event) :
    reportsFor file (completionsOf file es) = reportsFor file es := by
  rw [reportsFor, completionsOf, List.filterMap_filter, reportsFor]
  congr 1
  funext e
  cases e.report? file <;> rfl

namespace Store

/-- A report gives its file new diagnostics, and it changes nothing for other files. -/
theorem find?_apply (s : Store) (e : Event) (file : FileIdentity) :
    (s.apply c e).diagnostics.find? file =
      match e.report? file with
      | some report =>
        some (((s.diagnostics.find? file).map (·.1)).getD e.file,
          Report.diagnostics c.source report)
      | none => s.diagnostics.find? file := by
  obtain ⟨run, id, news⟩ := e
  cases news with
  | stderr chunk => rfl
  | failed why => rfl
  | report stdout exit =>
      show (s.diagnostics.insert id (Report.diagnostics c.source stdout)).find? file = _
      rw [FileTable.find?_insert, Event.report?]
      by_cases h : id.same file = true <;> simp only [h] <;> rfl

/-- The entry for a file depends on the entry before and on the reports for this file. -/
theorem find?_applyAll (h : s.diagnostics.find? file = s'.diagnostics.find? file)
    (es : List Event) :
    (s.applyAll c es).diagnostics.find? file =
      (s'.applyAll c (completionsOf file es)).diagnostics.find? file := by
  -- The two stores go on being the same at this file only, so both vary in the induction.
  induction es generalizing s s' with
  | nil => exact h
  | cons e es ih =>
      have hfirst := s.find?_apply (c := c) e file
      cases hreport : e.report? file with
      | none =>
          have hskip : completionsOf file (e :: es) = completionsOf file es := by
            simp [completionsOf, hreport]
          rw [hreport] at hfirst
          rw [hskip]
          exact ih (hfirst.trans h)
      | some report =>
          have hkeep : completionsOf file (e :: es) = e :: completionsOf file es := by
            simp [completionsOf, hreport]
          have hsecond := s'.find?_apply (c := c) e file
          rw [hreport] at hfirst hsecond
          rw [hkeep]
          apply ih
          rw [hfirst, hsecond, h]

theorem distinct_apply (h : s.diagnostics.Distinct) (e : Event) :
    (s.apply c e).diagnostics.Distinct := by
  unfold apply
  split
  · exact h.insert _ _
  · exact h
  · exact h

theorem distinct_applyAll (h : s.diagnostics.Distinct) (es : List Event) :
    (s.applyAll c es).diagnostics.Distinct := by
  induction es generalizing s with
  | nil => exact h
  | cons e es ih => exact ih (distinct_apply h e)

theorem distinct_empty : ({} : Store).diagnostics.Distinct := List.Pairwise.nil

section SameReports

variable (h : ∀ file, completionsOf file es = completionsOf file more)
include h

/-- The store holds the same for every file if its reports are the same, in the same order. -/
theorem lookups_applyAll_eq (c : Analyzer.Config) (file : FileIdentity) :
    (applyAll c {} es).current file = (applyAll c {} more).current file ∧
      (applyAll c {} es).lastReport file = (applyAll c {} more).lastReport file := by
  have hreports : reportsFor file es = reportsFor file more := by
    rw [← reportsFor_completionsOf, h, reportsFor_completionsOf]
  constructor
  · rw [current_applyAll, current_applyAll, hreports]
  · rw [lastReport_applyAll, lastReport_applyAll, hreports]

theorem snapshot_applyAll_eq (c : Analyzer.Config) :
    (applyAll c {} es).snapshot = (applyAll c {} more).snapshot := by
  have hdistinct := distinct_applyAll (c := c) distinct_empty es
  refine snapshot_eq_of_perm hdistinct
    (FileTable.perm_of_find? hdistinct (distinct_applyAll distinct_empty more) ?_)
  intro file
  rw [find?_applyAll rfl es, find?_applyAll rfl more, h]

end SameReports

end Store

/-! ### Reports for different files -/

/-- The diagnostics that an event brings, with their file. -/
def Event.brought? (c : Analyzer.Config) (e : Event) : Option (FileIdentity × List Diagnostic) :=
  match e.news with
  | .report stdout _ => some (e.file, Report.diagnostics c.source stdout)
  | .stderr _ => none
  | .failed _ => none

/-- Only the last event of a run brings diagnostics, and it brings them for its file. -/
theorem Event.of_brought? {e : Event} {new : FileIdentity × List Diagnostic}
    (h : e.brought? c = some new) : e.news.isLast = true ∧ new.1 = e.file := by
  obtain ⟨run, file, news⟩ := e
  cases news with
  | stderr chunk => cases h
  | failed why => cases h
  | report stdout exit =>
      cases h
      exact ⟨rfl, rfl⟩

theorem Store.entries_apply (e : Event)
    (h : ∀ new ∈ e.brought? c, ∀ old ∈ s.diagnostics.entries, old.1.same new.1 = false) :
    (s.apply c e).diagnostics.entries = s.diagnostics.entries ++ (e.brought? c).toList := by
  obtain ⟨run, file, news⟩ := e
  cases news with
  | stderr chunk => exact (List.append_nil _).symm
  | failed why => exact (List.append_nil _).symm
  | report stdout exit => exact FileTable.insertEntry_of_not_same (h _ rfl) _

/-- Reports for files that are all different are the entries of the store, in their order. -/
theorem Store.entries_applyAll
    (h : (s.diagnostics.entries ++ es.filterMap (Event.brought? c)).Pairwise
      fun a b => a.1.same b.1 = false) :
    (s.applyAll c es).diagnostics.entries =
      s.diagnostics.entries ++ es.filterMap (Event.brought? c) := by
  induction es generalizing s with
  | nil => exact (List.append_nil _).symm
  | cons e es ih =>
      have hsplit : (e :: es).filterMap (Event.brought? c) =
          (e.brought? c).toList ++ es.filterMap (Event.brought? c) := by
        cases hbrought : e.brought? c <;> simp [hbrought]
      rw [hsplit, ← List.append_assoc] at h ⊢
      have hentries : (s.apply c e).diagnostics.entries =
          s.diagnostics.entries ++ (e.brought? c).toList := by
        apply entries_apply
        intro new hnew old hold
        have hfirst := (List.pairwise_append.mp h).1
        exact (List.pairwise_append.mp hfirst).2.2 old hold new (Option.mem_toList.mpr hnew)
      rw [← hentries] at h ⊢
      exact ih h

end SaveLint
