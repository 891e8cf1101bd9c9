import SaveLint.Proofs.Linter.Runs
import SaveLint.Proofs.Store.Completions
import SaveLint.Proofs.Terminal.Calls

/-!
# What is listed in the end

Every run has one update for its end, which lists its report or is an error, and a listing goes
through if the report has no finding in the last column (`Steps.isListable_of_mem_givenIn`). Once no
run is in flight, all reports were listed; and when the files of all runs are different, the store
holds what was listed and nothing else (`Steps.countHeld_eq`).
-/

namespace SaveLint

variable {c : Analyzer.Config}

/-! ### Updates for the ends of runs -/

/-- The update for the end of a run is a listing or an error. -/
theorem Update.countP_isLast (us : List Update) :
    us.countP Update.isLast = us.countP Update.isPublished + us.countP Update.isError := by
  induction us with
  | nil => rfl
  | cons u us ih =>
      rw [List.countP_cons, List.countP_cons, List.countP_cons, ih]
      cases u <;> simp [Update.isLast, Update.isPublished, Update.isError] <;> omega

theorem Analyzer.Run.countP_isLast_updates (c : Analyzer.Config) (number : Nat)
    (file : FileIdentity) (run : Analyzer.Run) :
    (run.updates c number file).countP Update.isLast = 1 := by
  have hnone : (run.chunks.map fun chunk =>
      Update.warning (Linter.label c ++ " Error: " ++ chunk)).countP Update.isLast = 0 := by
    rw [List.countP_map, List.countP_eq_zero]
    intro chunk _ h
    cases h
  rw [Run.updates, List.countP_append, hnone, List.countP_singleton,
    Analyzer.Ending.isLast_update]
  rfl

/-- Whether the listing of a run's report, if there is one, stays below the last column. -/
def Analyzer.Ending.IsListable : Analyzer.Ending → Prop
  | report stdout _ => ∀ f ∈ Report.findings stdout, f.column.toNat + 1 < UInt32.size
  | failed _ => True
  | died _ => True

/-- For a given report the findings can be tried one by one. -/
theorem Analyzer.Ending.isListable_report {stdout : String} {exit : Option Int}
    (h : (Report.findings stdout).all Finding.isListable = true) :
    (report stdout exit).IsListable := by
  intro f hf
  exact Finding.isListable_iff.mp (List.all_eq_true.mp h f hf)

namespace Pipeline

variable {labels : List Label} {p : Pipeline}

theorem isListable_update {c : Analyzer.Config} {number : Nat} {file : FileIdentity}
    {ending : Analyzer.Ending} (h : ending.IsListable) :
    (ending.update c number file).isListable = true := by
  cases ending with
  | failed why => rfl
  | died message => rfl
  | report stdout exit =>
      show (Report.diagnostics c.source stdout).all Diagnostic.isListable = true
      rw [Report.diagnostics, List.all_map, List.all_eq_true]
      intro f hf
      rw [Function.comp, Diagnostic.isListable_ofFinding, Finding.isListable_iff]
      exact h f hf

/-- Every update is a warning, or it is for the end of a run that was started. -/
theorem Steps.isListable_of_mem_givenIn (h : Steps (.ofConfig c) labels p)
    (hruns : ∀ start ∈ startedIn labels, start.2.ending.IsListable) {d : Delivery}
    (hd : d ∈ givenIn labels) : d.update.isListable = true := by
  have hmem : d.update ∈ expected c (startedIn labels) d.run := by
    rw [← h.tracked.runs d.run, updatesOf_append]
    apply List.mem_append_left
    apply List.mem_map_of_mem
    exact List.mem_filter.mpr ⟨hd, beq_self_eq_true _⟩
  unfold expected at hmem
  split at hmem
  · rename_i file run hstart
    rcases List.mem_append.mp hmem with hmem | hmem
    · obtain ⟨chunk, -, hchunk⟩ := List.mem_map.mp hmem
      rw [← hchunk]
      rfl
    · rw [List.mem_singleton.mp hmem]
      exact isListable_update (hruns _ (List.mem_of_getElem? hstart))
  · cases hmem

theorem Steps.isListable_updates (h : Steps (.ofConfig c) labels p)
    (hruns : ∀ start ∈ startedIn labels, start.2.ending.IsListable) :
    ∀ u ∈ (givenIn labels).map (·.update), u.isListable = true := by
  intro u hu
  obtain ⟨d, hd, rfl⟩ := List.mem_map.mp hu
  exact h.isListable_of_mem_givenIn hruns hd

/-! ### What was listed -/

/-- The diagnostics that updates list, all in one row. -/
theorem flatMap_items_answers (c : Analyzer.Config) (es : List Event) :
    (es.map (Event.answer c)).flatMap (·.update.items) =
      (es.filterMap (Event.brought? c)).flatMap (·.2) := by
  induction es with
  | nil => rfl
  | cons e es ih =>
      obtain ⟨run, file, news⟩ := e
      rw [List.map_cons, List.flatMap_cons, ih]
      cases news <;> rfl

/-- Only updates for queued events list diagnostics. -/
theorem Steps.flatMap_items (h : Steps (.ofConfig c) labels p) :
    (givenIn labels).flatMap (·.update.items) = (queuedIn labels).flatMap (·.update.items) := by
  induction h with
  | refl => rfl
  | @snoc labels label p q steps step ih =>
      rw [givenIn_concat, queuedIn_concat, List.flatMap_append, List.flatMap_append, ih]
      congr 1
      cases label with
      | started file run => rfl
      | refused => rfl
      | ran sent => rfl
      | took queued broken =>
          obtain ⟨applied, l, -, ht, -⟩ := step.takes
          obtain ⟨passed, -, hbroken⟩ := ht.ended
          have hnone : broken.flatMap (·.update.items) = [] := by
            rw [List.flatMap_eq_nil_iff]
            intro d hd
            obtain ⟨text, htext⟩ := TaskEnd.exists_error_of_mem (hbroken ▸ hd)
            rw [htext]
            rfl
          rw [Label.given, Label.queued, List.flatMap_append, hnone, List.append_nil]

section Finished

variable (h : Steps (.ofConfig c) labels p) (hzero : p.linter.inFlight = 0)
include h hzero

/-- In the end everything that reports have brought was listed. -/
theorem Steps.flatMap_items_sentIn : (givenIn labels).flatMap (·.update.items) =
    ((sentIn labels).filterMap (Event.brought? c)).flatMap (·.2) := by
  obtain ⟨-, hqueue, -⟩ := h.finished hzero
  obtain ⟨applied, hsent, hqueued⟩ := h.tracked.queue
  rw [hqueue, List.append_nil] at hsent
  rw [h.flatMap_items, hqueued, hsent, flatMap_items_answers]

/-- The files of the reports are all different if those of the runs are. -/
theorem Steps.pairwise_brought
    (hfiles : ((startedIn labels).map (·.1)).Pairwise fun a b => a.same b = false) :
    ((sentIn labels).filterMap (Event.brought? c)).Pairwise fun a b => a.1.same b.1 = false := by
  rw [List.pairwise_filterMap]
  refine List.Pairwise.imp_of_mem ?_ (h.pairwise_sentIn hzero)
  intro e e' he he' hruns b hb b' hb'
  obtain ⟨run, hstart⟩ := h.started_of_mem_sentIn he
  obtain ⟨run', hstart'⟩ := h.started_of_mem_sentIn he'
  obtain ⟨hlast, hfile⟩ := Event.of_brought? hb
  obtain ⟨hlast', hfile'⟩ := Event.of_brought? hb'
  have hdiffer := FileIdentity.same_eq_false_of_pairwise hfiles hstart hstart' (hruns hlast hlast')
  rw [hfile, hfile']
  exact hdiffer

/-- The store holds as much as was listed, if the files of all runs are different. -/
theorem Steps.countHeld_eq
    (hfiles : ((startedIn labels).map (·.1)).Pairwise fun a b => a.same b = false)
    (severity : Severity) : p.linter.store.countHeld severity =
      ((givenIn labels).flatMap (·.update.items)).countP (·.severity == severity) := by
  have hentries : (Store.applyAll c {} (sentIn labels)).diagnostics.entries =
      (sentIn labels).filterMap (Event.brought? c) :=
    Store.entries_applyAll (s := {}) (h.pairwise_brought hzero hfiles)
  rw [h.flatMap_items_sentIn hzero, Store.countHeld, Store.held, h.store_eq hzero, hentries]

end Finished

end Pipeline

end SaveLint
