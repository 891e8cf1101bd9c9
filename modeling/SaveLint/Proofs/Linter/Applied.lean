import SaveLint.Proofs.Linter.Deliveries

/-!
# The store and the applied reports

The store is a function of the events that were applied, in their order (`Store.applyAll`). For
every file it holds the last report among them (`Store.lastReport_applyAll`) and the diagnostics of
that report (`Store.Agrees`). Events that are no reports, reports of other files and broken tasks do
not change what it holds for a file.

Which events the linter receives is left open here: `Linter.Step` lets anyone send anything. The
steps of a pipeline are among these steps (`Pipeline.Steps.linter`).
-/

namespace SaveLint

/-! ### The store after some events -/

/-- The report that an event brings for a file. -/
def Event.report? (file : FileIdentity) (e : Event) : Option String :=
  match e.news with
  | .report stdout _ => if e.file.same file then some stdout else none
  | .stderr _ => none
  | .failed _ => none

/-- The reports for a file among some events, in their order. -/
def reportsFor (file : FileIdentity) (es : List Event) : List String :=
  es.filterMap (Event.report? file)

namespace Store

variable {c : Analyzer.Config} {s : Store}

/-- The store after an event was applied. -/
def apply (c : Analyzer.Config) (s : Store) (e : Event) : Store :=
  match e.news with
  | .report stdout _ =>
    (s.replace e.file (Report.diagnostics c.source stdout)).recordReport e.file stdout
  | .stderr _ => s
  | .failed _ => s

/-- The store after some events were applied. -/
def applyAll (c : Analyzer.Config) (s : Store) (es : List Event) : Store := es.foldl (apply c) s

theorem applyAll_append (es more : List Event) :
    s.applyAll c (es ++ more) = (s.applyAll c es).applyAll c more :=
  List.foldl_append

theorem lastReport_apply (e : Event) (file : FileIdentity) :
    (s.apply c e).lastReport file = (e.report? file).or (s.lastReport file) := by
  unfold apply Event.report?
  split
  · by_cases h : e.file.same file = true
    · rw [if_pos h]
      exact (FileTable.get?_insert _ _ _ _).trans (if_pos h)
    · rw [if_neg h]
      exact (FileTable.get?_insert _ _ _ _).trans (if_neg h)
  · rfl
  · rfl

/-- The last report for a file is the one that is kept. -/
theorem lastReport_applyAll (es : List Event) (file : FileIdentity) :
    (s.applyAll c es).lastReport file = (reportsFor file es).getLast?.or (s.lastReport file) := by
  induction es generalizing s with
  | nil => rfl
  | cons e es ih =>
      calc ((s.apply c e).applyAll c es).lastReport file
        _ = (reportsFor file es).getLast?.or ((e.report? file).or (s.lastReport file)) := by
            rw [ih, lastReport_apply]
        _ = (reportsFor file (e :: es)).getLast?.or (s.lastReport file) := by
            cases h : e.report? file with
            | none =>
                rw [reportsFor, reportsFor, List.filterMap_cons_none h, Option.none_or]
            | some report =>
                rw [reportsFor, reportsFor, List.filterMap_cons_some h, List.getLast?_cons,
                  Option.some_or, Option.or_some, Option.some_or]

/-- The diagnostics of a store are those of its reports. -/
structure Agrees (c : Analyzer.Config) (s : Store) : Prop where
  current : ∀ file, s.current file = (s.lastReport file).map (Report.diagnostics c.source)
  keys : s.diagnostics.keys = s.reports.keys

theorem agrees_empty (c : Analyzer.Config) : ({} : Store).Agrees c where
  current := fun _ => rfl
  keys := rfl

theorem Agrees.apply (h : s.Agrees c) (e : Event) : (s.apply c e).Agrees c := by
  unfold Store.apply
  split
  · rename_i stdout exit _
    constructor
    case current =>
      intro file
      show (s.diagnostics.insert e.file _).get? file = ((s.reports.insert e.file _).get? file).map _
      rw [FileTable.get?_insert, FileTable.get?_insert]
      split
      · rfl
      · exact h.current file
    case keys => exact FileTable.keys_insert_congr h.keys e.file _ _
  · exact h
  · exact h

theorem Agrees.applyAll (h : s.Agrees c) (es : List Event) : (s.applyAll c es).Agrees c := by
  induction es generalizing s with
  | nil => exact h
  | cons e es ih => exact ih (h.apply e)

/-- After some events, from the empty store on, the diagnostics are those of the last report. -/
theorem current_applyAll (c : Analyzer.Config) (es : List Event) (file : FileIdentity) :
    (applyAll c {} es).current file =
      (reportsFor file es).getLast?.map (Report.diagnostics c.source) := by
  rw [((agrees_empty c).applyAll es).current, lastReport_applyAll]
  exact congrArg _ Option.or_none

end Store

namespace Linter

/-! ### Calls -/

theorem handle_store (l : Linter) (e : Event) :
    (l.handle e).1.store = l.store.apply l.config e := by
  obtain ⟨run, file, news⟩ := e
  cases news <;> rfl

theorem pollQueue_store (budget : Nat) (l : Linter) :
    (pollQueue budget l).2.store = l.store.applyAll l.config (l.queue.take budget) := by
  induction budget generalizing l with
  | zero => rfl
  | succ budget ih =>
      cases hq : l.queue with
      | nil => simp only [pollQueue, hq]; rfl
      | cons e queue =>
          have h := ih (({ l with queue := queue } : Linter).handle e).1
          rw [handle_store, handle_config, handle_queue] at h
          simp only [pollQueue, hq, List.take_succ_cons]
          exact h

theorem poll_store (budget : Nat) (l : Linter) :
    (l.poll budget).2.store = l.store.applyAll l.config (l.queue.take budget) :=
  pollQueue_store budget l

theorem next_store (l : Linter) :
    ∃ applied, l.queue = applied ++ l.next.2.queue ∧
      l.next.2.store = l.store.applyAll l.config applied := by
  unfold next
  split
  · exact ⟨[], rfl, rfl⟩
  · split
    · rename_i e queue hq
      exact ⟨[e], by rw [handle_queue]; exact hq, handle_store { l with queue := queue } e⟩
    · split
      · exact ⟨[], rfl, rfl⟩
      · exact ⟨[], rfl, rfl⟩

/-- The calls of the host. -/
inductive Call where
  | poll (budget : Nat)
  | next

/-- The updates that an answer of `next` holds. -/
def Next.toList : Next → List Delivery
  | .update d => [d]
  | .idle => []
  | .waiting => []

/-- The updates that a call returns, and the linter after it. -/
def call (l : Linter) : Call → List Delivery × Linter
  | .poll budget => l.poll budget
  | .next => (l.next.1.toList, l.next.2)

theorem call_store (l : Linter) (k : Call) :
    ∃ applied, l.queue = applied ++ (l.call k).2.queue ∧
      (l.call k).2.store = l.store.applyAll l.config applied := by
  cases k with
  | poll budget =>
      refine ⟨l.queue.take budget, ?_, l.poll_store budget⟩
      show l.queue = l.queue.take budget ++ (pollQueue budget l).2.queue
      rw [(pollQueue_spec budget l).2.2.1, List.take_append_drop]
  | next => exact l.next_store

theorem call_takes (l : Linter) (k : Call) :
    ∃ applied broken, l.Takes applied broken (l.call k).2 ∧
      (l.call k).1 = applied.map (Event.answer l.config) ++ broken := by
  cases k with
  | poll budget =>
      obtain ⟨applied, broken, ht, -, hgiven⟩ := l.poll_takes budget
      exact ⟨applied, broken, ht, hgiven⟩
  | next =>
      unfold call
      rcases l.next_cases with ⟨-, hn⟩ | ⟨e, l', -, hn, ht⟩ | ⟨d, l', -, -, hn, ht⟩ |
        ⟨l', -, -, -, hn, ht⟩ <;> rw [hn]
      · exact ⟨[], [], .none l, rfl⟩
      · exact ⟨[e], [], ht, rfl⟩
      · exact ⟨[], [d], ht, rfl⟩
      · exact ⟨[], [], ht, rfl⟩

/--
A call applies some events to the store and answers them, and then it gives the updates for some
tasks that have broken down.
-/
structure Applies (l : Linter) (k : Call) (applied : List Event) (broken : List Delivery) :
    Prop where
  takes : l.Takes applied broken (l.call k).2
  given : (l.call k).1 = applied.map (Event.answer l.config) ++ broken
  store : (l.call k).2.store = l.store.applyAll l.config applied

theorem call_applies (l : Linter) (k : Call) : ∃ applied broken, l.Applies k applied broken := by
  obtain ⟨applied, broken, ht, hgiven⟩ := l.call_takes k
  obtain ⟨applied', hqueue, hstore⟩ := l.call_store k
  -- What a call has applied is what it has taken from the queue, in both descriptions.
  have heq : applied' = applied := List.append_cancel_right (hqueue.symm.trans ht.queue)
  exact ⟨applied, broken, ht, hgiven, heq ▸ hstore⟩

/-! ### Steps with any events -/

/-- The steps of a linter that may receive any events, with the events that are sent. -/
inductive Step (l : Linter) : List Event → Linter → Prop where
  /-- A save was accepted; a save that is refused changes nothing. -/
  | started : Step l [] l.started
  /-- An event is sent, by a run or by anyone, and there is room for it. -/
  | sent {e : Event} {l' : Linter} (room : l.send? e = some l') : Step l [e] l'
  /-- A task has returned, or has broken down. -/
  | ended (t : TaskEnd) : Step l [] (l.taskEnded t)
  | called (k : Call) : Step l [] (l.call k).2

/-- Any number of steps, with all events that are sent in order. -/
inductive Steps (l : Linter) : List Event → Linter → Prop where
  | refl : Steps l [] l
  | snoc {sent more : List Event} {l' l'' : Linter} (steps : Steps l sent l')
      (step : Step l' more l'') : Steps l (sent ++ more) l''

variable {c : Analyzer.Config} {sent more : List Event} {l l' : Linter}

theorem Steps.trans (h : Steps l sent l') {l'' : Linter} (h' : Steps l' more l'') :
    Steps l (sent ++ more) l'' := by
  induction h' with
  | refl => rw [List.append_nil]; exact h
  | snoc _ step ih => rw [← List.append_assoc]; exact .snoc ih step

theorem Steps.of_call (k : Call) (h : (l.call k).2 = l') : Steps l [] l' :=
  h ▸ .snoc .refl (.called k)

/-- The store is that of the events that were sent and are not in the queue any more. -/
structure HasApplied (c : Analyzer.Config) (sent : List Event) (l : Linter) : Prop where
  config : l.config = c
  store : ∃ applied, sent = applied ++ l.queue ∧ l.store = Store.applyAll c {} applied

theorem HasApplied.step (h : HasApplied c sent l) (hs : Step l more l') :
    HasApplied c (sent ++ more) l' := by
  obtain ⟨applied, hsent, hstore⟩ := h.store
  cases hs with
  | started =>
      exact ⟨h.config, applied, by rw [List.append_nil]; exact hsent, hstore⟩
  | sent room =>
      obtain ⟨-, rfl⟩ := Pipeline.send?_eq_some room
      exact ⟨h.config, applied, by rw [hsent, List.append_assoc], hstore⟩
  | ended t =>
      exact ⟨h.config, applied, by rw [List.append_nil]; exact hsent, hstore⟩
  | called k =>
      obtain ⟨now, broken, hk⟩ := l.call_applies k
      refine ⟨hk.takes.config.trans h.config, applied ++ now, ?_, ?_⟩
      · rw [List.append_nil, hsent, hk.takes.queue, List.append_assoc]
      · rw [hk.store, h.config, hstore, Store.applyAll_append]

theorem Steps.hasApplied (h : Steps { config := c } sent l) : HasApplied c sent l := by
  induction h with
  | refl => exact ⟨rfl, [], rfl, rfl⟩
  | snoc _ step ih => exact ih.step step

/-! ### Main statement -/

/--
After any steps, whatever was sent and however it was taken, the store holds for every file the last
report among the events that were applied, and the diagnostics of that report and no others. Those
are the events that were sent and are not in the queue any more. Both tables have the same keys.
-/
theorem last_report_is_current (h : Steps { config := c } sent l) :
    ∃ applied, sent = applied ++ l.queue ∧
      (∀ file, l.store.lastReport file = (reportsFor file applied).getLast? ∧
        l.store.current file =
          (reportsFor file applied).getLast?.map (Report.diagnostics c.source)) ∧
      l.store.diagnostics.keys = l.store.reports.keys := by
  obtain ⟨applied, hsent, hstore⟩ := h.hasApplied.store
  have hagrees : l.store.Agrees c := hstore ▸ (Store.agrees_empty c).applyAll applied
  have hreport : ∀ file, l.store.lastReport file = (reportsFor file applied).getLast? := by
    intro file
    rw [hstore, Store.lastReport_applyAll]
    exact Option.or_none
  refine ⟨applied, hsent, ?_, hagrees.keys⟩
  intro file
  refine ⟨hreport file, ?_⟩
  rw [hagrees.current, hreport]

/-- A file is reported on twice, with a warning and a broken task between the reports. -/
theorem last_report_is_current_second :
    ∃ (file : FileIdentity) (sent : List Event) (l : Linter), Steps { config := {} } sent l ∧
      sent.map (·.news) = [.report "first" (some 0), .stderr "oops", .report "second" none] ∧
      l.queue = [] ∧ l.store.lastReport file = some "second" ∧
      l.store.current file = some (Report.diagnostics "pylint" "second") := by
  have hfile : (⟨"/"⟩ : Path).isAbsolute = true := by decide
  have first := Steps.refl.snoc
    (.sent (l := { config := {} }) (e := ⟨0, ⟨⟨"/"⟩, hfile⟩, .report "first" (some 0)⟩) rfl)
  have broken := (first.snoc (.sent (e := ⟨1, ⟨⟨"/"⟩, hfile⟩, .stderr "oops"⟩) rfl)).snoc
    (.ended (.died 1 "boom"))
  have second := (broken.snoc (.called (.poll 3))).snoc
    (.sent (e := ⟨2, ⟨⟨"/"⟩, hfile⟩, .report "second" none⟩) rfl)
  have taken := second.snoc (.called (.poll 3))
  obtain ⟨applied, hsent, hstore, -⟩ := last_report_is_current taken
  have happlied : _ = applied := hsent.trans (List.append_nil applied)
  have hreports : reportsFor ⟨⟨"/"⟩, hfile⟩ applied = ["first", "second"] := by
    rw [← happlied]
    simp [reportsFor, List.filterMap_cons, Event.report?, FileIdentity.same, Path.same]
  obtain ⟨hreport, hcurrent⟩ := hstore ⟨⟨"/"⟩, hfile⟩
  rw [hreports] at hreport hcurrent
  exact ⟨_, _, _, taken, rfl, rfl, hreport, hcurrent⟩

end Linter

/-! ### Steps of pipelines -/

namespace Pipeline

variable {p q : Pipeline}

theorem Moves.linter {sent : List Event} (h : p.Moves sent q) :
    Linter.Steps p.linter sent q.linter := by
  cases h with
  | chunk live left room => exact .snoc .refl (.sent (if_pos room))
  | last live left ending room =>
      exact .snoc (.snoc .refl (.sent (if_pos room))) (.ended _)
  | death live left ending => exact .snoc .refl (.ended _)

theorem Step.linter {label : Label} (h : Step p label q) :
    Linter.Steps p.linter label.sent q.linter := by
  cases label with
  | ran sent => exact h.moves.linter
  | started file run => cases h; exact .snoc .refl .started
  | refused => cases h; exact .refl
  | took queued broken =>
      cases h with
      | poll budget fromQueue all => exact .of_call (.poll budget) (congrArg Prod.snd all)
      | nextQueued queue next => exact .of_call .next (congrArg Prod.snd next)
      | nextBroken queue next => exact .of_call .next (congrArg Prod.snd next)
      | nextNone none next => exact .of_call .next (congrArg Prod.snd next)

/-- The steps of a pipeline are steps of its linter, and its runs send the events. -/
theorem Steps.linter {labels : List Label} (h : Steps p labels q) :
    Linter.Steps p.linter (sentIn labels) q.linter := by
  induction h with
  | refl => exact .refl
  | snoc _ step ih =>
      rw [sentIn_concat]
      exact ih.trans step.linter

end Pipeline

end SaveLint
