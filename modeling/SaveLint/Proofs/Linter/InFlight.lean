import SaveLint.Proofs.Linter.Deliveries

/-!
# The counter of runs in flight

The linter counts the runs that were started and not yet reported as finished. A run is taken off
the counter when its last event is applied or its broken task is noticed, so in every state the
counter stands for three kinds of runs: the live ones, those whose last event is in the queue, and
those whose task has broken down and was not yet noticed (`Counted`).

Hence the counter is zero exactly when nothing of that kind is left, and `next` may stop then: a
warning that were still in the queue would be followed there by the last event of its run.
-/

namespace SaveLint.Pipeline

variable {c : Analyzer.Config} {labels : List Label} {p q : Pipeline}

/-! ### The invariant -/

/-- The counter stands for the runs that were not yet reported as finished. -/
def Counted (p : Pipeline) : Prop :=
  p.linter.inFlight =
    p.live.length + p.linter.queue.countP (·.news.isLast) + p.linter.ended.countP TaskEnd.isDeath

theorem Counted.start (h : Counted p) (file : FileIdentity) (run : Analyzer.Run) :
    Counted (p.start file run) := by
  simp only [Counted, Pipeline.start, Linter.started, List.length_append, List.length_singleton]
    at h ⊢
  omega

theorem isLast_of_news? {ending : Analyzer.Ending} {news : News} (h : ending.news? = some news) :
    news.isLast = true := by
  cases ending <;> cases h <;> rfl

theorem Counted.moves {sent : List Event} (h : Counted p) (hm : p.Moves sent q) : Counted q := by
  cases hm with
  | chunk live left room =>
      simpa [Counted, live, News.isLast] using h
  | last live left ending room =>
      have hlast := isLast_of_news? ending
      simp only [Counted, live, List.length_append, List.length_cons] at h
      simp [Counted, hlast, TaskEnd.isDeath]
      omega
  | death live left ending =>
      simp only [Counted, live, List.length_append, List.length_cons] at h
      simp [Counted, TaskEnd.isDeath]
      omega

theorem Counted.takes {l : Linter} {applied : List Event} {broken : List Delivery}
    (h : Counted p) (ht : p.linter.Takes applied broken l) :
    Counted { p with linter := l } := by
  obtain ⟨passed, hp, hb⟩ := ht.ended
  have hbroken : broken.length = passed.countP TaskEnd.isDeath := by
    rw [hb, TaskEnd.length_filterMap_failure?]
  rw [Counted, ht.queue, hp, List.countP_append, List.countP_append] at h
  show l.inFlight =
    p.live.length + l.queue.countP (·.news.isLast) + l.ended.countP TaskEnd.isDeath
  rw [ht.inFlight, h, hbroken]
  omega

theorem Counted.step {label : Label} (h : Counted p) (hs : Step p label q) : Counted q := by
  cases label with
  | started file run => cases hs; exact h.start file run
  | refused => cases hs; exact h
  | ran sent => exact h.moves hs.moves
  | took queued broken =>
      obtain ⟨applied, l, -, ht, rfl⟩ := hs.takes
      exact h.takes ht

theorem Steps.counted (h : Steps (.ofConfig c) labels p) : Counted p := by
  induction h with
  | refl => rfl
  | snoc _ step ih => exact ih.step step

/-! ### What the counter tells -/

/-- Events that are applied leave room on the counter for the events and tasks that are left. -/
theorem Counted.le_inFlight_pollQueue (h : Counted p) (budget : Nat) :
    (p.linter.queue.drop budget).countP (·.news.isLast) + p.linter.ended.countP TaskEnd.isDeath ≤
      (Linter.pollQueue budget p.linter).2.inFlight := by
  obtain ⟨-, -, -, -, hi⟩ := Linter.pollQueue_spec budget p.linter
  rw [Counted, ← List.take_append_drop budget p.linter.queue, List.countP_append] at h
  omega

theorem next_eq_idle_iff (l : Linter) : l.next.1 = .idle ↔ l.inFlight = 0 := by
  rcases l.next_cases with ⟨h0, hn⟩ | ⟨_, _, h0, hn, -⟩ | ⟨_, _, h0, -, hn, -⟩ |
    ⟨_, h0, -, -, hn, -⟩ <;> simp [hn, h0]

/-- When no run is live, whatever is in flight has something ready. -/
theorem Counted.next_eq_update (h : Counted p) (hflight : 0 < p.linter.inFlight)
    (hlive : p.live = []) : ∃ d, p.linter.next.1 = .update d := by
  rcases p.linter.next_cases with ⟨h0, -⟩ | ⟨_, _, -, hn, -⟩ | ⟨_, _, -, -, hn, -⟩ |
    ⟨_, -, hq, hf, -, -⟩
  · omega
  · exact ⟨_, by rw [hn]⟩
  · exact ⟨_, by rw [hn]⟩
  · have hdeath : p.linter.ended.countP TaskEnd.isDeath = 0 := by
      rw [← TaskEnd.length_filterMap_failure?]
      exact List.length_eq_zero_iff.mpr hf
    rw [Counted, hlive, hq, hdeath] at h
    exact absurd h (Nat.ne_of_gt hflight)

/-- An event that is not the last one of its run is not the last thing the run is owed. -/
theorem Tracked.queue_eq_nil (h : Tracked c labels p) (hlive : p.live = [])
    (hfailures : p.linter.failures = [])
    (hqueue : ∀ e ∈ p.linter.queue, e.news.isLast = false) : p.linter.queue = [] := by
  rcases List.eq_nil_or_concat p.linter.queue with hnil | ⟨init, e, hq⟩
  · exact hnil
  rw [List.concat_eq_append] at hq
  have hruns := h.runs e.run
  have hanswer : updatesOf e.run [Event.answer c e] = [(Event.answer c e).update] :=
    updatesOf_eq_map fun d hd => by rw [List.mem_singleton.mp hd, Event.answer_run]
  rw [owed, hlive, hfailures, h.config, hq, List.map_append, List.flatMap_nil, List.append_nil,
    List.append_nil, ← List.append_assoc, updatesOf_append, List.map_singleton, hanswer] at hruns
  have hlast : (Event.answer c e).update.isLast = false := by
    rw [Event.isLast_answer]
    exact hqueue e (by simp [hq])
  unfold expected at hruns
  split at hruns
  · rename_i file run _
    obtain ⟨-, hend⟩ := List.append_inj' hruns rfl
    rw [List.singleton_inj.mp hend, Analyzer.Ending.isLast_update] at hlast
    cases hlast
  · simp at hruns

/-! ### Main statement -/

/--
After any steps of the pipeline the counter is the number of live runs, last events in the queue and
broken tasks that were not yet noticed. So no call takes a run off an empty counter, neither for a
queued event (in the state that the events before it have left) nor for a broken task (after the
events of the same call); `next` stops exactly at zero, and does not wait when no run is live; and
when it stops, the queue is empty and every run has had all of its updates.
-/
theorem inFlight_counts_unfinished (h : Steps (.ofConfig c) labels p) :
    p.linter.inFlight = p.live.length + p.linter.queue.countP (·.news.isLast) +
      p.linter.ended.countP TaskEnd.isDeath ∧
    (∀ budget e rest, (Linter.pollQueue budget p.linter).2.queue = e :: rest →
      e.news.isLast = true → 0 < (Linter.pollQueue budget p.linter).2.inFlight) ∧
    (∀ budget n, (Linter.noticed n p.linter.ended).1.length ≤
      (Linter.pollQueue budget p.linter).2.inFlight) ∧
    (p.linter.next.1 = .idle ↔ p.linter.inFlight = 0) ∧
    (0 < p.linter.inFlight → p.live = [] → ∃ d, p.linter.next.1 = .update d) ∧
    (p.linter.next.1 = .idle → p.linter.queue = [] ∧
      ∀ n file run, (startedIn labels)[n]? = some (file, run) →
        updatesOf n (givenIn labels) = run.updates c n file) := by
  have hc := h.counted
  refine ⟨hc, ?_, ?_, next_eq_idle_iff _, hc.next_eq_update, ?_⟩
  · intro budget e rest hq hlast
    obtain ⟨-, -, hr, -, -⟩ := Linter.pollQueue_spec budget p.linter
    have hle := hc.le_inFlight_pollQueue budget
    rw [← hr, hq] at hle
    have hpos : 0 < (e :: rest).countP (·.news.isLast) :=
      List.countP_pos_iff.mpr ⟨e, List.mem_cons_self, hlast⟩
    omega
  · intro budget n
    have hle := hc.le_inFlight_pollQueue budget
    rw [Linter.noticed_fst, List.length_take, TaskEnd.length_filterMap_failure?]
    omega
  · intro hidle
    have ht := h.tracked
    have hzero : p.linter.inFlight = 0 := (next_eq_idle_iff _).mp hidle
    rw [Counted, hzero] at hc
    have hlive : p.live = [] := List.length_eq_zero_iff.mp (by omega)
    have hfailures : p.linter.failures = [] := by
      rw [← List.length_eq_zero_iff, Linter.failures, TaskEnd.length_filterMap_failure?]
      omega
    have hlast : p.linter.queue.countP (·.news.isLast) = 0 := by omega
    have hqueue : p.linter.queue = [] :=
      ht.queue_eq_nil hlive hfailures (by simpa using hlast)
    refine ⟨hqueue, fun n file run hn => ?_⟩
    have hruns := ht.runs n
    rw [owed, hqueue, hlive, hfailures, expected, hn] at hruns
    simpa using hruns

/-- A run has sent its report and another one has broken down: both are in flight, none is live. -/
theorem inFlight_counts_unfinished_two :
    ∃ (labels : List Label) (p : Pipeline), Steps (.ofConfig {}) labels p ∧
      p.linter.inFlight = 2 ∧ p.live = [] ∧ p.linter.ended.length = 2 ∧
      p.linter.inFlight = p.live.length + p.linter.queue.countP (·.news.isLast) +
        p.linter.ended.countP TaskEnd.isDeath ∧
      ∃ d, p.linter.next.1 = .update d := by
  have named := Machine.identity?_root {}
  have accepted : (ofConfig {}).linter.accepts "python" = true := by decide
  have first : Steps (.ofConfig {}) _ _ :=
    .snoc .refl (.start ⟨[], .report "" (some 0)⟩ accepted named)
  have started := first.snoc (.start ⟨[], .died "boom"⟩ accepted named)
  have ended := (started.snoc (.run (k := 1) rfl (List.append_nil _).symm)).snoc
    (@Step.run _ _ 0 [_] rfl rfl)
  obtain ⟨count, -, -, -, ready, -⟩ := inFlight_counts_unfinished ended
  exact ⟨_, _, ended, rfl, rfl, rfl, count, ready (by decide) rfl⟩

end SaveLint.Pipeline
