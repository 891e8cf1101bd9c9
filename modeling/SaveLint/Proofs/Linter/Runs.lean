import SaveLint.Proofs.Linter.Applied
import SaveLint.Proofs.Linter.Draining

/-!
# What runs have sent in the end

Every run sends its own events in order, whatever other runs send in between (`Sent`). Once no run
is in flight, the events of a run are all there, each run has had exactly one update for its end,
and the store is that of all events.

So the events and the updates of every single run are known in the end, and what is still open is
only how they are interleaved: the updates are known up to their order (`perm_of_updatesOf`).
-/

namespace SaveLint

/-! ### The events of a run -/

/-- The events of a run: one for each chunk, and one for the end unless its task breaks down. -/
def Analyzer.Run.events (number : Nat) (file : FileIdentity) (run : Analyzer.Run) : List Event :=
  run.chunks.map (fun chunk => ⟨number, file, .stderr chunk⟩) ++
    (run.ending.news?.map fun news => ⟨number, file, news⟩).toList

theorem Analyzer.Run.of_mem_events {number : Nat} {file : FileIdentity} {run : Analyzer.Run}
    {e : Event} (h : e ∈ run.events number file) : e.run = number ∧ e.file = file := by
  rcases List.mem_append.mp h with h | h
  · obtain ⟨chunk, -, rfl⟩ := List.mem_map.mp h
    exact ⟨rfl, rfl⟩
  · obtain ⟨news, -, rfl⟩ := Option.map_eq_some_iff.mp (Option.mem_toList.mp h)
    exact ⟨rfl, rfl⟩

theorem Analyzer.Run.countP_isLast_events_le (number : Nat) (file : FileIdentity)
    (run : Analyzer.Run) : (run.events number file).countP (·.news.isLast) ≤ 1 := by
  have hchunks : (run.chunks.map fun chunk => (⟨number, file, .stderr chunk⟩ : Event)).countP
      (·.news.isLast) = 0 := by
    simp [News.isLast]
  rw [events, List.countP_append, hchunks, Nat.zero_add]
  apply Nat.le_trans List.countP_le_length
  cases run.ending.news? <;> simp

/-- What a live run has not sent yet. -/
def LiveRun.unsent (r : LiveRun) : List Event := r.left.events r.number r.file

namespace Pipeline

variable {c : Analyzer.Config} {labels : List Label} {p q : Pipeline}

/-! ### The events of one run among others -/

/-- The events of one run among those of several. -/
def eventsOf (n : Nat) (es : List Event) : List Event := es.filter (·.run == n)

theorem eventsOf_append (n : Nat) (es more : List Event) :
    eventsOf n (es ++ more) = eventsOf n es ++ eventsOf n more :=
  List.filter_append es more

theorem eventsOf_eq_nil {n : Nat} {es : List Event} (h : ∀ e ∈ es, e.run ≠ n) :
    eventsOf n es = [] := by
  simpa [eventsOf] using h

theorem eventsOf_eq_self {n : Nat} {es : List Event} (h : ∀ e ∈ es, e.run = n) :
    eventsOf n es = es := by
  apply List.filter_eq_self.mpr
  intro e he
  exact beq_iff_eq.mpr (h e he)

/-- Events of different runs may change places. -/
theorem eventsOf_comm {n m : Nat} {es more : List Event} (h : ∀ e ∈ es, e.run ≠ m)
    (hmore : ∀ e ∈ more, e.run = m) :
    eventsOf n (es ++ more) = eventsOf n (more ++ es) := by
  rw [eventsOf_append, eventsOf_append]
  by_cases hn : n = m
  · subst hn
    rw [eventsOf_eq_nil h, List.append_nil, List.nil_append]
  · have hnil : eventsOf n more = [] := by
      apply eventsOf_eq_nil
      intro e he
      rw [hmore e he]
      exact Ne.symm hn
    rw [hnil, List.append_nil, List.nil_append]

/-- The events that a run should send; none for a number that no run has. -/
def allEvents (runs : List (FileIdentity × Analyzer.Run)) (n : Nat) : List Event :=
  match runs[n]? with
  | some (file, run) => run.events n file
  | none => []

/-- The run that is started next has the next number. -/
theorem allEvents_concat (runs : List (FileIdentity × Analyzer.Run)) (file : FileIdentity)
    (run : Analyzer.Run) (n : Nat) :
    allEvents (runs ++ [(file, run)]) n =
      allEvents runs n ++ eventsOf n (run.events runs.length file) := by
  by_cases hn : n = runs.length
  · subst hn
    have hself : eventsOf runs.length (run.events runs.length file) =
        run.events runs.length file := by
      apply eventsOf_eq_self
      intro e he
      exact (Analyzer.Run.of_mem_events he).1
    rw [hself, allEvents, allEvents, List.getElem?_concat_length,
      List.getElem?_eq_none (Nat.le_refl _)]
    rfl
  · have hnil : eventsOf n (run.events runs.length file) = [] := by
      apply eventsOf_eq_nil
      intro e he
      rw [(Analyzer.Run.of_mem_events he).1]
      exact Ne.symm hn
    rw [hnil, List.append_nil, allEvents, allEvents]
    rcases Nat.lt_or_gt_of_ne hn with hlt | hgt
    · rw [List.getElem?_append_left hlt]
    · have hlength : (runs ++ [(file, run)]).length ≤ n := by
        rw [List.length_append, List.length_singleton]
        exact hgt
      rw [List.getElem?_eq_none hlength, List.getElem?_eq_none (Nat.le_of_lt hgt)]

/-! ### The invariant -/

/-- For every run, what was sent and what is unsent are its events. -/
def Sent (labels : List Label) (p : Pipeline) : Prop :=
  ∀ n, eventsOf n (sentIn labels ++ p.live.flatMap LiveRun.unsent) =
    allEvents (startedIn labels) n

theorem Sent.start (h : Sent labels p) (hcount : p.count = (startedIn labels).length)
    (file : FileIdentity) (run : Analyzer.Run) :
    Sent (labels ++ [.started file run]) (p.start file run) := by
  intro n
  have hstarted : startedIn (labels ++ [.started file run]) = startedIn labels ++ [(file, run)] :=
    startedIn_concat _ _
  have hsent : sentIn (labels ++ [.started file run]) = sentIn labels := by
    rw [sentIn_concat]
    exact List.append_nil _
  have hlive : (p.start file run).live.flatMap LiveRun.unsent =
      p.live.flatMap LiveRun.unsent ++ run.events p.count file := by
    simp [Pipeline.start, LiveRun.unsent]
  rw [hstarted, allEvents_concat, hsent, hlive, ← List.append_assoc, eventsOf_append, h n, hcount]

/-- What a live run sends is the first of what it had not sent. -/
theorem Moves.unsent {sent : List Event} (h : p.Moves sent q) :
    ∃ before r after rest, p.live = before ++ r :: after ∧ r.unsent = sent ++ rest ∧
      q.live.flatMap LiveRun.unsent =
        before.flatMap LiveRun.unsent ++ rest ++ after.flatMap LiveRun.unsent := by
  cases h with
  | @chunk before after r text texts live left room =>
      refine ⟨before, r, after, LiveRun.unsent { r with left := { r.left with chunks := texts } },
        live, ?_, ?_⟩
      · simp [LiveRun.unsent, Analyzer.Run.events, left]
      · simp
  | @last before after r news live left ending room =>
      refine ⟨before, r, after, [], live, ?_, ?_⟩
      · simp [LiveRun.unsent, Analyzer.Run.events, left, ending]
      · simp
  | @death before after r message live left ending =>
      refine ⟨before, r, after, [], live, ?_, ?_⟩
      · simp [LiveRun.unsent, Analyzer.Run.events, left, ending, Analyzer.Ending.news?]
      · simp

theorem Sent.moves (h : Sent labels p) (nodup : p.numbers.Nodup) {sent : List Event}
    (hm : p.Moves sent q) : Sent (labels ++ [.ran sent]) q := by
  intro n
  obtain ⟨before, r, after, rest, live, hr, hlive⟩ := hm.unsent
  have hown : ∀ e ∈ sent, e.run = r.number := by
    intro e he
    have hmem : e ∈ r.unsent := by
      rw [hr]
      exact List.mem_append_left rest he
    exact (Analyzer.Run.of_mem_events hmem).1
  have hothers : ∀ e ∈ before.flatMap LiveRun.unsent, e.run ≠ r.number := by
    intro e he heq
    obtain ⟨r', hr', he'⟩ := List.mem_flatMap.mp he
    have hnumber : r'.number = r.number := (Analyzer.Run.of_mem_events he').1.symm.trans heq
    rw [numbers, live, List.map_append, List.map_cons, List.append_assoc] at nodup
    exact (List.nodup_append.mp nodup).2.2 _ (List.mem_map_of_mem hr') _ List.mem_cons_self hnumber
  have hstarted : startedIn (labels ++ [.ran sent]) = startedIn labels := by
    rw [startedIn_concat]
    exact List.append_nil _
  have hsplit : p.live.flatMap LiveRun.unsent =
      (before.flatMap LiveRun.unsent ++ sent) ++ (rest ++ after.flatMap LiveRun.unsent) := by
    simp [live, hr]
  -- What is sent passes the live runs before this one, and they have no events of this run.
  have hpassed := eventsOf_comm (n := n) hothers hown
  calc eventsOf n (sentIn (labels ++ [.ran sent]) ++ q.live.flatMap LiveRun.unsent)
    _ = eventsOf n (sentIn labels) ++ eventsOf n (sent ++ before.flatMap LiveRun.unsent) ++
          eventsOf n (rest ++ after.flatMap LiveRun.unsent) := by
        simp only [sentIn_concat, Label.sent, hlive, eventsOf_append, List.append_assoc]
    _ = eventsOf n (sentIn labels ++ p.live.flatMap LiveRun.unsent) := by
        rw [← hpassed, hsplit]
        simp only [eventsOf_append, List.append_assoc]
    _ = allEvents (startedIn (labels ++ [.ran sent])) n := by
        rw [h n, hstarted]

theorem Sent.step (h : Sent labels p) (ht : Tracked c labels p) {label : Label}
    (hs : Step p label q) : Sent (labels ++ [label]) q := by
  cases label with
  | started file run =>
      cases hs
      exact h.start ht.count file run
  | ran sent => exact h.moves ht.nodup hs.moves
  | refused =>
      cases hs
      simpa [Sent, sentIn_concat, startedIn_concat, Label.sent, Label.start?] using h
  | took queued broken =>
      obtain ⟨applied, l, -, -, rfl⟩ := hs.takes
      simpa [Sent, sentIn_concat, startedIn_concat, Label.sent, Label.start?] using h

theorem Steps.sent (h : Steps (.ofConfig c) labels p) : Sent labels p := by
  induction h with
  | refl =>
      intro n
      rfl
  | snoc steps step ih => exact ih.step steps.tracked step

/-- Every event is sent by a run that was started for its file. -/
theorem Steps.started_of_mem_sentIn (h : Steps (.ofConfig c) labels p) {e : Event}
    (he : e ∈ sentIn labels) : ∃ run, (startedIn labels)[e.run]? = some (e.file, run) := by
  have hmem : e ∈ allEvents (startedIn labels) e.run := by
    rw [← h.sent e.run, eventsOf, List.mem_filter]
    exact ⟨List.mem_append_left _ he, beq_self_eq_true _⟩
  cases hstart : (startedIn labels)[e.run]? with
  | none =>
      rw [allEvents, hstart] at hmem
      cases hmem
  | some start =>
      rw [allEvents, hstart] at hmem
      exact ⟨start.2, by rw [(Analyzer.Run.of_mem_events hmem).2]⟩

/-! ### Ends of runs -/

theorem countP_isLast_answers (c : Analyzer.Config) (es : List Event) :
    (es.map (Event.answer c)).countP (·.update.isLast) = es.countP (·.news.isLast) := by
  rw [List.countP_map]
  congr 1
  funext e
  exact e.isLast_answer c

/-- A call takes a run off the counter for each update that is for the end of a run. -/
theorem Counted.countP_isLast (h : Counted p) {l : Linter} {applied : List Event}
    {broken : List Delivery} (ht : p.linter.Takes applied broken l) :
    (applied.map (Event.answer c) ++ broken).countP (·.update.isLast) + l.inFlight =
      p.linter.inFlight := by
  obtain ⟨passed, hpassed, hbroken⟩ := ht.ended
  have hall : broken.countP (·.update.isLast) = broken.length := by
    rw [List.countP_eq_length]
    intro d hd
    obtain ⟨text, htext⟩ := TaskEnd.exists_error_of_mem (hbroken ▸ hd)
    rw [htext]
    rfl
  have hdeaths : passed.countP TaskEnd.isDeath = broken.length := by
    rw [hbroken, TaskEnd.length_filterMap_failure?]
  rw [Counted, ht.queue, hpassed, List.countP_append, List.countP_append] at h
  rw [List.countP_append, countP_isLast_answers, hall, ht.inFlight]
  omega

/-- Every run that was started is in flight or has had the update for its end. -/
theorem Steps.countP_isLast (h : Steps (.ofConfig c) labels p) :
    (givenIn labels).countP (·.update.isLast) + p.linter.inFlight = (startedIn labels).length := by
  induction h with
  | refl => rfl
  | @snoc labels label p q steps step ih =>
      rw [givenIn_concat, startedIn_concat, List.countP_append, List.length_append, ← ih]
      cases label with
      | started file run =>
          cases step
          exact Nat.add_assoc _ _ 1
      | refused =>
          cases step
          rfl
      | ran sent => cases step.moves <;> rfl
      | took queued broken =>
          obtain ⟨applied, l, rfl, ht, rfl⟩ := step.takes
          have hcount := steps.counted.countP_isLast (c := p.linter.config) ht
          simp only [Label.given, Label.start?, Option.toList_none, List.length_nil]
          omega

/-! ### When no run is in flight -/

section Finished

variable (h : Steps (.ofConfig c) labels p) (hzero : p.linter.inFlight = 0)
include h hzero

theorem Steps.eventsOf_sentIn (n : Nat) :
    eventsOf n (sentIn labels) = allEvents (startedIn labels) n := by
  obtain ⟨hlive, -, -⟩ := h.finished hzero
  rw [← h.sent n, hlive, List.flatMap_nil, List.append_nil]

theorem Steps.updatesOf_givenIn (n : Nat) :
    updatesOf n (givenIn labels) = expected c (startedIn labels) n := by
  obtain ⟨hlive, hqueue, hfailures⟩ := h.finished hzero
  rw [← h.tracked.runs n, owed, hlive, hqueue, hfailures]
  simp

/-- The store is that of all events. -/
theorem Steps.store_eq : p.linter.store = Store.applyAll c {} (sentIn labels) := by
  obtain ⟨-, hqueue, -⟩ := h.finished hzero
  obtain ⟨applied, hsent, hstore⟩ := (Linter.Steps.hasApplied h.linter).store
  rw [hqueue, List.append_nil] at hsent
  rw [hstore, hsent]

/-- No two last events are of the same run. -/
theorem Steps.pairwise_sentIn :
    (sentIn labels).Pairwise fun e e' =>
      e.news.isLast = true → e'.news.isLast = true → e.run ≠ e'.run := by
  have hnodup : (((sentIn labels).filter (·.news.isLast)).map (·.run)).Nodup := by
    rw [List.nodup_iff_count]
    intro n
    calc (((sentIn labels).filter (·.news.isLast)).map (·.run)).count n
      _ = (eventsOf n (sentIn labels)).countP (·.news.isLast) := by
          rw [List.count, List.countP_map, List.countP_filter, eventsOf, List.countP_filter]
          congr 1
          funext e
          exact Bool.and_comm _ _
      _ ≤ 1 := by
          rw [h.eventsOf_sentIn hzero, allEvents]
          split
          · exact Analyzer.Run.countP_isLast_events_le _ _ _
          · exact Nat.zero_le 1
  rw [List.Nodup, List.pairwise_map, List.pairwise_filter] at hnodup
  exact hnodup

end Finished

/-! ### Deliveries up to their order -/

/-- A delivery is counted among the updates of its run. -/
theorem count_updatesOf (ds : List Delivery) (d : Delivery) :
    (updatesOf d.run ds).count d.update = ds.count d := by
  induction ds with
  | nil => rfl
  | cons x ds ih =>
      rw [← List.singleton_append, updatesOf_append, List.count_append, List.count_append, ih]
      congr 1
      by_cases hrun : x.run = d.run
      · have hown : updatesOf d.run [x] = [x.update] := by
          apply updatesOf_eq_map
          intro y hy
          rw [List.mem_singleton.mp hy, hrun]
        have hsame : (x.update == d.update) = (x == d) := by
          rw [Bool.eq_iff_iff, beq_iff_eq, beq_iff_eq]
          constructor
          · intro hupdate
            cases x
            cases d
            simp_all only
          · intro heq
            rw [heq]
        rw [hown, List.count_singleton, List.count_singleton, hsame]
      · have hnone : updatesOf d.run [x] = [] := by
          apply updatesOf_eq_nil
          intro y hy
          rw [List.mem_singleton.mp hy]
          exact hrun
        have hne : x ≠ d := by
          intro heq
          exact hrun (congrArg Delivery.run heq)
        rw [hnone, List.count_cons_of_ne hne, List.count_nil, List.count_nil]

/-- Deliveries are the same up to their order if they are the same for each run. -/
theorem perm_of_updatesOf {ds ds' : List Delivery} (h : ∀ n, updatesOf n ds = updatesOf n ds') :
    ds.Perm ds' := by
  rw [List.perm_iff_count]
  intro d
  rw [← count_updatesOf, ← count_updatesOf, h]

end Pipeline

end SaveLint
