import SaveLint.Proofs.Linter.Consumption

/-!
# Draining ends

A drain is nothing but turns (`drain_eq_turns`): first those of the schedule, and then those of the
live runs and of the host until nothing is left. So whatever holds after any turns holds at every
point of a drain, and turns are steps of the pipeline (`steps_of_turns`).

How many updates are still to come (`due`) changes only when one is given. That is why the bound of
a drain is never reached: a drain ends when no run is in flight any more (`drain_inFlight`).
-/

namespace SaveLint.Pipeline

variable {c : Analyzer.Config} {labels more : List Label} {p q r : Pipeline}

/-! ### Turns are steps -/

theorem Steps.trans (h : Steps p labels q) (h' : Steps q more r) : Steps p (labels ++ more) r := by
  induction h' with
  | refl => rw [List.append_nil]; exact h
  | snoc _ step ih => rw [← List.append_assoc]; exact .snoc ih step

theorem Steps.single {label : Label} (h : Step p label q) : Steps p [label] q := .snoc .refl h

theorem startedIn_append (labels more : List Label) :
    startedIn (labels ++ more) = startedIn labels ++ startedIn more :=
  List.filterMap_append

theorem givenIn_append (labels more : List Label) :
    givenIn (labels ++ more) = givenIn labels ++ givenIn more :=
  List.flatMap_append

theorem turns_append (p : Pipeline) (ts ts' : List Turn) :
    p.turns (ts ++ ts') =
      ((p.turns ts).1 ++ ((p.turns ts).2.turns ts').1, ((p.turns ts).2.turns ts').2) := by
  induction ts generalizing p with
  | nil => rfl
  | cons t ts ih => rw [List.cons_append, turns_cons, ih, turns_cons, List.append_assoc]

/-- A turn starts no run, and it gives at most one update. -/
theorem steps_of_turn (p : Pipeline) (t : Turn) :
    ∃ labels, Steps p labels (p.turn t).2 ∧ givenIn labels = (p.turn t).1.toList ∧
      startedIn labels = [] := by
  cases t with
  | run k =>
      cases hmoved : p.advance? k with
      | none =>
          refine ⟨[], ?_, rfl, rfl⟩
          rw [turn, hmoved]
          exact .refl
      | some q =>
          obtain ⟨sent, step⟩ := step_of_advance? hmoved
          refine ⟨[.ran sent], ?_, rfl, rfl⟩
          rw [turn, hmoved]
          exact .single step
  | host =>
      obtain ⟨queued, broken, hgiven, step⟩ := p.step_of_takeNext
      refine ⟨[.took queued broken], .single step, ?_, rfl⟩
      rw [turn, hgiven]
      exact List.append_nil _

theorem steps_of_turns (p : Pipeline) (ts : List Turn) :
    ∃ labels, Steps p labels (p.turns ts).2 ∧ givenIn labels = (p.turns ts).1 ∧
      startedIn labels = [] := by
  induction ts generalizing p with
  | nil => exact ⟨[], .refl, rfl, rfl⟩
  | cons t ts ih =>
      obtain ⟨labels, hsteps, hgiven, hstarted⟩ := p.steps_of_turn t
      obtain ⟨more, hsteps', hgiven', hstarted'⟩ := ih (p.turn t).2
      refine ⟨labels ++ more, hsteps.trans hsteps', ?_, ?_⟩
      · rw [givenIn_append, hgiven, hgiven', turns_cons]
      · rw [startedIn_append, hstarted, hstarted', List.append_nil]

theorem store_turn_run (p : Pipeline) (k : Nat) :
    (p.turn (.run k)).2.linter.store = p.linter.store := by
  cases hmoved : p.advance? k with
  | none =>
      rw [turn, hmoved]
      rfl
  | some q =>
      obtain ⟨sent, hmoves⟩ := moves_of_advance? hmoved
      rw [turn, hmoved]
      exact hmoves.store

/-! ### Draining is taking turns -/

theorem advanceFirst_eq_turns (n : Nat) (p : Pipeline) :
    ∃ ts, p.turns ts = ([], advanceFirst n p) := by
  induction n generalizing p with
  | zero => exact ⟨[], rfl⟩
  | succ n ih =>
      cases hmoved : p.advance? 0 with
      | none => exact ⟨[], by simp [turns, advanceFirst, hmoved]⟩
      | some q =>
          obtain ⟨ts, hts⟩ := ih q
          refine ⟨.run 0 :: ts, ?_⟩
          simp [turns_cons, turn, hmoved, hts, advanceFirst]

theorem takeAll_eq_turns (n : Nat) (p : Pipeline) : ∃ ts, p.turns ts = p.takeAll n := by
  induction n generalizing p with
  | zero => exact ⟨[], rfl⟩
  | succ n ih =>
      obtain ⟨settling, hsettled⟩ := advanceFirst_eq_turns p.stepsLeft p
      have hhost : p.turns (settling ++ [.host]) =
          (p.settle.takeNext.1.toList, p.settle.takeNext.2) := by
        rw [turns_append, hsettled, turns_cons]
        simp [turns, turn, settle]
      cases htake : p.settle.takeNext with
      | mk given q =>
      rw [htake] at hhost
      cases given with
      | none => exact ⟨_, hhost.trans (takeAll_of_none n htake).symm⟩
      | some d =>
          obtain ⟨ts, hts⟩ := ih q
          refine ⟨settling ++ [.host] ++ ts, ?_⟩
          rw [turns_append, hhost, hts, takeAll_of_some n htake]
          rfl

/-- A drain goes on after the turns of its schedule until it stops. -/
theorem drain_eq_turns (p : Pipeline) (schedule : List Turn) :
    ∃ ts, p.turns (schedule ++ ts) = p.drain schedule := by
  obtain ⟨ts, hts⟩ :=
    takeAll_eq_turns ((p.turns schedule).2.updatesLeft + 1) (p.turns schedule).2
  refine ⟨ts, ?_⟩
  rw [turns_append, hts]
  rfl

/-- A drain starts no run. -/
theorem steps_of_drain (p : Pipeline) (schedule : List Turn) :
    ∃ labels, Steps p labels (p.drain schedule).2 ∧ givenIn labels = (p.drain schedule).1 ∧
      startedIn labels = [] := by
  obtain ⟨ts, hts⟩ := p.drain_eq_turns schedule
  rw [← hts]
  exact p.steps_of_turns _

/-! ### What is still to come -/

/-- How many steps some runs have left: one for each chunk and one for the end. -/
def totalSteps : List LiveRun → Nat
  | [] => 0
  | r :: rs => r.left.chunks.length + 1 + totalSteps rs

theorem totalSteps_append (rs rs' : List LiveRun) :
    totalSteps (rs ++ rs') = totalSteps rs + totalSteps rs' := by
  induction rs with
  | nil => exact (Nat.zero_add _).symm
  | cons r rs ih =>
      rw [List.cons_append, totalSteps, totalSteps, ih]
      omega

theorem stepsLeft_eq (p : Pipeline) : p.stepsLeft = totalSteps p.live := by
  unfold stepsLeft
  induction p.live with
  | nil => rfl
  | cons r rs ih => rw [List.foldr_cons, ih, totalSteps]

/-- How many updates are still to come: for queued events, for live runs and for broken tasks. -/
def due (p : Pipeline) : Nat :=
  p.linter.queue.length + totalSteps p.live + p.linter.failures.length

/-- A step of a live run brings its updates nearer, and none is lost. -/
theorem Moves.due {sent : List Event} (h : p.Moves sent q) : q.due = p.due := by
  cases h with
  | chunk live left room =>
      simp [Pipeline.due, Linter.failures, live, totalSteps_append, totalSteps, left]
      omega
  | last live left ending room =>
      simp [Pipeline.due, Linter.failures, live, totalSteps_append, totalSteps, left,
        List.filterMap_cons]
      omega
  | death live left ending =>
      simp [Pipeline.due, Linter.failures, live, totalSteps_append, totalSteps, left]
      omega

theorem due_of_takes {l : Linter} {applied : List Event} {broken : List Delivery}
    (h : p.linter.Takes applied broken l) :
    applied.length + broken.length + due { p with linter := l } = p.due := by
  obtain ⟨passed, hpassed, hbroken⟩ := h.ended
  simp [due, Linter.failures, h.queue, hpassed, hbroken]
  omega

theorem Step.due {label : Label} (h : Step p label q) (hstarted : label.start? = none) :
    label.given.length + q.due = p.due := by
  cases label with
  | started file run => cases hstarted
  | refused =>
      cases h
      exact Nat.zero_add _
  | ran sent =>
      rw [h.moves.due]
      exact Nat.zero_add _
  | took queued broken =>
      obtain ⟨applied, l, rfl, ht, rfl⟩ := h.takes
      rw [← due_of_takes ht, Label.given, List.length_append, List.length_map]

theorem Steps.due (h : Steps p labels q) (hstarted : startedIn labels = []) :
    (givenIn labels).length + q.due = p.due := by
  induction h with
  | refl => exact Nat.zero_add _
  | @snoc labels label q r steps step ih =>
      rw [startedIn_concat, List.append_eq_nil_iff, Option.toList_eq_nil_iff] at hstarted
      rw [givenIn_concat, List.length_append, ← ih hstarted.1, ← step.due hstarted.2]
      omega

/-! ### Draining ends -/

theorem Moves.stepsLeft {sent : List Event} (h : p.Moves sent q) :
    q.stepsLeft + 1 = p.stepsLeft := by
  rw [stepsLeft_eq, stepsLeft_eq]
  cases h with
  | chunk live left room =>
      simp [live, totalSteps_append, totalSteps, left]
      omega
  | last live left ending room =>
      simp [live, totalSteps_append, totalSteps, left]
      omega
  | death live left ending =>
      simp [live, totalSteps_append, totalSteps, left]
      omega

/-- The first live run can only be held up by a full queue. -/
theorem full_of_advance?_eq_none (h : p.advance? 0 = none) :
    p.live = [] ∨ Linter.capacity ≤ p.linter.queue.length := by
  cases live : p.live with
  | nil => exact Or.inl rfl
  | cons r rest =>
      right
      apply Nat.le_of_not_lt
      intro room
      have hsend (e : Event) : p.linter.send? e =
          some { p.linter with queue := p.linter.queue ++ [e] } := if_pos room
      simp only [advance?, live, List.getElem?_cons_zero, Option.bind_eq_bind, Option.bind_some,
        hsend, sendLast?, Option.map_some] at h
      split at h
      · cases h
      · split at h <;> cases h

theorem advanceFirst_full {n : Nat} (hn : p.stepsLeft ≤ n) :
    (advanceFirst n p).live = [] ∨ Linter.capacity ≤ (advanceFirst n p).linter.queue.length := by
  induction n generalizing p with
  | zero =>
      left
      rw [stepsLeft_eq] at hn
      cases live : p.live with
      | nil => exact live
      | cons r rest =>
          rw [live, totalSteps] at hn
          omega
  | succ n ih =>
      rw [advanceFirst]
      cases hmoved : p.advance? 0 with
      | none => exact full_of_advance?_eq_none hmoved
      | some q =>
          obtain ⟨sent, hm⟩ := moves_of_advance? hmoved
          have hless := hm.stepsLeft
          exact ih (by omega)

theorem settle_full (p : Pipeline) :
    p.settle.live = [] ∨ Linter.capacity ≤ p.settle.linter.queue.length :=
  advanceFirst_full (Nat.le_refl _)

/-- Some steps lead to the pipeline from that of an analyzer without runs. -/
def Reached (c : Analyzer.Config) (p : Pipeline) : Prop := ∃ labels, Steps (.ofConfig c) labels p

theorem Reached.turns (h : Reached c p) (ts : List Turn) :
    Reached c (p.turns ts).2 ∧ (p.turns ts).1.length + (p.turns ts).2.due = p.due := by
  obtain ⟨labels, hsteps⟩ := h
  obtain ⟨more, hmore, hgiven, hstarted⟩ := p.steps_of_turns ts
  refine ⟨⟨labels ++ more, hsteps.trans hmore⟩, ?_⟩
  rw [← hgiven, hmore.due hstarted]

/-- When the live runs have gone on as far as they can, there is an update or nothing is left. -/
theorem Reached.inFlight_of_takeNext (h : Reached c p)
    (hfull : p.live = [] ∨ Linter.capacity ≤ p.linter.queue.length)
    (htake : p.takeNext = (none, q)) : q.linter.inFlight = 0 := by
  obtain ⟨labels, hsteps⟩ := h
  have hcounted := hsteps.counted
  unfold takeNext at htake
  rcases p.linter.next_cases with ⟨hzero, hn⟩ | ⟨e, l, -, hn, -⟩ | ⟨d, l, -, -, hn, -⟩ |
    ⟨l, hflight, hqueue, hfailures, hn, -⟩
  · rw [hn] at htake
    cases htake
    exact hzero
  · rw [hn] at htake
    cases htake
  · rw [hn] at htake
    cases htake
  · -- With an empty queue there would be room, so no run is live; then none is in flight.
    have hlive : p.live = [] := by
      apply hfull.resolve_right
      rw [hqueue]
      decide
    rw [Linter.failures, ← List.length_eq_zero_iff, TaskEnd.length_filterMap_failure?] at hfailures
    rw [Counted, hlive, hqueue, hfailures] at hcounted
    exact absurd hcounted hflight

theorem Reached.takeAll_inFlight (h : Reached c p) {n : Nat} (hn : p.due < n) :
    (p.takeAll n).2.linter.inFlight = 0 := by
  induction n generalizing p with
  | zero => exact absurd hn (Nat.not_lt_zero _)
  | succ n ih =>
      obtain ⟨settling, hsettled⟩ := advanceFirst_eq_turns p.stepsLeft p
      obtain ⟨hreached, hdue⟩ := h.turns settling
      rw [hsettled] at hreached hdue
      -- Settling gives no update, so as many are due after it as before.
      have hdue' : p.settle.due = p.due := (Nat.zero_add _).symm.trans hdue
      cases htake : p.settle.takeNext with
      | mk given q =>
      cases given with
      | none =>
          rw [takeAll_of_none n htake]
          exact Reached.inFlight_of_takeNext hreached p.settle_full htake
      | some d =>
          rw [takeAll_of_some n htake]
          obtain ⟨hreached', hgiven⟩ := Reached.turns (p := p.settle) hreached [.host]
          rw [turns_cons, turn, htake] at hreached' hgiven
          have hlength : 1 + q.due = p.settle.due := hgiven
          exact ih hreached' (by omega)

/-- When a drain stops, no run is in flight. -/
theorem Reached.drain_inFlight (h : Reached c p) (schedule : List Turn) :
    (p.drain schedule).2.linter.inFlight = 0 := by
  obtain ⟨hreached, -⟩ := h.turns schedule
  have hfailures := List.length_filterMap_le TaskEnd.failure? (p.turns schedule).2.linter.ended
  refine hreached.takeAll_inFlight (n := (p.turns schedule).2.updatesLeft + 1) ?_
  rw [due, updatesLeft, stepsLeft_eq, Linter.failures]
  omega

/-- When no run is in flight, nothing is left of any run. -/
theorem Steps.finished (h : Steps (.ofConfig c) labels p) (hzero : p.linter.inFlight = 0) :
    p.live = [] ∧ p.linter.queue = [] ∧ p.linter.failures = [] := by
  have hcounted := h.counted
  rw [Counted, hzero] at hcounted
  have hlive : p.live = [] := List.length_eq_zero_iff.mp (by omega)
  have hsettled : Settled c p := ⟨⟨labels, h⟩, hlive⟩
  exact ⟨hlive, Linter.ready_eq_nil_iff.mp (hsettled.ready_eq_nil_iff.mpr hzero)⟩

end SaveLint.Pipeline
