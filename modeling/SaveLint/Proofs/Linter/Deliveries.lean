import SaveLint.Proofs.Linter.Steps
import SaveLint.Session

/-!
# The updates of every run

Runs are interleaved in any way, their events wait in one queue, and tasks that break down are
noticed apart from the queue. Still every run is told about in its own order: one warning for each
chunk of its standard error, and then exactly one update for its end.

The invariant behind this is `Tracked.runs`. For every run, the updates that were given and those
that are still owed, taken together, are the updates of the run (`Analyzer.Run.updates`). What is
owed comes from three places, in this order: the events in the queue, what the live runs have left,
and the tasks that have broken down (`Pipeline.owed`). A step moves a delivery from one of them to
the next, past deliveries of other runs only, because a run is either live or ended and never both
(`Tracked.nodup`).
-/

namespace SaveLint

/-! ### The updates that a run should have -/

/-- Whether an update is the one for the end of a run. -/
def Update.isLast : Update → Bool
  | published _ _ => true
  | warning _ => false
  | error _ => true

/-- The update for the end of a run. -/
def Analyzer.Ending.update (c : Analyzer.Config) (number : Nat) (file : FileIdentity) :
    Analyzer.Ending → Update
  | report stdout _ => .published file (Report.diagnostics c.source stdout)
  | failed why => .error why.message
  | died message => (Linter.breakdown number message).update

/-- The updates of a run: one warning for each chunk, and one update for the end. -/
def Analyzer.Run.updates (c : Analyzer.Config) (number : Nat) (file : FileIdentity)
    (run : Analyzer.Run) : List Update :=
  run.chunks.map (fun chunk => .warning (Linter.label c ++ " Error: " ++ chunk)) ++
    [run.ending.update c number file]

theorem Analyzer.Ending.isLast_update (c : Analyzer.Config) (number : Nat) (file : FileIdentity)
    (ending : Analyzer.Ending) : (ending.update c number file).isLast = true := by
  cases ending <;> rfl

theorem Event.isLast_answer (c : Analyzer.Config) (e : Event) :
    (e.answer c).update.isLast = e.news.isLast := by
  unfold Event.answer
  split <;> rename_i h <;> rw [h] <;> rfl

/-- What a live run is still owed. -/
def LiveRun.owed (c : Analyzer.Config) (r : LiveRun) : List Delivery :=
  (r.left.updates c r.number r.file).map (⟨r.number, ·⟩)

namespace LiveRun

variable {c : Analyzer.Config} {r : LiveRun}

theorem run_of_mem_owed {d : Delivery} (h : d ∈ r.owed c) : d.run = r.number := by
  obtain ⟨u, -, rfl⟩ := List.mem_map.mp h
  rfl

theorem owed_chunk {text : String} {texts : List String} (left : r.left.chunks = text :: texts) :
    r.owed c = Event.answer c ⟨r.number, r.file, .stderr text⟩ ::
      LiveRun.owed c { r with left := { r.left with chunks := texts } } := by
  simp [owed, Analyzer.Run.updates, left, Event.answer]

theorem owed_last {news : News} (left : r.left.chunks = [])
    (ending : r.left.ending.news? = some news) :
    r.owed c = [Event.answer c ⟨r.number, r.file, news⟩] := by
  cases he : r.left.ending with
  | died message => rw [he] at ending; cases ending
  | report stdout exit =>
      rw [he] at ending
      cases ending
      simp [owed, Analyzer.Run.updates, left, he, Event.answer, Analyzer.Ending.update]
  | failed why =>
      rw [he] at ending
      cases ending
      simp [owed, Analyzer.Run.updates, left, he, Event.answer, Analyzer.Ending.update]

theorem owed_death {message : String} (left : r.left.chunks = [])
    (ending : r.left.ending = .died message) :
    r.owed c = [Linter.breakdown r.number message] := by
  simp [owed, Analyzer.Run.updates, left, ending, Analyzer.Ending.update, Linter.breakdown]

end LiveRun

namespace Pipeline

/-! ### The updates of one run among others -/

/-- The updates of one run among the deliveries of several. -/
def updatesOf (n : Nat) (ds : List Delivery) : List Update :=
  (ds.filter (·.run == n)).map (·.update)

@[simp] theorem updatesOf_nil (n : Nat) : updatesOf n [] = [] := rfl

@[simp] theorem updatesOf_append (n : Nat) (ds ds' : List Delivery) :
    updatesOf n (ds ++ ds') = updatesOf n ds ++ updatesOf n ds' := by
  simp [updatesOf]

theorem updatesOf_eq_nil {n : Nat} {ds : List Delivery} (h : ∀ d ∈ ds, d.run ≠ n) :
    updatesOf n ds = [] := by
  simpa [updatesOf] using h

theorem updatesOf_eq_map {n : Nat} {ds : List Delivery} (h : ∀ d ∈ ds, d.run = n) :
    updatesOf n ds = ds.map (·.update) := by
  unfold updatesOf
  rw [List.filter_eq_self.mpr (fun d hd => beq_iff_eq.mpr (h d hd))]

theorem updatesOf_owed (c : Analyzer.Config) (r : LiveRun) :
    updatesOf r.number (r.owed c) = r.left.updates c r.number r.file := by
  rw [updatesOf_eq_map (fun d hd => LiveRun.run_of_mem_owed hd), LiveRun.owed, List.map_map]
  exact List.map_id _

theorem updatesOf_owed_of_ne {n : Nat} {r : LiveRun} (c : Analyzer.Config) (h : r.number ≠ n) :
    updatesOf n (r.owed c) = [] :=
  updatesOf_eq_nil fun d hd => by rw [LiveRun.run_of_mem_owed hd]; exact h

/-- Deliveries of other runs may change places. -/
theorem updatesOf_comm {n : Nat} {ds ds' : List Delivery}
    (h : ∀ d ∈ ds, ∀ d' ∈ ds', d.run ≠ d'.run) :
    updatesOf n ds ++ updatesOf n ds' = updatesOf n ds' ++ updatesOf n ds := by
  by_cases hn : ∃ d ∈ ds, d.run = n
  · obtain ⟨d, hd, rfl⟩ := hn
    rw [updatesOf_eq_nil (fun d' hd' => (h d hd d' hd').symm), List.append_nil, List.nil_append]
  · rw [updatesOf_eq_nil (fun d hd hr => hn ⟨d, hd, hr⟩), List.append_nil, List.nil_append]

section Moving

variable {n : Nat} {x : Delivery} {queue before after tasks : List Delivery}

/-- An update that a live run was owed may go to the end of the queue. -/
theorem updatesOf_toQueue (h : ∀ d ∈ before, d.run ≠ x.run) :
    updatesOf n (queue ++ [x] ++ (before ++ after) ++ tasks) =
      updatesOf n (queue ++ (before ++ ([x] ++ after)) ++ tasks) := by
  have hcomm : updatesOf n before ++ updatesOf n [x] = updatesOf n [x] ++ updatesOf n before := by
    refine updatesOf_comm fun d hd d' hd' => ?_
    rw [List.mem_singleton.mp hd']
    exact h d hd
  simp only [updatesOf_append, List.append_assoc]
  rw [← List.append_assoc (updatesOf n [x]) (updatesOf n before), ← hcomm, List.append_assoc]

/-- An update that a live run was owed may go to the end of the tasks. -/
theorem updatesOf_toTasks (h : ∀ d ∈ after ++ tasks, d.run ≠ x.run) :
    updatesOf n (queue ++ (before ++ after) ++ (tasks ++ [x])) =
      updatesOf n (queue ++ (before ++ ([x] ++ after)) ++ tasks) := by
  have hcomm : updatesOf n (after ++ tasks) ++ updatesOf n [x]
      = updatesOf n [x] ++ updatesOf n (after ++ tasks) := by
    refine updatesOf_comm fun d hd d' hd' => ?_
    rw [List.mem_singleton.mp hd']
    exact h d hd
  simp only [updatesOf_append, List.append_assoc] at hcomm ⊢
  rw [hcomm]

end Moving

/-! ### What labels tell -/

namespace Label

/-- The run that was started, with its file. -/
def start? : Label → Option (FileIdentity × Analyzer.Run)
  | started file run => some (file, run)
  | _ => none

/-- The events that were sent. -/
def sent : Label → List Event
  | ran sent => sent
  | _ => []

/-- The updates that were given for queued events. -/
def queued : Label → List Delivery
  | took queued _ => queued
  | _ => []

/-- All updates that were given. -/
def given : Label → List Delivery
  | took queued broken => queued ++ broken
  | _ => []

end Label

/-- The runs that were started. A run's number is its place in the list. -/
def startedIn (labels : List Label) : List (FileIdentity × Analyzer.Run) :=
  labels.filterMap Label.start?

/-- The events that were sent, in order. -/
def sentIn (labels : List Label) : List Event := labels.flatMap Label.sent

/-- The updates that were given for queued events, in order. -/
def queuedIn (labels : List Label) : List Delivery := labels.flatMap Label.queued

/-- All updates that were given, in order. -/
def givenIn (labels : List Label) : List Delivery := labels.flatMap Label.given

theorem startedIn_concat (labels : List Label) (label : Label) :
    startedIn (labels ++ [label]) = startedIn labels ++ label.start?.toList := by
  cases h : label.start? <;> simp [startedIn, h]

theorem sentIn_concat (labels : List Label) (label : Label) :
    sentIn (labels ++ [label]) = sentIn labels ++ label.sent := by
  simp [sentIn]

theorem queuedIn_concat (labels : List Label) (label : Label) :
    queuedIn (labels ++ [label]) = queuedIn labels ++ label.queued := by
  simp [queuedIn]

theorem givenIn_concat (labels : List Label) (label : Label) :
    givenIn (labels ++ [label]) = givenIn labels ++ label.given := by
  simp [givenIn]

/-- The updates that a run should have; none for a number that no run has. -/
def expected (c : Analyzer.Config) (runs : List (FileIdentity × Analyzer.Run)) (n : Nat) :
    List Update :=
  match runs[n]? with
  | some (file, run) => run.updates c n file
  | none => []

section Expected

variable {c : Analyzer.Config} {runs : List (FileIdentity × Analyzer.Run)} {n : Nat}

theorem expected_of_le (h : runs.length ≤ n) : expected c runs n = [] := by
  rw [expected, List.getElem?_eq_none h]

theorem expected_concat_length (file : FileIdentity) (run : Analyzer.Run) :
    expected c (runs ++ [(file, run)]) runs.length = run.updates c runs.length file := by
  simp [expected]

theorem expected_concat_of_ne (start : FileIdentity × Analyzer.Run) (h : n ≠ runs.length) :
    expected c (runs ++ [start]) n = expected c runs n := by
  rcases Nat.lt_or_gt_of_ne h with hlt | hgt
  · rw [expected, expected, List.getElem?_append_left hlt]
  · rw [expected_of_le (Nat.le_of_lt hgt), expected_of_le]
    rw [List.length_append, List.length_singleton]
    exact hgt

end Expected

/-! ### The invariant -/

/-- The numbers of the runs that are live, and of those whose tasks were not yet looked at. -/
def numbers (p : Pipeline) : List Nat :=
  p.live.map (·.number) ++ p.linter.ended.map TaskEnd.run

/-- The updates that are still owed: for queued events, for live runs, and for broken tasks. -/
def owed (p : Pipeline) : List Delivery :=
  p.linter.queue.map (Event.answer p.linter.config) ++
    p.live.flatMap (LiveRun.owed p.linter.config) ++ p.linter.failures

theorem run_of_mem_liveOwed {c : Analyzer.Config} {live : List LiveRun} {d : Delivery}
    (h : d ∈ live.flatMap (LiveRun.owed c)) : d.run ∈ live.map (·.number) := by
  obtain ⟨r, hr, hd⟩ := List.mem_flatMap.mp h
  exact List.mem_map.mpr ⟨r, hr, (LiveRun.run_of_mem_owed hd).symm⟩

theorem run_of_mem_failures {tasks : List TaskEnd} {d : Delivery}
    (h : d ∈ tasks.filterMap TaskEnd.failure?) : d.run ∈ tasks.map TaskEnd.run := by
  obtain ⟨t, ht, hd⟩ := List.mem_filterMap.mp h
  cases t with
  | returned run => cases hd
  | died run message =>
      cases hd
      exact List.mem_map.mpr ⟨_, ht, rfl⟩

/-- What holds after any steps of the pipeline of an analyzer. -/
structure Tracked (c : Analyzer.Config) (labels : List Label) (p : Pipeline) : Prop where
  config : p.linter.config = c
  count : p.count = (startedIn labels).length
  numbers_lt : ∀ n ∈ p.numbers, n < p.count
  nodup : p.numbers.Nodup
  /-- The events that were sent are those that were answered, and then those in the queue. -/
  queue : ∃ applied, sentIn labels = applied ++ p.linter.queue ∧
    queuedIn labels = applied.map (Event.answer c)
  runs : ∀ n, updatesOf n (givenIn labels ++ p.owed) = expected c (startedIn labels) n

variable {c : Analyzer.Config} {labels : List Label} {p q : Pipeline}

theorem tracked_ofConfig (c : Analyzer.Config) : Tracked c [] (.ofConfig c) where
  config := rfl
  count := rfl
  numbers_lt := by simp [numbers, ofConfig]
  nodup := by simp [numbers, ofConfig]
  queue := ⟨[], rfl, rfl⟩
  runs := by simp [givenIn, owed, ofConfig, Linter.failures, expected, startedIn]

/-- A step that sends events and gives no update leaves the record of the queue right. -/
theorem Tracked.queue_sent (h : Tracked c labels p) (label : Label) (hq : label.queued = []) :
    ∃ applied, sentIn (labels ++ [label]) = applied ++ (p.linter.queue ++ label.sent) ∧
      queuedIn (labels ++ [label]) = applied.map (Event.answer c) := by
  obtain ⟨applied, hs, ha⟩ := h.queue
  refine ⟨applied, ?_, ?_⟩
  · rw [sentIn_concat, hs, List.append_assoc]
  · rw [queuedIn_concat, hq, List.append_nil, ha]

theorem Tracked.refuse (h : Tracked c labels p) : Tracked c (labels ++ [.refused]) p where
  config := h.config
  count := by simpa [startedIn_concat, Label.start?] using h.count
  numbers_lt := h.numbers_lt
  nodup := h.nodup
  queue := by simpa [Label.sent] using h.queue_sent .refused rfl
  runs := by simpa [startedIn_concat, givenIn_concat, Label.start?, Label.given] using h.runs

theorem Tracked.start (h : Tracked c labels p) (file : FileIdentity) (run : Analyzer.Run) :
    Tracked c (labels ++ [.started file run]) (p.start file run) where
  config := h.config
  count := by
    rw [startedIn_concat, List.length_append, ← h.count]
    rfl
  numbers_lt := by
    intro n hn
    have hn' : n ∈ p.numbers ∨ n = p.count := by
      simp only [numbers, Pipeline.start, Linter.started, List.map_append, List.mem_append,
        List.map_cons, List.map_nil, List.mem_singleton] at hn ⊢
      grind
    rcases hn' with hn | rfl
    · exact Nat.lt_succ_of_lt (h.numbers_lt n hn)
    · exact Nat.lt_succ_self _
  nodup := by
    have hnew : p.count ∉ p.numbers := fun hmem => Nat.lt_irrefl _ (h.numbers_lt _ hmem)
    have hperm : (p.start file run).numbers.Perm (p.count :: p.numbers) := by
      simp only [numbers, Pipeline.start, Linter.started, List.map_append, List.append_assoc]
      exact List.perm_middle
    exact hperm.nodup_iff.mpr (List.nodup_cons.mpr ⟨hnew, h.nodup⟩)
  queue := by
    have hq := h.queue_sent (.started file run) rfl
    rwa [show (Label.started file run).sent = [] from rfl, List.append_nil] at hq
  runs := by
    intro n
    have hgiven : givenIn (labels ++ [.started file run]) = givenIn labels := by
      rw [givenIn_concat]
      exact List.append_nil _
    have hstarted : startedIn (labels ++ [.started file run])
        = startedIn labels ++ [(file, run)] := startedIn_concat _ _
    -- What is owed for the new run comes before the broken tasks, which are all of other runs.
    have hnew : updatesOf n (LiveRun.owed c ⟨p.count, file, run⟩) ++ updatesOf n p.linter.failures
        = updatesOf n p.linter.failures ++ updatesOf n (LiveRun.owed c ⟨p.count, file, run⟩) := by
      refine updatesOf_comm fun d hd d' hd' hrun => ?_
      rw [LiveRun.run_of_mem_owed hd] at hrun
      have hmem : p.count ∈ p.numbers := by
        rw [show p.count = d'.run from hrun]
        exact List.mem_append_right _ (run_of_mem_failures hd')
      exact Nat.lt_irrefl _ (h.numbers_lt _ hmem)
    have howed : updatesOf n (p.start file run).owed =
        updatesOf n p.owed ++ updatesOf n (LiveRun.owed c ⟨p.count, file, run⟩) := by
      have hlive : (p.start file run).owed =
          p.linter.queue.map (Event.answer c) ++ (p.live.flatMap (LiveRun.owed c) ++
            (LiveRun.owed c ⟨p.count, file, run⟩ ++ p.linter.failures)) := by
        simp [owed, Pipeline.start, Linter.started, Linter.failures, h.config]
      rw [hlive, owed, h.config]
      simp only [updatesOf_append, hnew, List.append_assoc]
    have hold := h.runs n
    rw [updatesOf_append] at hold
    rw [hgiven, hstarted, updatesOf_append, howed, ← List.append_assoc, hold]
    by_cases hn : n = p.count
    · subst hn
      rw [h.count, expected_of_le (Nat.le_refl _), expected_concat_length, List.nil_append]
      exact updatesOf_owed c ⟨_, file, run⟩
    · rw [updatesOf_owed_of_ne c (Ne.symm hn), List.append_nil,
        expected_concat_of_ne _ (h.count ▸ hn)]

theorem Moves.config {sent : List Event} (h : p.Moves sent q) :
    q.linter.config = p.linter.config := by
  cases h <;> rfl

theorem Moves.count {sent : List Event} (h : p.Moves sent q) : q.count = p.count := by
  cases h <;> rfl

theorem perm_of_ended (before after ended : List Nat) (n : Nat) :
    (before ++ after ++ (ended ++ [n])).Perm (before ++ n :: after ++ ended) := by
  rw [← List.append_assoc]
  exact (List.perm_append_singleton n _).trans (List.perm_middle.symm.append_right ended)

/-- A run that ends moves from the live runs to the ended ones. -/
theorem Moves.numbers_perm {sent : List Event} (h : p.Moves sent q) :
    q.numbers.Perm p.numbers := by
  cases h with
  | chunk live left room => simp [numbers, live]
  | last live left ending room =>
      simp only [numbers, live, List.map_append, List.map_cons, List.map_nil, TaskEnd.run]
      exact perm_of_ended _ _ _ _
  | death live left ending =>
      simp only [numbers, live, List.map_append, List.map_cons, List.map_nil, TaskEnd.run]
      exact perm_of_ended _ _ _ _

/-- No other run, live or ended, has the number of a live run. -/
theorem ne_number_of_nodup {before after : List LiveRun} {r : LiveRun}
    (live : p.live = before ++ r :: after) (nodup : p.numbers.Nodup) :
    (∀ d ∈ before.flatMap (LiveRun.owed c), d.run ≠ r.number) ∧
    (∀ d ∈ after.flatMap (LiveRun.owed c) ++ p.linter.failures, d.run ≠ r.number) := by
  rw [numbers, live, List.map_append, List.map_cons, List.append_assoc, List.cons_append,
    List.perm_middle.nodup_iff, List.nodup_cons, List.mem_append, List.mem_append] at nodup
  constructor
  · rintro d hd hrun
    exact nodup.1 (Or.inl (hrun ▸ run_of_mem_liveOwed hd))
  · rintro d hd hrun
    rcases List.mem_append.mp hd with hd | hd
    · exact nodup.1 (Or.inr (Or.inl (hrun ▸ run_of_mem_liveOwed hd)))
    · exact nodup.1 (Or.inr (Or.inr (hrun ▸ run_of_mem_failures hd)))

/-- What a live run gives away it is no longer owed itself. -/
theorem Moves.updatesOf_owed {sent : List Event} (h : p.Moves sent q) (nodup : p.numbers.Nodup)
    (n : Nat) : updatesOf n q.owed = updatesOf n p.owed := by
  cases h with
  | @chunk before after r text texts live left room =>
      obtain ⟨hbefore, -⟩ := ne_number_of_nodup (c := p.linter.config) live nodup
      simp only [owed, live, List.map_append, List.map_cons, List.map_nil, List.flatMap_append,
        List.flatMap_cons, LiveRun.owed_chunk left]
      exact updatesOf_toQueue hbefore
  | @last before after r news live left ending room =>
      obtain ⟨hbefore, -⟩ := ne_number_of_nodup (c := p.linter.config) live nodup
      simp only [owed, live, Linter.failures, List.map_append, List.map_cons, List.map_nil,
        List.flatMap_append, List.flatMap_cons, LiveRun.owed_last left ending,
        List.filterMap_append]
      rw [show [TaskEnd.returned r.number].filterMap TaskEnd.failure? = [] from rfl,
        List.append_nil]
      refine updatesOf_toQueue fun d hd => ?_
      rw [Event.answer_run]
      exact hbefore d hd
  | @death before after r message live left ending =>
      obtain ⟨-, hafter⟩ := ne_number_of_nodup (c := p.linter.config) live nodup
      simp only [owed, live, Linter.failures, List.flatMap_append, List.flatMap_cons,
        LiveRun.owed_death left ending, List.filterMap_append]
      exact updatesOf_toTasks hafter

theorem Tracked.moves (h : Tracked c labels p) {sent : List Event} (hm : p.Moves sent q) :
    Tracked c (labels ++ [.ran sent]) q where
  config := hm.config.trans h.config
  count := by
    rw [hm.count, h.count, startedIn_concat]
    exact (congrArg _ (List.append_nil _)).symm
  numbers_lt := by
    intro n hn
    rw [hm.count]
    exact h.numbers_lt n (hm.numbers_perm.mem_iff.mp hn)
  nodup := hm.numbers_perm.nodup_iff.mpr h.nodup
  queue := by
    rw [hm.queue]
    exact h.queue_sent (.ran sent) rfl
  runs := by
    intro n
    have hgiven : givenIn (labels ++ [.ran sent]) = givenIn labels := by
      rw [givenIn_concat]
      exact List.append_nil _
    have hstarted : startedIn (labels ++ [.ran sent]) = startedIn labels := by
      rw [startedIn_concat]
      exact List.append_nil _
    rw [hgiven, hstarted, ← h.runs n, updatesOf_append, updatesOf_append,
      hm.updatesOf_owed h.nodup]

theorem numbers_sublist {l : Linter} {applied : List Event} {broken : List Delivery}
    (ht : p.linter.Takes applied broken l) :
    (numbers { p with linter := l }).Sublist p.numbers := by
  obtain ⟨passed, hp, -⟩ := ht.ended
  rw [numbers, numbers, hp, List.map_append]
  exact (List.sublist_append_right _ _).append_left _

/-- What a call gives is no longer owed. -/
theorem updatesOf_takes {l : Linter} {applied : List Event} {broken : List Delivery}
    (ht : p.linter.Takes applied broken l) (nodup : p.numbers.Nodup) (n : Nat) :
    updatesOf n (applied.map (Event.answer p.linter.config) ++ broken) ++
        updatesOf n (owed { p with linter := l }) =
      updatesOf n p.owed := by
  obtain ⟨passed, hp, hb⟩ := ht.ended
  simp only [owed, Linter.failures, ht.config, ht.queue, hp, List.map_append,
    List.filterMap_append, ← hb, updatesOf_append, List.append_assoc]
  by_cases hnil : broken = []
  · simp [hnil]
  · -- Live runs have updates left, but none of them is a run whose broken task was noticed.
    have hcomm : updatesOf n broken ++ updatesOf n (p.live.flatMap (LiveRun.owed p.linter.config))
        = updatesOf n (p.live.flatMap (LiveRun.owed p.linter.config)) ++ updatesOf n broken := by
      refine updatesOf_comm fun d hd d' hd' hrun => ?_
      rw [numbers, hp, List.map_append] at nodup
      have hended : d.run ∈ passed.map TaskEnd.run := run_of_mem_failures (hb ▸ hd)
      have hlive : d.run ∈ p.live.map (·.number) := hrun ▸ run_of_mem_liveOwed hd'
      exact (List.nodup_append.mp nodup).2.2 _ hlive _ (List.mem_append_left _ hended) rfl
    rw [ht.queue_empty hnil, List.map_nil, updatesOf_nil, List.nil_append, List.nil_append,
      ← List.append_assoc (updatesOf n broken), hcomm, List.append_assoc]

theorem Tracked.takes (h : Tracked c labels p) {l : Linter} {applied : List Event}
    {broken : List Delivery} (ht : p.linter.Takes applied broken l) :
    Tracked c (labels ++ [.took (applied.map (Event.answer p.linter.config)) broken])
      { p with linter := l } where
  config := ht.config.trans h.config
  count := by
    rw [startedIn_concat]
    exact h.count.trans (congrArg _ (List.append_nil _)).symm
  numbers_lt := by
    intro n hn
    exact h.numbers_lt n ((numbers_sublist ht).mem hn)
  nodup := h.nodup.sublist (numbers_sublist ht)
  queue := by
    obtain ⟨applied', hs, hq⟩ := h.queue
    refine ⟨applied' ++ applied, ?_, ?_⟩
    · rw [sentIn_concat, hs, ht.queue, ← List.append_assoc]
      exact List.append_nil _
    · rw [queuedIn_concat, hq, List.map_append, ← h.config]
      rfl
  runs := by
    intro n
    have hstarted :
        startedIn (labels ++ [.took (applied.map (Event.answer p.linter.config)) broken])
          = startedIn labels := by
      rw [startedIn_concat]
      exact List.append_nil _
    rw [hstarted, givenIn_concat, updatesOf_append, updatesOf_append, List.append_assoc, ← h.runs n,
      updatesOf_append, ← updatesOf_takes ht h.nodup n]
    rfl

theorem Tracked.step (h : Tracked c labels p) {label : Label} (hs : Step p label q) :
    Tracked c (labels ++ [label]) q := by
  cases label with
  | started file run => cases hs; exact h.start file run
  | refused => cases hs; exact h.refuse
  | ran sent => exact h.moves hs.moves
  | took queued broken =>
      obtain ⟨applied, l, rfl, ht, rfl⟩ := hs.takes
      exact h.takes ht

theorem Steps.tracked (h : Steps (.ofConfig c) labels p) : Tracked c labels p := by
  induction h with
  | refl => exact tracked_ofConfig c
  | snoc _ step ih => exact ih.step step

/-! ### Main statement -/

/-- Only the last of the updates of a run is for its end. -/
theorem eq_nil_of_isLast {number : Nat} {file : FileIdentity} {run : Analyzer.Run}
    {earlier later : List Update} {update : Update}
    (h : earlier ++ update :: later <+: run.updates c number file) (hlast : update.isLast = true) :
    later = [] := by
  have hwarning : update ∉ run.chunks.map
      (fun chunk => Update.warning (Linter.label c ++ " Error: " ++ chunk)) := by
    rintro hmem
    obtain ⟨chunk, -, rfl⟩ := List.mem_map.mp hmem
    cases hlast
  rcases List.prefix_concat_iff.mp h with heq | hpre
  · rcases List.eq_nil_or_concat later with rfl | ⟨later', u, rfl⟩
    · rfl
    · rw [List.concat_eq_append, ← List.cons_append, ← List.append_assoc] at heq
      obtain ⟨heq, -⟩ := List.append_inj' heq rfl
      exact absurd (heq ▸ List.mem_append_right _ List.mem_cons_self) hwarning
  · exact absurd (hpre.subset (List.mem_append_right _ List.mem_cons_self)) hwarning

theorem updates_prefix (h : Tracked c labels p) {n : Nat} {file : FileIdentity}
    {run : Analyzer.Run} (hn : (startedIn labels)[n]? = some (file, run)) :
    updatesOf n (givenIn labels) <+: run.updates c n file := by
  have hruns := h.runs n
  rw [updatesOf_append, expected, hn] at hruns
  exact ⟨_, hruns⟩

/-- Every update belongs to a run that was started. -/
theorem run_lt_of_mem_given (h : Tracked c labels p) {d : Delivery} (hd : d ∈ givenIn labels) :
    d.run < (startedIn labels).length := by
  refine Nat.lt_of_not_le fun hle => ?_
  have hruns := h.runs d.run
  rw [updatesOf_append, expected_of_le hle] at hruns
  have hmem : d.update ∈ updatesOf d.run (givenIn labels) :=
    List.mem_map.mpr ⟨d, List.mem_filter.mpr ⟨hd, beq_self_eq_true _⟩, rfl⟩
  rw [(List.append_eq_nil_iff.mp hruns).1] at hmem
  cases hmem

theorem save_of_refused {s : Session} {m : Machine} {d : Document}
    (h : (s.save m d).1 = false) : (s.save m d).2 = s := by
  unfold Session.save at h ⊢
  split at h
  · cases h
  · rfl

/--
After any steps of the pipeline: the updates given for events are those of the events sent first, in
order, and the other events are still queued; every run has had the first of its own updates, each
once and in order; nothing follows the update for the end of a run; and every update belongs to a
run that was started, which no refused save does.
-/
theorem updates_in_order (h : Steps (.ofConfig c) labels p) :
    (∃ applied, sentIn labels = applied ++ p.linter.queue ∧
      queuedIn labels = applied.map (Event.answer c)) ∧
    (∀ n file run, (startedIn labels)[n]? = some (file, run) →
      updatesOf n (givenIn labels) <+: run.updates c n file) ∧
    (∀ n earlier update later, updatesOf n (givenIn labels) = earlier ++ update :: later →
      update.isLast = true → later = []) ∧
    (∀ d ∈ givenIn labels, d.run < (startedIn labels).length) ∧
    (∀ (client : Llm.Client) (m : Machine) (d : Document),
      (Session.save ⟨p, client⟩ m d).1 = false → (Session.save ⟨p, client⟩ m d).2 = ⟨p, client⟩) := by
  have ht := h.tracked
  refine ⟨ht.queue, fun n file run hn => updates_prefix ht hn, ?_,
    fun d hd => run_lt_of_mem_given ht hd, fun client m d => save_of_refused⟩
  intro n earlier update later hupdates hlast
  cases hn : (startedIn labels)[n]? with
  | some start =>
      have hpre := updates_prefix ht hn
      rw [hupdates] at hpre
      exact eq_nil_of_isLast hpre hlast
  | none =>
      have hruns := ht.runs n
      rw [updatesOf_append, expected, hn, hupdates] at hruns
      simp at hruns

/-- Two runs of one file, the second of which breaks down while the first is still live. -/
theorem updates_in_order_two_runs :
    ∃ (labels : List Label) (p : Pipeline), Steps (.ofConfig {}) labels p ∧
      (startedIn labels).map (·.2) = [⟨["w"], .report "" (some 0)⟩, ⟨[], .died "boom"⟩] ∧
      (givenIn labels).map (·.run) = [0, 0, 1] ∧
      (∀ n file run, (startedIn labels)[n]? = some (file, run) →
        updatesOf n (givenIn labels) <+: run.updates {} n file) := by
  have named := Machine.identity?_root {}
  have accepted : (ofConfig {}).linter.accepts "python" = true := by decide
  have first : Steps (.ofConfig {}) _ _ :=
    .snoc .refl (.start ⟨["w"], .report "" (some 0)⟩ accepted named)
  have started := first.snoc (.start ⟨[], .died "boom"⟩ accepted named)
  have ran := (started.snoc (.run (k := 1) rfl (List.append_nil _).symm)).snoc
    (@Step.run _ _ 0 [_] rfl rfl)
  have polled := ran.snoc (@Step.poll _ _ _ [] 1 rfl rfl)
  have finished := (polled.snoc (@Step.run _ _ 0 [_] rfl rfl)).snoc
    (@Step.poll _ _ _ [_] 32 rfl rfl)
  exact ⟨_, _, finished, rfl, rfl, (updates_in_order finished).2.1⟩

end Pipeline

end SaveLint
