import SaveLint.Linter.Basic

/-!
# What a call of the linter takes

A call of the host, `poll` or `next`, takes some events from the front of the queue, and it looks at
the tasks that have ended only once the queue is empty. `Linter.Takes` says this once for both calls
(`poll_takes`, `next_cases`), and what holds of every call is derived from it.

The update for an event depends on the event and on the configuration alone (`handle_snd`), so the
updates of a call can be compared with the events that were sent.
-/

namespace SaveLint

/-! ### The updates for events and for tasks -/

/-- The update for an event. -/
def Event.answer (c : Analyzer.Config) (e : Event) : Delivery :=
  match e.news with
  | .stderr chunk => ⟨e.run, .warning (Linter.label c ++ " Error: " ++ chunk)⟩
  | .report stdout _ => ⟨e.run, .published e.file (Report.diagnostics c.source stdout)⟩
  | .failed why => ⟨e.run, .error why.message⟩

@[simp] theorem Event.answer_run (c : Analyzer.Config) (e : Event) : (e.answer c).run = e.run := by
  unfold Event.answer; split <;> rfl

namespace TaskEnd

/-- The run whose task has ended. -/
def run : TaskEnd → Nat
  | returned run => run
  | died run _ => run

/-- Whether the task has broken down. -/
def isDeath : TaskEnd → Bool
  | returned _ => false
  | died _ _ => true

/-- The update for the end of a task, if there is one. -/
def failure? : TaskEnd → Option Delivery
  | returned _ => none
  | died run message => some (Linter.breakdown run message)

@[simp] theorem failure?_returned (run : Nat) : (returned run).failure? = none := rfl

@[simp] theorem failure?_died (run : Nat) (message : String) :
    (died run message).failure? = some (Linter.breakdown run message) := rfl

/-- Exactly the tasks that have broken down give an update. -/
theorem length_filterMap_failure? (tasks : List TaskEnd) :
    (tasks.filterMap failure?).length = tasks.countP isDeath := by
  induction tasks with
  | nil => rfl
  | cons t tasks ih => cases t <;> simp [List.filterMap_cons, List.countP_cons, isDeath, ih]

/-- The update for a task that has broken down is an error. -/
theorem exists_error_of_mem {tasks : List TaskEnd} {d : Delivery}
    (h : d ∈ tasks.filterMap failure?) : ∃ text, d.update = .error text := by
  obtain ⟨t, -, ht⟩ := List.mem_filterMap.mp h
  cases t with
  | returned run => cases ht
  | died run message =>
      cases ht
      exact ⟨_, rfl⟩

end TaskEnd

namespace Linter

/-- The updates for the tasks that have broken down and were not yet noticed. -/
def failures (l : Linter) : List Delivery := l.ended.filterMap TaskEnd.failure?

/-! ### Single events -/

theorem handle_snd (l : Linter) (e : Event) : (l.handle e).2 = e.answer l.config := by
  unfold handle Event.answer; split <;> simp_all

@[simp] theorem handle_config (l : Linter) (e : Event) : (l.handle e).1.config = l.config := by
  unfold handle; split <;> rfl

@[simp] theorem handle_queue (l : Linter) (e : Event) : (l.handle e).1.queue = l.queue := by
  unfold handle; split <;> rfl

@[simp] theorem handle_ended (l : Linter) (e : Event) : (l.handle e).1.ended = l.ended := by
  unfold handle; split <;> rfl

/-- Only the last event of a run takes the run off the counter. -/
theorem handle_inFlight (l : Linter) (e : Event) :
    (l.handle e).1.inFlight = l.inFlight - [e].countP (·.news.isLast) := by
  unfold handle; split <;> simp_all [News.isLast]

/-! ### Events and tasks in a row -/

/-- Everything about the part of a poll that applies queued events. -/
theorem pollQueue_spec (budget : Nat) (l : Linter) :
    (pollQueue budget l).1 = (l.queue.take budget).map (Event.answer l.config) ∧
    (pollQueue budget l).2.config = l.config ∧
    (pollQueue budget l).2.queue = l.queue.drop budget ∧
    (pollQueue budget l).2.ended = l.ended ∧
    (pollQueue budget l).2.inFlight =
      l.inFlight - (l.queue.take budget).countP (·.news.isLast) := by
  induction budget generalizing l with
  | zero => simp [pollQueue]
  | succ budget ih =>
      cases hq : l.queue with
      | nil => simp [pollQueue, hq]
      | cons e queue =>
          obtain ⟨hd, hc, hr, he, hi⟩ := ih (({ l with queue := queue } : Linter).handle e).1
          rw [handle_config] at hd
          rw [handle_queue] at hd hr hi
          rw [handle_inFlight] at hi
          simp only [pollQueue, hq, List.take_succ_cons, List.drop_succ_cons, List.map_cons]
          refine ⟨?_, ?_, hr, ?_, ?_⟩
          · rw [hd, handle_snd]
          · rw [hc, handle_config]
          · rw [he, handle_ended]
          · rw [hi, Nat.sub_sub, ← List.countP_append]
            rfl

/-- Ended tasks are passed in order, and those that have broken down give the updates. -/
theorem noticed_passed (budget : Nat) (tasks : List TaskEnd) :
    ∃ passed, tasks = passed ++ (noticed budget tasks).2 ∧
      (noticed budget tasks).1 = passed.filterMap TaskEnd.failure? := by
  fun_induction noticed budget tasks with
  | case1 tasks => exact ⟨[], rfl, rfl⟩
  | case2 => exact ⟨[], rfl, rfl⟩
  | case3 budget run tasks ih =>
      obtain ⟨passed, hp, hd⟩ := ih
      exact ⟨.returned run :: passed, congrArg (_ :: ·) hp, hd⟩
  | case4 budget run message tasks deliveries left heq ih =>
      obtain ⟨passed, hp, hd⟩ := ih
      rw [heq] at hp hd
      exact ⟨.died run message :: passed, congrArg (_ :: ·) hp, congrArg (_ :: ·) hd⟩

/-- As many updates are given as the budget allows and broken tasks are there. -/
theorem noticed_fst (budget : Nat) (tasks : List TaskEnd) :
    (noticed budget tasks).1 = (tasks.filterMap TaskEnd.failure?).take budget := by
  fun_induction noticed budget tasks with
  | case1 tasks => simp
  | case2 => simp
  | case3 budget run tasks ih => simpa [List.filterMap_cons] using ih
  | case4 budget run message tasks deliveries left heq ih =>
      rw [heq] at ih
      simp [← ih]

/-! ### The two calls -/

/-- A call takes some events and notices some tasks that have broken down. -/
structure Takes (l : Linter) (applied : List Event) (broken : List Delivery) (l' : Linter) :
    Prop where
  config : l'.config = l.config
  queue : l.queue = applied ++ l'.queue
  ended : ∃ passed, l.ended = passed ++ l'.ended ∧ broken = passed.filterMap TaskEnd.failure?
  /-- Tasks are noticed only when every event that was sent has been applied. -/
  queue_empty : broken ≠ [] → l'.queue = []
  inFlight : l'.inFlight = l.inFlight - applied.countP (·.news.isLast) - broken.length

/-- A call may leave everything as it is. -/
theorem Takes.none (l : Linter) : l.Takes [] [] l where
  config := rfl
  queue := rfl
  ended := ⟨[], rfl, rfl⟩
  queue_empty := fun h => absurd rfl h
  inFlight := rfl

/-- A poll applies events first, and gives what it has from the tasks after them. -/
theorem poll_takes (budget : Nat) (l : Linter) :
    ∃ applied broken, l.Takes applied broken (l.poll budget).2 ∧
      (pollQueue budget l).1 = applied.map (Event.answer l.config) ∧
      (l.poll budget).1 = applied.map (Event.answer l.config) ++ broken := by
  obtain ⟨hd, hc, hq, he, hi⟩ := pollQueue_spec budget l
  obtain ⟨passed, hp, hb⟩ := noticed_passed (budget - (pollQueue budget l).1.length) l.ended
  refine ⟨l.queue.take budget, _, ⟨hc, ?_, ⟨passed, ?_, hb⟩, ?_, ?_⟩, hd, ?_⟩
  · show l.queue = l.queue.take budget ++ (pollQueue budget l).2.queue
    rw [hq, List.take_append_drop]
  · simpa only [poll, he] using hp
  · intro hne
    show (pollQueue budget l).2.queue = []
    rw [noticed_fst, hd, List.length_map, List.length_take] at hne
    -- A budget that is left over means that the queue was shorter than the budget.
    have hlt : l.queue.length < budget := by
      refine Nat.lt_of_not_le fun hle => hne ?_
      rw [Nat.min_eq_left hle, Nat.sub_self, List.take_zero]
    rw [hq, List.drop_eq_nil_iff]
    omega
  · simp only [poll, hi, he]
  · simp only [poll, he, hd]

/-- The four ways in which `next` can answer. -/
theorem next_cases (l : Linter) :
    (l.inFlight = 0 ∧ l.next = (.idle, l)) ∨
    (∃ e l', l.inFlight ≠ 0 ∧ l.next = (.update (e.answer l.config), l') ∧ l.Takes [e] [] l') ∨
    (∃ d l', l.inFlight ≠ 0 ∧ l.queue = [] ∧ l.next = (.update d, l') ∧ l.Takes [] [d] l') ∨
    (∃ l', l.inFlight ≠ 0 ∧ l.queue = [] ∧ l.failures = [] ∧ l.next = (.waiting, l') ∧
      l.Takes [] [] l') := by
  by_cases h0 : l.inFlight = 0
  · exact Or.inl ⟨h0, by simp [next, h0]⟩
  right
  cases hq : l.queue with
  | cons e queue =>
      refine Or.inl ⟨e, (({ l with queue := queue } : Linter).handle e).1, h0, ?_, ?_⟩
      · rw [next, if_neg h0, hq]
        simp only [handle_snd]
      · refine ⟨by simp, by simp [hq], ⟨[], by simp, rfl⟩, by simp, ?_⟩
        rw [handle_inFlight]
        rfl
  | nil =>
      right
      obtain ⟨passed, hp, hd⟩ := noticed_passed 1 l.ended
      have htake := noticed_fst 1 l.ended
      cases hfound : noticed 1 l.ended with
      | mk ds ended =>
      rw [hfound] at hp hd htake
      cases ds with
      | nil =>
          right
          have hnext : l.next = (.waiting, { l with ended := ended }) := by
            rw [next, if_neg h0, hq]
            simp only [hfound]
          refine ⟨_, h0, rfl, ?_, hnext, ⟨rfl, by simp [hq], ⟨passed, hp, hd⟩, by simp, rfl⟩⟩
          have hempty : l.failures.take 1 = [] := htake.symm
          simpa using hempty
      | cons d ds =>
          left
          have hnext : l.next =
              (.update d, { l with ended := ended, inFlight := l.inFlight - 1 }) := by
            rw [next, if_neg h0, hq]
            simp only [hfound]
          have hds : ds = [] := by
            have hlen := congrArg List.length htake
            rw [List.length_take, List.length_cons] at hlen
            exact List.length_eq_zero_iff.mp (by omega)
          subst hds
          exact ⟨d, _, h0, rfl, hnext, ⟨rfl, by simp [hq], ⟨passed, hp, hd⟩, fun _ => hq, rfl⟩⟩

end Linter

end SaveLint
