import SaveLint.Proofs.Linter.Applied
import SaveLint.Proofs.Linter.InFlight

/-!
# How updates are taken does not matter

When no run is live, the updates to come are all there: the answers to the queued events, and those
for the broken tasks after them (`Linter.ready`). A call takes the first of them, as many as it may
(`Call.size`), and leaves the others (`Settled.calls_fst`), so any calls return a part of one list,
and once nothing is left all have returned the same and have left the same store.

A poll takes what two polls with the parts of its budget take, in every state of the linter
(`poll_add`).
-/

namespace SaveLint

namespace Linter

variable {l : Linter}

/-! ### What is ready -/

/-- The updates for the queued events, and then those for the broken tasks. -/
def ready (l : Linter) : List Delivery := l.queue.map (Event.answer l.config) ++ l.failures

/-- The store with the queued events applied. -/
def settledStore (l : Linter) : Store := l.store.applyAll l.config l.queue

theorem ready_eq_nil_iff : l.ready = [] ↔ l.queue = [] ∧ l.failures = [] := by
  rw [ready, List.append_eq_nil_iff, List.map_eq_nil_iff]

theorem length_ready_le (l : Linter) : l.ready.length ≤ l.queue.length + l.ended.length := by
  rw [ready, List.length_append, List.length_map]
  exact Nat.add_le_add_left (List.length_filterMap_le _ _) _

/-- A call returns some of what is ready, and leaves the rest. -/
theorem ready_eq_append (l : Linter) (k : Call) :
    l.ready = (l.call k).1 ++ (l.call k).2.ready := by
  obtain ⟨applied, broken, h⟩ := l.call_applies k
  obtain ⟨passed, hended, hbroken⟩ := h.takes.ended
  have hfailures : l.failures = broken ++ (l.call k).2.failures := by
    rw [failures, failures, hended, hbroken, List.filterMap_append]
  rw [h.given, ready, ready, h.takes.config, hfailures, h.takes.queue, List.map_append]
  -- Updates for broken tasks pass no event, since the queue is empty when there are any.
  by_cases hne : broken = []
  · rw [hne, List.append_nil, List.nil_append, List.append_assoc]
  · rw [h.takes.queue_empty hne, List.map_nil, List.append_nil, List.nil_append, List.append_assoc]

theorem settledStore_call (l : Linter) (k : Call) :
    (l.call k).2.settledStore = l.settledStore := by
  obtain ⟨applied, broken, h⟩ := l.call_applies k
  rw [settledStore, settledStore, h.store, h.takes.config, h.takes.queue, Store.applyAll_append]

theorem poll_fst (l : Linter) (budget : Nat) : (l.poll budget).1 = l.ready.take budget := by
  obtain ⟨hgiven, -, -, hended, -⟩ := pollQueue_spec budget l
  show (pollQueue budget l).1 ++
    (noticed (budget - (pollQueue budget l).1.length) (pollQueue budget l).2.ended).1 = _
  rw [noticed_fst, hgiven, hended, ready, List.take_append, List.map_take, List.length_take,
    List.length_map, failures]
  congr 2
  omega

/-! ### Calls in a row -/

/-- How many updates a call may return. -/
def Call.size : Call → Nat
  | .poll budget => budget
  | .next => 1

/-- How many updates some calls may return. -/
def totalSize : List Call → Nat
  | [] => 0
  | k :: ks => k.size + totalSize ks

/-- The updates that calls return one after the other, and the linter after them. -/
def calls (l : Linter) : List Call → List Delivery × Linter
  | [] => ([], l)
  | k :: ks => ((l.call k).1 ++ ((l.call k).2.calls ks).1, ((l.call k).2.calls ks).2)

theorem calls_append (l : Linter) (ks ks' : List Call) :
    l.calls (ks ++ ks') =
      ((l.calls ks).1 ++ ((l.calls ks).2.calls ks').1, ((l.calls ks).2.calls ks').2) := by
  induction ks generalizing l with
  | nil => rfl
  | cons k ks ih => rw [List.cons_append, calls, ih, calls, List.append_assoc]

theorem ready_eq_append_calls (l : Linter) (ks : List Call) :
    l.ready = (l.calls ks).1 ++ (l.calls ks).2.ready := by
  induction ks generalizing l with
  | nil => rfl
  | cons k ks ih => rw [calls, List.append_assoc, ← ih, ← ready_eq_append]

theorem settledStore_calls (l : Linter) (ks : List Call) :
    (l.calls ks).2.settledStore = l.settledStore := by
  induction ks generalizing l with
  | nil => rfl
  | cons k ks ih => rw [calls, ih, settledStore_call]

/-- After the calls nothing is left: no call returns any more updates. -/
def Exhausts (l : Linter) (ks : List Call) : Prop := ∀ k, ((l.calls ks).2.call k).1 = []

theorem exhausts_iff {ks : List Call} : l.Exhausts ks ↔ (l.calls ks).2.ready = [] := by
  constructor
  · intro h
    have hpoll := h (.poll ((l.calls ks).2.ready.length))
    rw [call, poll_fst, List.take_length] at hpoll
    exact hpoll
  · intro h k
    have hsplit := (l.calls ks).2.ready_eq_append k
    rw [h] at hsplit
    exact (List.append_eq_nil_iff.mp hsplit.symm).1

/-! ### Polls in parts -/

theorem noticed_nil (budget : Nat) : noticed budget [] = ([], []) := by
  cases budget <;> rfl

theorem noticed_add (a b : Nat) (tasks : List TaskEnd) :
    noticed (a + b) tasks =
      ((noticed a tasks).1 ++ (noticed b (noticed a tasks).2).1,
        (noticed b (noticed a tasks).2).2) := by
  fun_induction noticed a tasks with
  | case1 tasks => rw [Nat.zero_add]; rfl
  | case2 => rw [noticed_nil, noticed_nil]; rfl
  | case3 a run tasks ih =>
      rw [Nat.succ_add] at ih ⊢
      exact ih
  | case4 a run message tasks deliveries left heq ih =>
      rw [heq] at ih
      rw [Nat.succ_add, noticed, ih]
      rfl

theorem pollQueue_of_queue_nil (budget : Nat) (h : l.queue = []) :
    pollQueue budget l = ([], l) := by
  cases budget with
  | zero => rfl
  | succ budget => simp only [pollQueue, h]

theorem pollQueue_add (a b : Nat) (l : Linter) :
    pollQueue (a + b) l =
      ((pollQueue a l).1 ++ (pollQueue b (pollQueue a l).2).1,
        (pollQueue b (pollQueue a l).2).2) := by
  induction a generalizing l with
  | zero => rw [Nat.zero_add]; rfl
  | succ a ih =>
      cases hq : l.queue with
      | nil =>
          rw [pollQueue_of_queue_nil (a + 1) hq, pollQueue_of_queue_nil b hq,
            pollQueue_of_queue_nil _ hq]
          rfl
      | cons e queue =>
          rw [Nat.succ_add]
          simp only [pollQueue, hq, ih]
          rfl

/-- The part of a poll that gives the updates for broken tasks. -/
def notice (budget : Nat) (l : Linter) : List Delivery × Linter :=
  ((noticed budget l.ended).1,
    { l with
      ended := (noticed budget l.ended).2
      inFlight := l.inFlight - (noticed budget l.ended).1.length })

theorem poll_eq (budget : Nat) (l : Linter) :
    l.poll budget =
      ((pollQueue budget l).1 ++
          (notice (budget - (pollQueue budget l).1.length) (pollQueue budget l).2).1,
        (notice (budget - (pollQueue budget l).1.length) (pollQueue budget l).2).2) := rfl

theorem notice_zero (l : Linter) : notice 0 l = ([], l) := by
  rw [notice, noticed]
  rfl

theorem notice_add (a b : Nat) (l : Linter) :
    notice (a + b) l =
      ((notice a l).1 ++ (notice b (notice a l).2).1, (notice b (notice a l).2).2) := by
  simp only [notice, noticed_add, List.length_append, Nat.sub_sub]

theorem poll_of_queue_nil (budget : Nat) (h : l.queue = []) : l.poll budget = notice budget l := by
  rw [poll_eq, pollQueue_of_queue_nil budget h]
  rfl

/-- A poll takes what two polls with the parts of its budget take. -/
theorem poll_add (l : Linter) (a b : Nat) :
    l.poll (a + b) = ((l.poll a).1 ++ ((l.poll a).2.poll b).1, ((l.poll a).2.poll b).2) := by
  obtain ⟨hgiven, -, hqueue, -, -⟩ := pollQueue_spec a l
  have hlength : (pollQueue a l).1.length = min a l.queue.length := by
    rw [hgiven, List.length_map, List.length_take]
  rcases Nat.le_total a l.queue.length with h | h
  · -- The first poll ends in the queue, and the second one goes on there.
    rw [Nat.min_eq_left h] at hlength
    have hfirst : l.poll a = pollQueue a l := by
      rw [poll_eq, hlength, Nat.sub_self, notice_zero, List.append_nil]
    have hleft : a + b - (a + (pollQueue b (pollQueue a l).2).1.length) =
        b - (pollQueue b (pollQueue a l).2).1.length := Nat.add_sub_add_left a b _
    rw [hfirst, poll_eq, poll_eq, pollQueue_add, List.length_append, hlength, hleft,
      List.append_assoc]
  · -- The first poll empties the queue, and the second one only finds broken tasks.
    have hempty : (pollQueue a l).2.queue = [] := by
      rw [hqueue, List.drop_eq_nil_of_le h]
    have hle : (pollQueue a l).1.length ≤ a := by
      rw [hlength]
      exact Nat.min_le_left a _
    have hfirst := poll_eq a l
    have hsecond : (notice (a - (pollQueue a l).1.length) (pollQueue a l).2).2.poll b =
        notice b (notice (a - (pollQueue a l).1.length) (pollQueue a l).2).2 :=
      poll_of_queue_nil b hempty
    rw [hfirst, hsecond, poll_eq, pollQueue_add, pollQueue_of_queue_nil b hempty, List.append_nil,
      Nat.sub_add_comm hle, notice_add, List.append_assoc]

end Linter

namespace Pipeline

variable {c : Analyzer.Config} {p : Pipeline}

/-- The pipeline with another state of its linter. -/
def withLinter (p : Pipeline) (l : Linter) : Pipeline := { p with linter := l }

/-! ### States without live runs -/

/-- All runs that were started have ended, and some of what they have sent may not be taken yet. -/
structure Settled (c : Analyzer.Config) (p : Pipeline) : Prop where
  reached : ∃ labels, Steps (.ofConfig c) labels p
  live : p.live = []

theorem takeNext_eq (p : Pipeline) :
    p.takeNext.1.toList = (p.linter.call .next).1 ∧
      p.takeNext.2 = p.withLinter (p.linter.call .next).2 := by
  unfold takeNext Linter.call
  split
  · rename_i next
    rw [next]
    exact ⟨rfl, rfl⟩
  · rename_i answer l none next
    rw [next]
    refine ⟨?_, rfl⟩
    cases answer with
    | idle => rfl
    | waiting => rfl
    | update d => exact absurd rfl (none d)

theorem Settled.call (h : Settled c p) (k : Linter.Call) :
    Settled c (p.withLinter (p.linter.call k).2) := by
  obtain ⟨labels, hs⟩ := h.reached
  refine ⟨?_, h.live⟩
  cases k with
  | poll budget =>
      obtain ⟨queued, broken, -, step⟩ := p.step_of_poll budget
      exact ⟨_, hs.snoc step⟩
  | next =>
      obtain ⟨queued, broken, -, step⟩ := p.step_of_takeNext
      rw [p.takeNext_eq.2] at step
      exact ⟨_, hs.snoc step⟩

theorem Settled.calls (h : Settled c p) (ks : List Linter.Call) :
    Settled c (p.withLinter (p.linter.calls ks).2) := by
  induction ks generalizing p with
  | nil => exact h
  | cons k ks ih => exact ih (h.call k)

/-- Nothing is ready exactly when no run is in flight. -/
theorem Settled.ready_eq_nil_iff (h : Settled c p) :
    p.linter.ready = [] ↔ p.linter.inFlight = 0 := by
  obtain ⟨labels, hs⟩ := h.reached
  have hc := hs.counted
  rw [Counted, h.live, ← TaskEnd.length_filterMap_failure?] at hc
  rw [Linter.ready_eq_nil_iff]
  constructor
  · rintro ⟨hqueue, hfailures⟩
    rw [Linter.failures] at hfailures
    rw [hc, hqueue, hfailures]
    rfl
  · intro hzero
    -- The counter leaves no last event in the queue, and a run's other events come before that one.
    have hfailures : p.linter.failures = [] := by
      apply List.length_eq_zero_iff.mp
      rw [Linter.failures]
      omega
    have hlast : p.linter.queue.countP (·.news.isLast) = 0 := by omega
    exact ⟨hs.tracked.queue_eq_nil h.live hfailures (by simpa using hlast), hfailures⟩

/-- A call returns the first of the updates that are ready, as many as it may. -/
theorem Settled.call_fst (h : Settled c p) (k : Linter.Call) :
    (p.linter.call k).1 = p.linter.ready.take k.size := by
  cases k with
  | poll budget => exact p.linter.poll_fst budget
  | next =>
      have hsplit := p.linter.ready_eq_append .next
      rw [Linter.call] at hsplit ⊢
      rcases p.linter.next_cases with ⟨hzero, hn⟩ | ⟨e, _, -, hn, -⟩ | ⟨d, _, -, -, hn, -⟩ |
        ⟨_, -, hqueue, hfailures, hn, -⟩
      · rw [h.ready_eq_nil_iff.mpr hzero, hn]
        rfl
      · rw [hsplit, hn]
        rfl
      · rw [hsplit, hn]
        rfl
      · rw [Linter.ready_eq_nil_iff.mpr ⟨hqueue, hfailures⟩, hn]
        rfl

theorem Settled.call_ready (h : Settled c p) (k : Linter.Call) :
    (p.linter.call k).2.ready = p.linter.ready.drop k.size := by
  have hsplit := p.linter.ready_eq_append k
  rw [h.call_fst] at hsplit
  exact List.append_cancel_left (hsplit.symm.trans (List.take_append_drop k.size _).symm)

theorem Settled.calls_fst (h : Settled c p) (ks : List Linter.Call) :
    (p.linter.calls ks).1 = p.linter.ready.take (Linter.totalSize ks) := by
  induction ks generalizing p with
  | nil => rfl
  | cons k ks ih =>
      rw [Linter.calls, Linter.totalSize, List.take_add, ← h.call_fst, ← h.call_ready]
      exact congrArg (_ ++ ·) (ih (h.call k))

theorem Settled.calls_ready (h : Settled c p) (ks : List Linter.Call) :
    (p.linter.calls ks).2.ready = p.linter.ready.drop (Linter.totalSize ks) := by
  have hsplit := p.linter.ready_eq_append_calls ks
  rw [h.calls_fst] at hsplit
  exact List.append_cancel_left (hsplit.symm.trans (List.take_append_drop _ _).symm)

/-- Calls leave nothing exactly if they may return as many updates as are ready. -/
theorem Settled.exhausts_iff_le (h : Settled c p) {ks : List Linter.Call} :
    p.linter.Exhausts ks ↔ p.linter.ready.length ≤ Linter.totalSize ks := by
  rw [Linter.exhausts_iff, h.calls_ready, List.drop_eq_nil_iff]

/-- Whoever gets no update from a call that may return one has them all. -/
theorem Settled.exhausts_of_call_eq_nil (h : Settled c p) {ks : List Linter.Call} {k : Linter.Call}
    (hk : 0 < k.size) (hcall : ((p.linter.calls ks).2.call k).1 = []) : p.linter.Exhausts ks := by
  rw [Linter.exhausts_iff]
  have htake := (h.calls ks).call_fst k
  have hnone : (p.linter.calls ks).2.ready.take k.size = [] := htake.symm.trans hcall
  rcases List.take_eq_nil_iff.mp hnone with hzero | hnil
  · omega
  · exact hnil

/-- What calls that leave nothing have returned, and the state after them. -/
theorem Settled.calls_of_exhausts (h : Settled c p) {ks : List Linter.Call}
    (hks : p.linter.Exhausts ks) :
    (p.linter.calls ks).1 = p.linter.ready ∧
      (p.linter.calls ks).2.store = p.linter.settledStore ∧
      (p.linter.calls ks).2.inFlight = 0 := by
  have hready := Linter.exhausts_iff.mp hks
  refine ⟨?_, ?_, (h.calls ks).ready_eq_nil_iff.mp hready⟩
  · have hsplit := p.linter.ready_eq_append_calls ks
    rw [hready, List.append_nil] at hsplit
    exact hsplit.symm
  · rw [← Linter.settledStore_calls, Linter.settledStore, (Linter.ready_eq_nil_iff.mp hready).1]
    rfl

/-! ### Draining -/

theorem turns_cons (p : Pipeline) (t : Turn) (ts : List Turn) :
    p.turns (t :: ts) =
      ((p.turn t).1.toList ++ ((p.turn t).2.turns ts).1, ((p.turn t).2.turns ts).2) := rfl

theorem turn_of_live_eq_nil (hlive : p.live = []) (t : Turn) :
    ∃ ks, (p.turn t).1.toList = (p.linter.calls ks).1 ∧
      (p.turn t).2 = p.withLinter (p.linter.calls ks).2 := by
  cases t with
  | run k =>
      have hnone : p.advance? k = none := by
        rw [advance?, hlive]
        rfl
      refine ⟨[], rfl, ?_⟩
      rw [turn, hnone]
      rfl
  | host =>
      obtain ⟨hgiven, hleft⟩ := p.takeNext_eq
      exact ⟨[.next], hgiven.trans (List.append_nil _).symm, hleft⟩

/-- Without live runs the turns are calls. -/
theorem turns_eq_calls (hlive : p.live = []) (ts : List Turn) :
    ∃ ks, p.turns ts = ((p.linter.calls ks).1, p.withLinter (p.linter.calls ks).2) := by
  induction ts generalizing p with
  | nil => exact ⟨[], rfl⟩
  | cons t ts ih =>
      obtain ⟨ks, hgiven, hleft⟩ := turn_of_live_eq_nil hlive t
      have hlive' : (p.turn t).2.live = [] := by
        rw [hleft]
        exact hlive
      obtain ⟨ks', hrest⟩ := ih hlive'
      rw [hleft] at hrest
      refine ⟨ks ++ ks', ?_⟩
      rw [turns_cons, hgiven, hleft, hrest, Linter.calls_append]
      rfl

theorem settle_of_live_eq_nil (hlive : p.live = []) : p.settle = p := by
  rw [settle, stepsLeft, hlive]
  rfl

theorem takeAll_of_none {q : Pipeline} (n : Nat) (h : p.settle.takeNext = (none, q)) :
    p.takeAll (n + 1) = ([], q) := by
  simp only [takeAll, h]

theorem takeAll_of_some {q : Pipeline} {d : Delivery} (n : Nat)
    (h : p.settle.takeNext = (some d, q)) :
    p.takeAll (n + 1) = (d :: (q.takeAll n).1, (q.takeAll n).2) := by
  simp only [takeAll, h]

/-- Taking more updates than are ready leaves nothing. -/
theorem Settled.takeAll_eq_calls (h : Settled c p) (n : Nat) (hn : p.linter.ready.length < n) :
    ∃ ks, p.takeAll n = ((p.linter.calls ks).1, p.withLinter (p.linter.calls ks).2) ∧
      p.linter.Exhausts ks := by
  induction n generalizing p with
  | zero => exact absurd hn (Nat.not_lt_zero _)
  | succ n ih =>
      obtain ⟨hgiven, hleft⟩ := p.takeNext_eq
      cases htake : p.takeNext with
      | mk given q =>
      rw [htake] at hgiven hleft
      rw [← settle_of_live_eq_nil h.live] at htake
      cases given with
      | none =>
          rw [takeAll_of_none n htake]
          refine ⟨[.next], ?_, ?_⟩
          · show ([], q) = ((p.linter.call .next).1 ++ [], p.withLinter (p.linter.call .next).2)
            rw [← hgiven, ← hleft]
            rfl
          · -- The call has returned nothing, so nothing was ready.
            have htaken : p.linter.ready.take 1 = [] :=
              (h.call_fst .next).symm.trans hgiven.symm
            have hready := (List.take_eq_nil_iff.mp htaken).resolve_left Nat.one_ne_zero
            rw [h.exhausts_iff_le, hready]
            exact Nat.zero_le _
      | some d =>
          have hready : p.linter.ready = [d] ++ (p.linter.call .next).2.ready := by
            rw [Linter.ready_eq_append p.linter .next, ← hgiven]
            rfl
          have hn' : (p.linter.call .next).2.ready.length < n := by
            rw [hready, List.length_append, List.length_singleton] at hn
            omega
          obtain ⟨ks, hrest, hexhausts⟩ := ih (h.call .next) hn'
          refine ⟨.next :: ks, ?_, hexhausts⟩
          rw [takeAll_of_some n htake, Linter.calls, ← hgiven, show q = _ from hleft, hrest]
          rfl

/-- Draining a pipeline without live runs is making calls until nothing is left. -/
theorem Settled.drain_eq_calls (h : Settled c p) (schedule : List Turn) :
    ∃ ks, p.drain schedule = ((p.linter.calls ks).1, p.withLinter (p.linter.calls ks).2) ∧
      p.linter.Exhausts ks := by
  obtain ⟨early, hearly⟩ := turns_eq_calls h.live schedule
  have hq := h.calls early
  have hn : (p.linter.calls early).2.ready.length <
      (p.withLinter (p.linter.calls early).2).updatesLeft + 1 := by
    have hle := (p.linter.calls early).2.length_ready_le
    show _ < (p.linter.calls early).2.queue.length + (p.linter.calls early).2.ended.length + _ + 1
    omega
  obtain ⟨late, hlate, hexhausts⟩ := hq.takeAll_eq_calls _ hn
  refine ⟨early ++ late, ?_, ?_⟩
  · rw [drain, hearly]
    simp only [hlate, Linter.calls_append]
    rfl
  · intro k
    rw [Linter.calls_append]
    exact hexhausts k

end Pipeline

namespace Session

variable {c : Analyzer.Config} {s : Session}

/-! ### Pumping and draining -/

/-- What a number of pumps show, and the session after them. -/
def pumps (s : Session) : Nat → List HostCall × Session
  | 0 => ([], s)
  | n + 1 => (s.pump.calls ++ (s.pump.session.pumps n).1, (s.pump.session.pumps n).2)

/-- The session with another state of its linter. -/
def withLinter (s : Session) (l : Linter) : Session :=
  { s with pipeline := s.pipeline.withLinter l }

@[simp] theorem withLinter_linter (s : Session) (l : Linter) : (s.withLinter l).linter = l := rfl

theorem pump_eq (s : Session) : s.pump =
    { count := (s.linter.poll updateBudget).1.length
      calls := calls (s.linter.poll updateBudget).1
      session := s.withLinter (s.linter.poll updateBudget).2 } := by
  -- The budget is a number that must not be counted down here.
  unfold pump
  generalize updateBudget = budget
  rfl

theorem pump_eq_nil_iff (s : Session) :
    s.pump.calls = [] ↔ (s.linter.call (.poll updateBudget)).1 = [] :=
  List.map_eq_nil_iff

/-- A pump that shows nothing leaves the store as it is. -/
theorem store_pump (h : s.pump.calls = []) : s.pump.session.linter.store = s.linter.store := by
  obtain ⟨applied, broken, hcall⟩ := s.linter.call_applies (.poll updateBudget)
  have hgiven := hcall.given
  rw [s.pump_eq_nil_iff.mp h, eq_comm, List.append_eq_nil_iff, List.map_eq_nil_iff] at hgiven
  have hstore := hcall.store
  rw [hgiven.1] at hstore
  exact hstore

theorem pumps_eq_calls (s : Session) (n : Nat) :
    s.pumps n =
      (calls (s.linter.calls (List.replicate n (.poll updateBudget))).1,
        s.withLinter (s.linter.calls (List.replicate n (.poll updateBudget))).2) := by
  induction n generalizing s with
  | zero => rfl
  | succ n ih =>
      rw [pumps, ih, List.replicate_succ, Linter.calls]
      refine Prod.ext ?_ rfl
      exact List.map_append.symm

/-- Pumping until nothing is shown agrees with draining. -/
theorem pumps_eq_drain (h : s.pipeline.Settled c) {n : Nat} (hn : (s.pumps n).2.pump.calls = [])
    (schedule : List Pipeline.Turn) :
    (s.pumps n).1 = (s.drain schedule).1 ∧
      (s.pumps n).2.linter.store = (s.drain schedule).2.linter.store ∧
      (s.pumps n).2.linter.inFlight = 0 ∧ (s.drain schedule).2.linter.inFlight = 0 := by
  obtain ⟨ks, hdrain, hks⟩ := h.drain_eq_calls schedule
  have hdrained : s.drain schedule =
      (calls (s.linter.calls ks).1, s.withLinter (s.linter.calls ks).2) := by
    rw [drain, hdrain]
    rfl
  rw [s.pumps_eq_calls] at hn ⊢
  rw [hdrained]
  rw [pump_eq_nil_iff, withLinter_linter] at hn
  have hpumped := h.exhausts_of_call_eq_nil (by decide) hn
  obtain ⟨hgiven, hstore, hzero⟩ := h.calls_of_exhausts hpumped
  obtain ⟨hgiven', hstore', hzero'⟩ := h.calls_of_exhausts hks
  exact ⟨congrArg calls (hgiven.trans hgiven'.symm), hstore.trans hstore'.symm, hzero, hzero'⟩

end Session

namespace Pipeline

variable {c : Analyzer.Config} {labels : List Label} {p : Pipeline}

/-! ### Main statement -/

/--
When every run has ended, any two sequences of calls that leave nothing return the same updates, one
after the other, and they leave the same store and no run in flight. A sequence leaves nothing as
soon as a call that may return an update returns none, and at the latest when its calls may return
as many updates as are ready. A poll is two polls with the parts of its budget, to the last detail
of the state, and pumping in batches agrees with draining, whatever turns the machine takes.
-/
theorem consumption_does_not_matter (h : Steps (.ofConfig c) labels p) (hlive : p.live = []) :
    (∀ ks ks', p.linter.Exhausts ks → p.linter.Exhausts ks' →
      (p.linter.calls ks).1 = (p.linter.calls ks').1 ∧
      (p.linter.calls ks).2.store = (p.linter.calls ks').2.store ∧
      (p.linter.calls ks).2.inFlight = 0 ∧ (p.linter.calls ks').2.inFlight = 0) ∧
    (∀ ks k, 0 < k.size → ((p.linter.calls ks).2.call k).1 = [] → p.linter.Exhausts ks) ∧
    (∀ ks, p.linter.ready.length ≤ Linter.totalSize ks → p.linter.Exhausts ks) ∧
    (∀ a b, p.linter.poll (a + b) =
      ((p.linter.poll a).1 ++ ((p.linter.poll a).2.poll b).1, ((p.linter.poll a).2.poll b).2)) ∧
    ∀ (s : Session) (n : Nat) (schedule : List Turn), s.pipeline = p →
      (s.pumps n).2.pump.calls = [] →
      (s.pumps n).1 = (s.drain schedule).1 ∧
      (s.pumps n).2.linter.store = (s.drain schedule).2.linter.store ∧
      (s.pumps n).2.linter.inFlight = 0 ∧ (s.drain schedule).2.linter.inFlight = 0 := by
  have hp : Settled c p := ⟨⟨labels, h⟩, hlive⟩
  refine ⟨?_, ?_, ?_, p.linter.poll_add, ?_⟩
  · intro ks ks' hks hks'
    obtain ⟨hgiven, hstore, hzero⟩ := hp.calls_of_exhausts hks
    obtain ⟨hgiven', hstore', hzero'⟩ := hp.calls_of_exhausts hks'
    exact ⟨hgiven.trans hgiven'.symm, hstore.trans hstore'.symm, hzero, hzero'⟩
  · intro ks k hk hcall
    exact hp.exhausts_of_call_eq_nil hk hcall
  · intro ks hle
    exact hp.exhausts_iff_le.mpr hle
  · intro s n schedule hs hn
    subst hs
    exact Session.pumps_eq_drain hp hn schedule

/-- A report in the queue and a broken task: one poll, or one update at a time. -/
theorem consumption_does_not_matter_two :
    ∃ (labels : List Label) (p : Pipeline), Steps (.ofConfig {}) labels p ∧ p.live = [] ∧
      p.linter.inFlight = 2 ∧ (p.linter.calls [.poll 32]).1.map (·.run) = [0, 1] ∧
      (p.linter.calls [.poll 32]).1 = (p.linter.calls [.next, .poll 0, .next]).1 ∧
      (p.linter.calls [.poll 32]).2.store = (p.linter.calls [.next, .poll 0, .next]).2.store := by
  have named := Machine.identity?_root {}
  have accepted : (ofConfig {}).linter.accepts "python" = true := by decide
  have first : Steps (.ofConfig {}) _ _ :=
    .snoc .refl (.start ⟨[], .report "" (some 0)⟩ accepted named)
  have started := first.snoc (.start ⟨[], .died "boom"⟩ accepted named)
  have ended := (started.snoc (.run (k := 1) rfl (List.append_nil _).symm)).snoc
    (@Step.run _ _ 0 [_] rfl rfl)
  obtain ⟨agree, -, exhausts, -⟩ := consumption_does_not_matter ended rfl
  obtain ⟨given, store, -, -⟩ := agree [.poll 32] [.next, .poll 0, .next]
    (exhausts _ (by decide)) (exhausts _ (by decide))
  exact ⟨_, _, ended, rfl, rfl, rfl, given, store⟩

end Pipeline

end SaveLint
