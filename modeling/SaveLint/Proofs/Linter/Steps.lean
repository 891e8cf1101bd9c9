import SaveLint.Linter.Pipeline
import SaveLint.Proofs.Linter.Calls

/-!
# Steps of the pipeline

What can happen to a pipeline, one thing at a time: a document is saved, a live run sends its next
event or breaks down, the host makes a call. `Step` is the relation, with a label that says what
there was to see, and `Steps` is any number of steps in any order, which leaves the interleaving of
runs and calls open.

The run of an accepted save is arbitrary, since the linter does not know what a run will send or how
it will end. The runs that `save?` starts are among them (`step_of_save?`), and so are the steps of
all other operations (`step_of_advance?`, `step_of_poll`, `step_of_takeNext`).

What a step of a live run changes is said once, by `Moves`.
-/

namespace SaveLint

/-- The last event of a run that ends in this way, if the run sends one. -/
def Analyzer.Ending.news? : Analyzer.Ending → Option News
  | report stdout exit => some (.report stdout exit)
  | failed why => some (.failed why)
  | died _ => none

namespace Pipeline

/-! ### Steps of live runs -/

/-- The steps of a live run, with the events that are sent. -/
inductive Moves (p : Pipeline) : List Event → Pipeline → Prop where
  /-- The run sends a chunk of the standard error. -/
  | chunk {before after : List LiveRun} {r : LiveRun} {text : String} {texts : List String}
      (live : p.live = before ++ r :: after) (left : r.left.chunks = text :: texts)
      (room : p.linter.queue.length < Linter.capacity) :
      Moves p [⟨r.number, r.file, .stderr text⟩]
        { p with
          linter := { p.linter with
            queue := p.linter.queue ++ [⟨r.number, r.file, .stderr text⟩] }
          live := before ++ { r with left := { r.left with chunks := texts } } :: after }
  /-- The run sends its last event, and its task returns. -/
  | last {before after : List LiveRun} {r : LiveRun} {news : News}
      (live : p.live = before ++ r :: after) (left : r.left.chunks = [])
      (ending : r.left.ending.news? = some news)
      (room : p.linter.queue.length < Linter.capacity) :
      Moves p [⟨r.number, r.file, news⟩]
        { p with
          linter := { p.linter with
            queue := p.linter.queue ++ [⟨r.number, r.file, news⟩]
            ended := p.linter.ended ++ [.returned r.number] }
          live := before ++ after }
  /-- The task of the run breaks down. -/
  | death {before after : List LiveRun} {r : LiveRun} {message : String}
      (live : p.live = before ++ r :: after) (left : r.left.chunks = [])
      (ending : r.left.ending = .died message) :
      Moves p []
        { p with
          linter := { p.linter with ended := p.linter.ended ++ [.died r.number message] }
          live := before ++ after }

theorem Moves.queue {p q : Pipeline} {sent : List Event} (h : p.Moves sent q) :
    q.linter.queue = p.linter.queue ++ sent := by
  cases h with
  | chunk => rfl
  | last => rfl
  | death => exact (List.append_nil _).symm

theorem Moves.store {p q : Pipeline} {sent : List Event} (h : p.Moves sent q) :
    q.linter.store = p.linter.store := by
  cases h <;> rfl

theorem send?_eq_some {l l' : Linter} {e : Event} (h : l.send? e = some l') :
    l.queue.length < Linter.capacity ∧ l' = { l with queue := l.queue ++ [e] } := by
  unfold Linter.send? at h
  split at h
  · rename_i room
    exact ⟨room, (Option.some.inj h).symm⟩
  · cases h

theorem moves_of_sendLast? {p q : Pipeline} {k : Nat} {r : LiveRun} {news : News}
    (live : p.live = p.live.take k ++ r :: p.live.drop (k + 1)) (left : r.left.chunks = [])
    (ending : r.left.ending.news? = some news) (h : p.sendLast? k r news = some q) :
    p.Moves [⟨r.number, r.file, news⟩] q := by
  obtain ⟨l, hl, rfl⟩ := Option.map_eq_some_iff.mp h
  obtain ⟨room, rfl⟩ := send?_eq_some hl
  rw [List.eraseIdx_eq_take_drop_succ]
  exact .last live left ending room

/-- Everything that a step of a live run can do. -/
theorem moves_of_advance? {p q : Pipeline} {k : Nat} (h : p.advance? k = some q) :
    ∃ sent, p.Moves sent q := by
  obtain ⟨r, hr, h⟩ := Option.bind_eq_some_iff.mp h
  obtain ⟨hk, rfl⟩ := List.getElem?_eq_some_iff.mp hr
  have live : p.live = p.live.take k ++ p.live[k] :: p.live.drop (k + 1) := by
    rw [← List.drop_eq_getElem_cons hk, List.take_append_drop]
  split at h
  · rename_i chunk chunks left
    obtain ⟨l, hl, h⟩ := Option.bind_eq_some_iff.mp h
    obtain ⟨room, rfl⟩ := send?_eq_some hl
    cases h
    rw [List.set_eq_take_append_cons_drop, if_pos hk]
    exact ⟨_, .chunk live left room⟩
  · rename_i left
    split at h
    · rename_i stdout exit ending
      exact ⟨_, moves_of_sendLast? live left (by rw [ending]; rfl) h⟩
    · rename_i why ending
      exact ⟨_, moves_of_sendLast? live left (by rw [ending]; rfl) h⟩
    · rename_i message ending
      cases h
      rw [List.eraseIdx_eq_take_drop_succ]
      exact ⟨_, .death live left ending⟩

/-! ### All steps -/

/-- What there is to see of a step. -/
inductive Label where
  /-- A save was accepted, and a run was started. -/
  | started (file : FileIdentity) (run : Analyzer.Run)
  | refused
  /-- A live run has gone on, and has sent these events. -/
  | ran (sent : List Event)
  /-- A call has returned the updates for queued events, and those for broken tasks after them. -/
  | took (queued broken : List Delivery)

/-- The steps of a pipeline. -/
inductive Step : Pipeline → Label → Pipeline → Prop where
  /-- A document is saved whose language is the analyzer's and which has an identity. -/
  | start {p : Pipeline} {m : Machine} {language : String} {path : Path} {file : FileIdentity}
      (run : Analyzer.Run) (accepted : p.linter.accepts language = true)
      (named : m.identity? path = some file) :
      Step p (.started file run) (p.start file run)
  /-- A document is saved which does not start a run. -/
  | refuse {p : Pipeline} {m : Machine} {language : String} {path : Path}
      (refused : p.save? m language path = none) :
      Step p .refused p
  /-- A live run takes its next step. -/
  | run {p q : Pipeline} {k : Nat} {sent : List Event} (moved : p.advance? k = some q)
      (queue : q.linter.queue = p.linter.queue ++ sent) :
      Step p (.ran sent) q
  /-- The host polls with some budget. -/
  | poll {p : Pipeline} {l : Linter} {queued broken : List Delivery} (budget : Nat)
      (fromQueue : (Linter.pollQueue budget p.linter).1 = queued)
      (all : p.linter.poll budget = (queued ++ broken, l)) :
      Step p (.took queued broken) { p with linter := l }
  /-- The host takes the next update, and it is there for an event. -/
  | nextQueued {p : Pipeline} {l : Linter} {d : Delivery} (queue : p.linter.queue ≠ [])
      (next : p.linter.next = (.update d, l)) :
      Step p (.took [d] []) { p with linter := l }
  /-- The host takes the next update, and it is there for a broken task. -/
  | nextBroken {p : Pipeline} {l : Linter} {d : Delivery} (queue : p.linter.queue = [])
      (next : p.linter.next = (.update d, l)) :
      Step p (.took [] [d]) { p with linter := l }
  /-- The host asks for the next update, and there is none. -/
  | nextNone {p : Pipeline} {l : Linter} {answer : Linter.Next} (none : ∀ d, answer ≠ .update d)
      (next : p.linter.next = (answer, l)) :
      Step p (.took [] []) { p with linter := l }

/-- Any number of steps, with their labels in order. -/
inductive Steps (p : Pipeline) : List Label → Pipeline → Prop where
  | refl : Steps p [] p
  | snoc {labels : List Label} {label : Label} {q r : Pipeline} (steps : Steps p labels q)
      (step : Step q label r) : Steps p (labels ++ [label]) r

/-! ### What a step changes -/

theorem Step.moves {p q : Pipeline} {sent : List Event} (h : Step p (.ran sent) q) :
    p.Moves sent q := by
  cases h with
  | run moved queue =>
      obtain ⟨sent', hm⟩ := moves_of_advance? moved
      have heq : sent' = sent := List.append_cancel_left (hm.queue.symm.trans queue)
      exact heq ▸ hm

theorem Step.takes {p q : Pipeline} {queued broken : List Delivery}
    (h : Step p (.took queued broken) q) :
    ∃ applied l, queued = applied.map (Event.answer p.linter.config) ∧
      p.linter.Takes applied broken l ∧ q = { p with linter := l } := by
  cases h with
  | poll budget fromQueue all =>
      obtain ⟨applied, failed, ht, hq, hall⟩ := p.linter.poll_takes budget
      rw [all] at ht hall
      rw [fromQueue] at hq
      subst hq
      have hfailed : broken = failed := List.append_cancel_left hall
      exact ⟨applied, _, rfl, hfailed ▸ ht, rfl⟩
  | nextQueued queue next =>
      rcases p.linter.next_cases with ⟨-, hn⟩ | ⟨e, _, -, hn, ht⟩ | ⟨_, _, -, hq, -⟩ |
        ⟨_, -, hq, -⟩
      · cases hn.symm.trans next
      · cases hn.symm.trans next
        exact ⟨[e], _, rfl, ht, rfl⟩
      · exact absurd hq queue
      · exact absurd hq queue
  | nextBroken queue next =>
      rcases p.linter.next_cases with ⟨-, hn⟩ | ⟨e, _, -, -, ht⟩ | ⟨_, _, -, -, hn, ht⟩ |
        ⟨_, -, -, -, hn, -⟩
      · cases hn.symm.trans next
      · exact absurd (ht.queue.symm.trans queue) (List.cons_ne_nil e _)
      · cases hn.symm.trans next
        exact ⟨[], _, rfl, ht, rfl⟩
      · cases hn.symm.trans next
  | nextNone none next =>
      rcases p.linter.next_cases with ⟨-, hn⟩ | ⟨_, _, -, hn, -⟩ | ⟨_, _, -, -, hn, -⟩ |
        ⟨_, -, -, -, hn, ht⟩
      · cases hn.symm.trans next
        exact ⟨[], _, rfl, .none p.linter, rfl⟩
      · cases hn.symm.trans next
        exact absurd rfl (none _)
      · cases hn.symm.trans next
        exact absurd rfl (none _)
      · cases hn.symm.trans next
        exact ⟨[], _, rfl, ht, rfl⟩

/-! ### The operations are steps -/

theorem step_of_save? {p q : Pipeline} {m : Machine} {language : String} {path : Path}
    (h : p.save? m language path = some q) :
    ∃ file run, q = p.start file run ∧ Step p (.started file run) q := by
  obtain ⟨_, hg, h⟩ := Option.bind_eq_some_iff.mp h
  obtain ⟨file, hf, h⟩ := Option.bind_eq_some_iff.mp h
  cases h
  have accepted : p.linter.accepts language = true := by
    cases ha : p.linter.accepts language with
    | true => rfl
    | false =>
      rw [ha] at hg
      cases hg
  exact ⟨file, _, rfl, .start _ accepted hf⟩

theorem step_of_advance? {p q : Pipeline} {k : Nat} (h : p.advance? k = some q) :
    ∃ sent, Step p (.ran sent) q := by
  obtain ⟨sent, hm⟩ := moves_of_advance? h
  exact ⟨sent, .run h hm.queue⟩

theorem step_of_poll (p : Pipeline) (budget : Nat) :
    ∃ queued broken, (p.linter.poll budget).1 = queued ++ broken ∧
      Step p (.took queued broken) { p with linter := (p.linter.poll budget).2 } := by
  obtain ⟨applied, broken, -, hq, hall⟩ := p.linter.poll_takes budget
  exact ⟨_, broken, hall, .poll budget hq (Prod.ext hall rfl)⟩

theorem step_of_takeNext (p : Pipeline) :
    ∃ queued broken, p.takeNext.1.toList = queued ++ broken ∧
      Step p (.took queued broken) p.takeNext.2 := by
  unfold takeNext
  split
  · rename_i d l next
    by_cases queue : p.linter.queue = []
    · exact ⟨[], [d], rfl, .nextBroken queue next⟩
    · exact ⟨[d], [], rfl, .nextQueued queue next⟩
  · rename_i answer l none next
    exact ⟨[], [], rfl, .nextNone none next⟩

end Pipeline

end SaveLint
