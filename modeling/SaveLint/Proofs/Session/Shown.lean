import SaveLint.Proofs.Linter.Draining

/-!
# What the host shows is what the store holds

A pump applies a whole batch of events to the store before it shows any of them, and a drain shows
every update at once. Either way the host is called once for each update and in their order, so for
every file the lists shown are the diagnostics of the reports that were applied
(`Shows.shown`), and the last one is what the store holds.

`Session.Step` says what can happen to a session. The run of an accepted save may send whatever it
likes, and a drain is a number of steps, so that its middle can be looked at as well.
-/

namespace SaveLint

/-! ### What calls show -/

/-- The diagnostics that a call shows for a file. -/
def HostCall.shown? (file : FileIdentity) : HostCall → Option (List Diagnostic)
  | publish id items => if id.same file then some items else none
  | _ => none

/-- The lists of diagnostics that calls show for a file, in order. -/
def shownFor (file : FileIdentity) (calls : List HostCall) : List (List Diagnostic) :=
  calls.filterMap (HostCall.shown? file)

theorem shownFor_append (file : FileIdentity) (calls more : List HostCall) :
    shownFor file (calls ++ more) = shownFor file calls ++ shownFor file more :=
  List.filterMap_append

/-- A report is shown for its file. -/
theorem shown?_answer (c : Analyzer.Config) (file : FileIdentity) (e : Event) :
    (HostCall.ofUpdate (e.answer c).update).shown? file =
      (e.report? file).map (Report.diagnostics c.source) := by
  obtain ⟨run, id, news⟩ := e
  cases news with
  | stderr chunk => rfl
  | failed why => rfl
  | report stdout exit =>
      simp only [Event.answer, HostCall.ofUpdate, HostCall.shown?, Event.report?]
      split <;> rfl

theorem shownFor_answers (c : Analyzer.Config) (file : FileIdentity) (es : List Event) :
    shownFor file (Session.calls (es.map (Event.answer c))) =
      (reportsFor file es).map (Report.diagnostics c.source) := by
  simp only [shownFor, Session.calls, reportsFor, List.filterMap_map, List.map_filterMap]
  congr 1
  funext e
  exact shown?_answer c file e

theorem shownFor_failures (file : FileIdentity) (tasks : List TaskEnd) :
    shownFor file (Session.calls (tasks.filterMap TaskEnd.failure?)) = [] := by
  rw [shownFor, List.filterMap_eq_nil_iff]
  intro call hcall
  obtain ⟨d, hd, rfl⟩ := List.mem_map.mp hcall
  obtain ⟨text, htext⟩ := TaskEnd.exists_error_of_mem hd
  rw [htext]
  rfl

/-- A call of the linter shows the reports that it applies. -/
theorem Linter.Applies.shownFor {l : Linter} {k : Call} {applied : List Event}
    {broken : List Delivery} (h : l.Applies k applied broken) (file : FileIdentity) :
    shownFor file (Session.calls (l.call k).1) =
      (reportsFor file applied).map (Report.diagnostics l.config.source) := by
  obtain ⟨passed, -, rfl⟩ := h.takes.ended
  rw [h.given, Session.calls, List.map_append, ← Session.calls, ← Session.calls, shownFor_append,
    shownFor_answers, shownFor_failures, List.append_nil]

namespace Session

/-- The fix command changes nothing that is shown for a file. -/
theorem shownFor_fix (s : Session) (m : Machine) (server : Llm.Server) (d : Option Document)
    (file : FileIdentity) : shownFor file (s.fix m server d).calls = [] := by
  cases d with
  | none => rfl
  | some d =>
      unfold fix
      dsimp only
      split
      · rfl
      · split
        · rfl
        · split <;> rfl

/-! ### What happens to a session -/

/-- What can happen to a session, with the events that runs send and the calls of the host. -/
inductive Step (s : Session) : List Event → List HostCall → Session → Prop where
  /-- A document is saved. -/
  | save (m : Machine) (d : Document) : Step s [] [] (s.save m d).2
  /-- A document is saved whose run may send anything. -/
  | started {file : FileIdentity} {run : Analyzer.Run} {p : Pipeline}
      (saved : s.pipeline.Step (.started file run) p) : Step s [] [] { s with pipeline := p }
  /-- A live run goes on. -/
  | ran {sent : List Event} {p : Pipeline} (moved : s.pipeline.Moves sent p) :
      Step s sent [] { s with pipeline := p }
  | pump : Step s [] s.pump.calls s.pump.session
  /-- A drain shows the next update, if there is one. -/
  | take : Step s [] (calls s.pipeline.takeNext.1.toList)
      { s with pipeline := s.pipeline.takeNext.2 }
  | fix (m : Machine) (server : Llm.Server) (d : Option Document) :
      Step s [] (s.fix m server d).calls s

/-- Any number of steps, with all events and all calls in order. -/
inductive Steps (s : Session) : List Event → List HostCall → Session → Prop where
  | refl : Steps s [] [] s
  | snoc {sent more : List Event} {calls further : List HostCall} {t u : Session}
      (steps : Steps s sent calls t) (step : Step t more further u) :
      Steps s (sent ++ more) (calls ++ further) u

variable {c : Analyzer.Config} {client : Llm.Client} {sent more : List Event}
  {shown further : List HostCall} {s t : Session}

theorem Steps.trans {u : Session} (h : Steps s sent shown t) (h' : Steps t more further u) :
    Steps s (sent ++ more) (shown ++ further) u := by
  induction h' with
  | refl => rw [List.append_nil, List.append_nil]; exact h
  | snoc _ step ih =>
      rw [← List.append_assoc, ← List.append_assoc]
      exact .snoc ih step

theorem Steps.single (h : Step s sent shown t) : Steps s sent shown t := .snoc .refl h

/-- The turns of a drain are steps. -/
theorem steps_of_turns (s : Session) (ts : List Pipeline.Turn) :
    ∃ sent, Steps s sent (calls (s.pipeline.turns ts).1)
      { s with pipeline := (s.pipeline.turns ts).2 } := by
  induction ts generalizing s with
  | nil => exact ⟨[], .refl⟩
  | cons t ts ih =>
      obtain ⟨sent, hfirst⟩ : ∃ sent, Steps s sent (calls (s.pipeline.turn t).1.toList)
          { s with pipeline := (s.pipeline.turn t).2 } := by
        cases t with
        | host => exact ⟨[], .single .take⟩
        | run k =>
            rw [Pipeline.turn]
            cases hmoved : s.pipeline.advance? k with
            | none => exact ⟨[], .refl⟩
            | some p =>
                obtain ⟨sent, hm⟩ := Pipeline.moves_of_advance? hmoved
                exact ⟨sent, .single (.ran hm)⟩
      obtain ⟨more, hrest⟩ := ih { s with pipeline := (s.pipeline.turn t).2 }
      refine ⟨sent ++ more, ?_⟩
      rw [Pipeline.turns_cons, calls, List.map_append, ← calls, ← calls]
      exact hfirst.trans hrest

/-! ### The invariant -/

/--
The store is that of the events that were applied, and what was shown for a file are the diagnostics
of its reports among them.
-/
structure Shows (c : Analyzer.Config) (sent : List Event) (shown : List HostCall) (s : Session) :
    Prop where
  config : s.linter.config = c
  applied : ∃ applied, sent = applied ++ s.linter.queue ∧
    s.linter.store = Store.applyAll c {} applied ∧
    ∀ file, shownFor file shown = (reportsFor file applied).map (Report.diagnostics c.source)

/-- A step that leaves the linter's store as it is, and shows no diagnostics. -/
theorem Shows.quiet (h : Shows c sent shown s) (hconfig : t.linter.config = s.linter.config)
    (hqueue : t.linter.queue = s.linter.queue ++ more) (hstore : t.linter.store = s.linter.store)
    (hshown : ∀ file, shownFor file further = []) :
    Shows c (sent ++ more) (shown ++ further) t := by
  obtain ⟨applied, hsent, hs, hfiles⟩ := h.applied
  refine ⟨hconfig.trans h.config, applied, ?_, hstore.trans hs, ?_⟩
  · rw [hsent, hqueue, List.append_assoc]
  · intro file
    rw [shownFor_append, hshown, List.append_nil, hfiles]

/-- A call of the linter, shown by the host. -/
theorem Shows.call (h : Shows c sent shown s) (k : Linter.Call) :
    Shows c sent (shown ++ calls (s.linter.call k).1) (s.withLinter (s.linter.call k).2) := by
  obtain ⟨before, hsent, hstore, hfiles⟩ := h.applied
  obtain ⟨applied, broken, hk⟩ := s.linter.call_applies k
  refine ⟨hk.takes.config.trans h.config, before ++ applied, ?_, ?_, ?_⟩
  · rw [hsent, hk.takes.queue, List.append_assoc]
    rfl
  · rw [Store.applyAll_append, ← hstore, ← h.config]
    exact hk.store
  · intro file
    rw [shownFor_append, hfiles, hk.shownFor, h.config, reportsFor, reportsFor, reportsFor,
      List.filterMap_append, List.map_append]

theorem Shows.step (h : Shows c sent shown s) (hs : Step s more further t) :
    Shows c (sent ++ more) (shown ++ further) t := by
  cases hs with
  | save m d =>
      unfold save
      split
      · rename_i p hsaved
        obtain ⟨file, run, rfl, -⟩ := Pipeline.step_of_save? hsaved
        exact h.quiet rfl (List.append_nil _).symm rfl fun _ => rfl
      · exact h.quiet rfl (List.append_nil _).symm rfl fun _ => rfl
  | started saved =>
      cases saved
      exact h.quiet rfl (List.append_nil _).symm rfl fun _ => rfl
  | ran moved =>
      refine h.quiet moved.config moved.queue ?_ fun _ => rfl
      cases moved <;> rfl
  | pump =>
      rw [List.append_nil]
      exact h.call (.poll updateBudget)
  | take =>
      obtain ⟨hgiven, hleft⟩ := s.pipeline.takeNext_eq
      rw [List.append_nil, hgiven, hleft]
      exact h.call .next
  | fix m server d =>
      exact h.quiet rfl (List.append_nil _).symm rfl (s.shownFor_fix m server d)

theorem Steps.shows (h : Steps (ofConfig c client) sent shown s) : Shows c sent shown s := by
  induction h with
  | refl => exact ⟨rfl, [], rfl, rfl, fun _ => rfl⟩
  | snoc _ step ih => exact ih.step step

/-- The list that was shown last for every file is what the store holds for it. -/
def InSync (shown : List HostCall) (s : Session) : Prop :=
  ∀ file, (shownFor file shown).getLast? = s.linter.store.current file

theorem Shows.agrees (h : Shows c sent shown s) : s.linter.store.Agrees c := by
  obtain ⟨applied, -, hstore, -⟩ := h.applied
  rw [hstore]
  exact (Store.agrees_empty c).applyAll applied

theorem Shows.inSync (h : Shows c sent shown s) : InSync shown s := by
  intro file
  obtain ⟨applied, -, hstore, hfiles⟩ := h.applied
  rw [hfiles, hstore, Store.current_applyAll, List.getLast?_map]

/-- The lists for a file are counted by its reports: this is the one for a certain report. -/
theorem getElem?_diagnostics {file : FileIdentity} {before after : List Event} {e : Event}
    (h : (e.report? file).isSome = true) :
    ((reportsFor file (before ++ e :: after)).map (Report.diagnostics c.source))[
      (reportsFor file before).length]? =
      (Store.applyAll c {} (before ++ [e])).current file := by
  obtain ⟨report, hreport⟩ := Option.isSome_iff_exists.mp h
  have hsplit (rest : List Event) : reportsFor file (before ++ e :: rest) =
      reportsFor file before ++ report :: reportsFor file rest := by
    rw [reportsFor, List.filterMap_append, List.filterMap_cons_some hreport]
    rfl
  rw [Store.current_applyAll, hsplit, hsplit, List.getElem?_map,
    List.getElem?_append_right (Nat.le_refl _), Nat.sub_self, List.getLast?_append]
  rfl

theorem length_calls_pump (s : Session) : s.pump.calls.length = s.pump.count := by
  rw [pump_eq, calls, List.length_map]

theorem count_pump_le (s : Session) : s.pump.count ≤ updateBudget := by
  rw [pump_eq, Linter.poll_fst, List.length_take]
  exact Nat.min_le_left _ _

/-! ### Main statement -/

/--
After any steps of a session, and at every point of a drain that follows them, the host shows for
every file what the store holds. A file of which nothing was shown is not in the store. The lists
shown for a file are those that its applied reports have put into the store, one for each report and
in their order. A pump makes as many calls as the count that it returns, one for each update that it
takes, and at most 32.
-/
theorem host_shows_store (h : Steps (ofConfig c client) sent shown s) :
    InSync shown s ∧
    (∀ file, shownFor file shown = [] →
      s.linter.store.current file = none ∧ s.linter.store.lastReport file = none) ∧
    (∃ applied, sent = applied ++ s.linter.queue ∧ s.linter.store = Store.applyAll c {} applied ∧
      ∀ file, (shownFor file shown).length = (reportsFor file applied).length ∧
        ∀ before e after, applied = before ++ e :: after → (e.report? file).isSome = true →
          (shownFor file shown)[(reportsFor file before).length]? =
            (Store.applyAll c {} (before ++ [e])).current file) ∧
    (InSync (shown ++ s.pump.calls) s.pump.session ∧ s.pump.calls.length = s.pump.count ∧
      s.pump.count = (s.linter.poll updateBudget).1.length ∧ s.pump.count ≤ 32) ∧
    ∀ schedule, ∃ ts, s.drain schedule =
        (calls (s.pipeline.turns ts).1, { s with pipeline := (s.pipeline.turns ts).2 }) ∧
      schedule <+: ts ∧
      ∀ taken, taken <+: ts → InSync (shown ++ calls (s.pipeline.turns taken).1)
        { s with pipeline := (s.pipeline.turns taken).2 } := by
  have hshows := h.shows
  refine ⟨hshows.inSync, ?_, ?_, ⟨?_, s.length_calls_pump, ?_, s.count_pump_le⟩, ?_⟩
  · intro file hnone
    have hcurrent : s.linter.store.current file = none := by
      rw [← hshows.inSync file, hnone]
      rfl
    refine ⟨hcurrent, ?_⟩
    rw [hshows.agrees.current] at hcurrent
    exact Option.map_eq_none_iff.mp hcurrent
  · obtain ⟨applied, hsent, hstore, hfiles⟩ := hshows.applied
    refine ⟨applied, hsent, hstore, ?_⟩
    intro file
    constructor
    · rw [hfiles, List.length_map]
    · intro before e after happlied he
      rw [hfiles, happlied]
      exact getElem?_diagnostics he
  · exact (hshows.step .pump).inSync
  · rw [pump_eq]
  · intro schedule
    obtain ⟨ts, hts⟩ := s.pipeline.drain_eq_turns schedule
    refine ⟨schedule ++ ts, ?_, List.prefix_append _ _, ?_⟩
    · rw [hts]
      rfl
    · intro taken _
      obtain ⟨more, hmore⟩ := s.steps_of_turns taken
      exact (h.trans hmore).shows.inSync

/-- Two reports on one file are taken by one pump: both lists are shown, and the second is last. -/
theorem host_shows_store_overlapping :
    ∃ (client : Llm.Client) (file : FileIdentity) (sent : List Event) (shown : List HostCall)
      (s : Session), Steps (ofConfig {} client) sent shown s ∧
      (shownFor file shown).length = 2 ∧
      (shownFor file shown)[0]? = some (Report.diagnostics "pylint" ":1:0: E0001: boom") ∧
      (shownFor file shown)[1]? = some [] ∧ s.linter.store.current file = some [] := by
  have hfile : (⟨"/"⟩ : Path).isAbsolute = true := by decide
  let client : Llm.Client :=
    ⟨.server ⟨['h', 't', 't', 'p'], ['a'], none, ['/'], none, none⟩, "m", {}⟩
  let file : FileIdentity := ⟨⟨"/"⟩, hfile⟩
  let first : Event := ⟨0, file, .report ":1:0: E0001: boom" none⟩
  let second : Event := ⟨1, file, .report "" none⟩
  have named := Machine.identity?_root {}
  have accepted : (Pipeline.ofConfig {}).linter.accepts "python" = true := by decide
  obtain ⟨s, hsteps, hready⟩ : ∃ s, Steps (ofConfig {} client) [first, second] [] s ∧
      s.linter.queue = [first, second] := by
    have started : Steps (ofConfig {} client) [] [] _ :=
      (Steps.single (.started (.start ⟨[], .report ":1:0: E0001: boom" none⟩ accepted named))).snoc
        (.started (.start ⟨[], .report "" none⟩ accepted named))
    have ran := (started.snoc (.ran (@Pipeline.Moves.last _ [] _ _ _ rfl rfl rfl (by decide)))).snoc
      (.ran (@Pipeline.Moves.last _ [] [] _ _ rfl rfl rfl (by decide)))
    exact ⟨_, ran, rfl⟩
  have pumped := hsteps.snoc .pump
  have hqueue : s.pump.session.linter.queue = [] := by
    show (Linter.pollQueue updateBudget s.linter).2.queue = []
    rw [(Linter.pollQueue_spec updateBudget s.linter).2.2.1, hready]
    rfl
  obtain ⟨hsync, -, ⟨applied, hsent, -, hfiles⟩, -⟩ := host_shows_store pumped
  rw [hqueue, List.append_nil, List.append_nil] at hsent
  subst hsent
  have hreport (run : Nat) (text : String) :
      Event.report? file ⟨run, file, .report text none⟩ = some text := by
    simp [Event.report?, FileIdentity.same, Path.same]
  obtain ⟨hlength, hinstalled⟩ := hfiles file
  have hfirst := hinstalled [] first [second] rfl (by rw [hreport]; rfl)
  have hsecond := hinstalled [first] second [] rfl (by rw [hreport]; rfl)
  simp only [Store.current_applyAll, reportsFor, first, second, hreport, List.nil_append,
    List.cons_append, List.filterMap_cons, List.filterMap_nil] at hlength hfirst hsecond
  have hlast := hsync file
  rw [List.nil_append, List.getLast?_eq_getElem?, hlength] at hlast
  exact ⟨client, file, _, _, _, pumped, hlength, hfirst, hsecond, hlast.symm.trans hsecond⟩

end Session

end SaveLint
