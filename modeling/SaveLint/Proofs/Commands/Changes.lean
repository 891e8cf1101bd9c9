import SaveLint.Commands.Watcher
import SaveLint.Proofs.Machine.Writing
import SaveLint.Proofs.Path.Order
import Mathlib.Tactic.ByContra

/-!
# What a watcher reports

A watcher knows each watched file by its first spelling (`Watcher.IsFirst`), and from every call on
it has seen what this call has observed (`Watcher.Reached.perm_seen`). So a call reports the files
that are there and whose time is not the one seen before, each once and in order, whatever has
happened in the calls before and in whatever order the watcher keeps the files.

At the start each file is observed under its last spelling. Spellings of one path can be told apart:
a slash at the end stands for a directory. A watcher is exact for all observations if no watched
file is spelled in two ways, and only then (`Watcher.changed_isReport_iff`).
-/

namespace SaveLint

namespace Watcher

variable {observe : Nat → Observation} {files before : List Path} {p q : Path} {k : Nat}
  {w w' : Watcher}

/-! ### Spellings -/

/-- The path is the first spelling of a watched file. -/
def IsFirst (files : List Path) (p : Path) : Prop := files.find? (·.same p) = some p

theorem IsFirst.mem (h : IsFirst files p) : p ∈ files := List.mem_of_find?_eq_some h

theorem find?_same_congr (files : List Path) (h : p.same q = true) :
    files.find? (·.same p) = files.find? (·.same q) := by
  have hcongr : (fun f : Path => f.same p) = fun f => f.same q := by
    funext f
    rw [Path.same_comm f p, Path.same_congr h, Path.same_comm]
  rw [hcongr]

/-- A file has one first spelling. -/
theorem IsFirst.eq (hp : IsFirst files p) (hq : IsFirst files q) (h : p.same q = true) : p = q := by
  rw [IsFirst, find?_same_congr files h, hq] at hp
  exact (Option.some.inj hp).symm

theorem exists_isFirst (h : p ∈ files) : ∃ q, IsFirst files q ∧ q.same p = true := by
  have hfound : (files.find? (·.same p)).isSome = true :=
    List.find?_isSome.mpr ⟨p, h, Path.same_refl p⟩
  obtain ⟨q, hq⟩ := Option.isSome_iff_exists.mp hfound
  have hsame := List.find?_some hq
  exact ⟨q, (find?_same_congr files hsame).trans hq, hsame⟩

theorem lastSpelling_spec (h : p ∈ files) :
    lastSpelling files p ∈ files ∧ (lastSpelling files p).same p = true := by
  have hfound : (files.reverse.find? (·.same p)).isSome = true :=
    List.find?_isSome.mpr ⟨p, List.mem_reverse.mpr h, Path.same_refl p⟩
  obtain ⟨q, hq⟩ := Option.isSome_iff_exists.mp hfound
  have hsame := List.find?_some hq
  rw [lastSpelling, hq, Option.getD_some]
  exact ⟨List.mem_reverse.mp (List.mem_of_find?_eq_some hq), hsame⟩

theorem mem_distinct_iff :
    p ∈ distinct before files ↔ (∀ q ∈ before, q.same p = false) ∧ IsFirst files p := by
  induction files generalizing before with
  | nil => simp [distinct, IsFirst]
  | cons f files ih =>
      rw [distinct]
      by_cases hknown : before.any (·.same f) = true
      · rw [if_pos hknown, ih]
        obtain ⟨b, hb, hbf⟩ := List.any_eq_true.mp hknown
        refine and_congr_right fun hfresh => ?_
        -- A path that is new is no spelling of the one that is not.
        have hf : f.same p = false := by
          rw [← Path.same_congr hbf]
          exact hfresh b hb
        rw [IsFirst, IsFirst, List.find?_cons, hf]
      · rw [if_neg hknown, List.mem_cons, ih, List.forall_mem_cons]
        have hfree : ∀ b ∈ before, b.same f = false := by simpa using hknown
        by_cases hf : f.same p = true
        · rw [IsFirst, IsFirst, List.find?_cons, hf, Option.some_inj]
          constructor
          · rintro (rfl | ⟨⟨hfalse, -⟩, -⟩)
            · exact ⟨hfree, rfl⟩
            · cases hfalse
          · rintro ⟨-, rfl⟩
            exact .inl rfl
        · have hne : p ≠ f := by
            rintro rfl
            exact hf (Path.same_refl p)
          rw [IsFirst, IsFirst, List.find?_cons, Bool.eq_false_iff.mpr hf]
          simp [hne]

theorem pairwise_distinct (before files : List Path) :
    (distinct before files).Pairwise fun p q => p.same q = false := by
  induction files generalizing before with
  | nil => exact .nil
  | cons f files ih =>
      rw [distinct]
      split
      · exact ih before
      · refine List.pairwise_cons.mpr ⟨?_, ih _⟩
        intro p hp
        exact (mem_distinct_iff.mp hp).1 f List.mem_cons_self

/-! ### Calls -/

/-- A watcher after some calls; the order in which it keeps the files is left open. -/
inductive Reached (observe : Nat → Observation) (files : List Path) : Nat → Watcher → Prop
  | start {w : Watcher} :
      w.seen.Perm (ofFiles (observe 0) files).seen → Reached observe files 0 w
  | call {k : Nat} {w w' : Watcher} : Reached observe files k w →
      w'.seen.Perm (w.changed (observe (k + 1))).2.seen → Reached observe files (k + 1) w'

theorem exists_reached (observe : Nat → Observation) (files : List Path) (k : Nat) :
    ∃ w, Reached observe files k w := by
  induction k with
  | zero => exact ⟨_, .start (.refl _)⟩
  | succ k ih =>
      obtain ⟨w, hw⟩ := ih
      exact ⟨_, .call hw (.refl _)⟩

/-- What has been seen of a file after some calls: the last observation. -/
def lastSeen (observe : Nat → Observation) (files : List Path) : Nat → Observation
  | 0 => fun p => observe 0 (lastSpelling files p)
  | k + 1 => observe (k + 1)

/-- The invariant of the calls: every one of them renews what is seen of every file. -/
theorem Reached.perm_seen (h : Reached observe files k w) :
    w.seen.Perm ((distinct [] files).map fun p => (p, lastSeen observe files k p)) := by
  induction h with
  | start hseen => exact hseen
  | call _ hseen ih =>
      refine hseen.trans ((ih.map _).trans ?_)
      rw [List.map_map]
      exact .refl _

theorem perm_changed (w : Watcher) (now : Observation) :
    (w.changed now).1.Perm ((w.seen.filter (hasChanged now)).map (·.1)) :=
  Path.perm_sorted _

theorem Reached.mem_changed_iff (h : Reached observe files k w) (now : Observation) :
    p ∈ (w.changed now).1 ↔
      IsFirst files p ∧ (now p).isSome = true ∧ now p ≠ lastSeen observe files k p := by
  have hentry (e : Path × Option Stamp) :
      e ∈ w.seen ↔ IsFirst files e.1 ∧ e.2 = lastSeen observe files k e.1 := by
    obtain ⟨f, seen⟩ := e
    rw [h.perm_seen.mem_iff, List.mem_map]
    constructor
    · rintro ⟨p, hp, heq⟩
      cases heq
      exact ⟨(mem_distinct_iff.mp hp).2, rfl⟩
    · rintro ⟨hfirst, hseen⟩
      exact ⟨f, mem_distinct_iff.mpr ⟨List.forall_mem_nil _, hfirst⟩, congrArg (f, ·) hseen.symm⟩
  rw [(perm_changed w now).mem_iff, List.mem_map]
  constructor
  · rintro ⟨e, he, rfl⟩
    obtain ⟨hmem, hchanged⟩ := List.mem_filter.mp he
    obtain ⟨hfirst, hseen⟩ := (hentry e).mp hmem
    rw [hasChanged, Bool.and_eq_true, bne_iff_ne, hseen] at hchanged
    exact ⟨hfirst, hchanged⟩
  · rintro ⟨hfirst, hpresent, hmoved⟩
    refine ⟨(p, lastSeen observe files k p), List.mem_filter.mpr ⟨(hentry _).mpr ⟨hfirst, rfl⟩, ?_⟩,
      rfl⟩
    rw [hasChanged, Bool.and_eq_true, bne_iff_ne]
    exact ⟨hpresent, hmoved⟩

/-- The files are reported in order, and each of them once. -/
theorem Reached.pairwise_changed (h : Reached observe files k w) (now : Observation) :
    (w.changed now).1.Pairwise fun p q => p.le q = true ∧ p.same q = false := by
  have hsorted : (w.changed now).1.Pairwise fun p q => p.le q = true := Path.pairwise_sorted _
  have hsymm {a b : Path} (hab : a.same b = false) : b.same a = false := by
    rw [Path.same_comm, hab]
  have hknown : (w.seen.map (·.1)).Pairwise fun p q => p.same q = false := by
    rw [(h.perm_seen.map _).pairwise_iff hsymm, List.map_map]
    exact (List.map_id _).symm ▸ pairwise_distinct [] files
  refine hsorted.and (((perm_changed w now).pairwise_iff hsymm).mpr ?_)
  exact hknown.sublist (List.filter_sublist.map _)

/-- The order in which the files are kept has no influence on the report. -/
theorem Reached.changed_eq (h : Reached observe files k w) (h' : Reached observe files k w')
    (now : Observation) : (w.changed now).1 = (w'.changed now).1 := by
  have hseen := h.perm_seen.trans h'.perm_seen.symm
  have hperm : (w.changed now).1.Perm (w'.changed now).1 :=
    (perm_changed w now).trans (((hseen.filter _).map _).trans (perm_changed w' now).symm)
  refine hperm.eq_of_pairwise ?_ (h.pairwise_changed now) (h'.pairwise_changed now)
  rintro p q hp hq ⟨hle, -⟩ ⟨hle', -⟩
  have hp' := ((h.mem_changed_iff now).mp hp).1
  have hq' := ((h'.mem_changed_iff now).mp hq).1
  exact hp'.eq hq' (Path.le_antisymm hle hle')

/-! ### Reports -/

/--
The report of what has changed from one observation to the next: of each watched file, in any of its
spellings, that is there now and has another time than before, and of no other file.
-/
structure IsReport (earlier now : Observation) (files report : List Path) : Prop where
  ordered : report.Pairwise fun p q => p.le q = true ∧ p.same q = false
  watched : ∀ p ∈ report, p ∈ files
  changes : ∀ f ∈ files, (∃ p ∈ report, p.same f = true) ↔
    ∃ q ∈ files, q.same f = true ∧ (now q).isSome = true ∧ now q ≠ earlier q

/-- Nothing is reported between two observations that are the same. -/
theorem IsReport.eq_nil {now : Observation} {report : List Path}
    (h : IsReport now now files report) : report = [] := by
  refine List.eq_nil_iff_forall_not_mem.mpr fun p hp => ?_
  obtain ⟨q, -, -, -, hmoved⟩ := (h.changes p (h.watched p hp)).mp ⟨p, hp, Path.same_refl p⟩
  exact hmoved rfl

/-- An observation gives all spellings of a watched file the same time. -/
def SeesFiles (files : List Path) (now : Observation) : Prop :=
  ∀ p ∈ files, ∀ q ∈ files, p.same q = true → now p = now q

theorem lastSeen_eq (h : ∀ n, SeesFiles files (observe n)) (hp : p ∈ files) :
    lastSeen observe files k p = observe k p := by
  cases k with
  | zero =>
      obtain ⟨hmem, hsame⟩ := lastSpelling_spec hp
      exact h 0 _ hmem _ hp hsame
  | succ k => rfl

theorem Reached.isReport (h : Reached observe files k w)
    (hsees : ∀ n, SeesFiles files (observe n)) :
    IsReport (observe k) (observe (k + 1)) files (w.changed (observe (k + 1))).1 where
  ordered := h.pairwise_changed _
  watched p hp := ((h.mem_changed_iff _).mp hp).1.mem
  changes f hf := by
    constructor
    · rintro ⟨p, hp, hsame⟩
      obtain ⟨hfirst, hpresent, hmoved⟩ := (h.mem_changed_iff _).mp hp
      rw [lastSeen_eq hsees hfirst.mem] at hmoved
      exact ⟨p, hfirst.mem, hsame, hpresent, hmoved⟩
    · rintro ⟨q, hq, hsame, hpresent, hmoved⟩
      obtain ⟨p, hfirst, hpq⟩ := exists_isFirst hq
      have hnow : observe (k + 1) p = observe (k + 1) q := hsees _ _ hfirst.mem _ hq hpq
      have hseen : lastSeen observe files k p = observe k q :=
        (lastSeen_eq hsees hfirst.mem).trans (hsees k _ hfirst.mem _ hq hpq)
      refine ⟨p, (h.mem_changed_iff _).mpr ⟨hfirst, ?_, ?_⟩, (Path.same_congr hpq f).trans hsame⟩
      · rw [hnow]
        exact hpresent
      · rw [hnow, hseen]
        exact hmoved

/-- A change is lost if it is seen only under a spelling that is not the first. -/
theorem exists_not_isReport (hp : p ∈ files) (hfirst : ¬IsFirst files p) :
    ∃ observe w, Reached observe files 1 w ∧
      ¬IsReport (observe 1) (observe 2) files (w.changed (observe 2)).1 := by
  let observe : Nat → Observation := fun n q => if q = p then some (.clock n) else none
  obtain ⟨w, hw⟩ := exists_reached observe files 1
  refine ⟨observe, w, hw, fun hreport => ?_⟩
  have hthere : (observe 2 p).isSome = true := by simp [observe]
  have hmoved : observe 2 p ≠ observe 1 p := by simp [observe]
  obtain ⟨q, hq, -⟩ := (hreport.changes p hp).mpr ⟨p, hp, Path.same_refl p, hthere, hmoved⟩
  obtain ⟨hq, hpresent, -⟩ := (hw.mem_changed_iff _).mp hq
  have hqp : q = p := by
    by_contra hne
    simp [observe, hne] at hpresent
  exact hfirst (hqp ▸ hq)

/-! ### Main statement -/

/--
A call reports the first spellings of the watched files that are there and whose time is not the one
last seen, in order and each of them once, in whatever order the watcher keeps the files. What was
last seen is what the call before has observed, or, at the first call, what the last spelling of the
file was observed at the start. If the spellings of a file always have the same time, the report is
of exactly the changes from one observation to the next. It is so for all observations if and only
if no file is spelled in two ways.
-/
theorem changed_isReport_iff (files : List Path) :
    (∀ observe k, ∃ w, Reached observe files k w) ∧
    (∀ observe k w, Reached observe files k w →
      ∃ report, report = (w.changed (observe (k + 1))).1 ∧
        (∀ w', Reached observe files k w' → (w'.changed (observe (k + 1))).1 = report) ∧
        report.Pairwise (fun p q => p.le q = true ∧ p.same q = false) ∧
        (∀ p, p ∈ report ↔ IsFirst files p ∧ (observe (k + 1) p).isSome = true ∧
          observe (k + 1) p ≠ lastSeen observe files k p) ∧
        ((∀ n, SeesFiles files (observe n)) →
          IsReport (observe k) (observe (k + 1)) files report)) ∧
    ((∀ observe k w, Reached observe files k w →
        IsReport (observe k) (observe (k + 1)) files (w.changed (observe (k + 1))).1) ↔
      ∀ p ∈ files, ∀ q ∈ files, p.same q = true → p = q) := by
  refine ⟨fun observe k => exists_reached observe files k, ?_, ?_⟩
  · intro observe k w hw
    refine ⟨_, rfl, fun w' hw' => hw'.changed_eq hw _, hw.pairwise_changed _, ?_, hw.isReport⟩
    exact fun p => hw.mem_changed_iff _
  · constructor
    · intro hreports p hp q hq hsame
      have hfirst {f : Path} (hf : f ∈ files) : IsFirst files f := by
        by_contra hnot
        obtain ⟨observe, w, hw, hfails⟩ := exists_not_isReport hf hnot
        exact hfails (hreports observe 1 w hw)
      exact (hfirst hp).eq (hfirst hq) hsame
    · intro honce observe k w hw
      refine hw.isReport fun n p hp q hq hsame => ?_
      rw [honce p hp q hq hsame]

/-- A file that vanishes, comes back with its old time and is then dated back: two reports. -/
theorem changed_isReport_iff_reappearing : ∃ observe : Nat → Observation,
    (∀ n p, observe n p =
      [some (Stamp.clock 5), none, some (.clock 5), some (.clock 3)].getD n none) ∧
    ∀ k w, Reached observe [⟨"/a.py"⟩] k w →
      (⟨"/a.py"⟩ ∈ (w.changed (observe (k + 1))).1 ↔ k = 1 ∨ k = 2) := by
  let observe : Nat → Observation := fun n _ =>
    [some (Stamp.clock 5), none, some (.clock 5), some (.clock 3)].getD n none
  obtain ⟨-, hcalls, -⟩ := changed_isReport_iff [⟨"/a.py"⟩]
  refine ⟨observe, fun _ _ => rfl, fun k w hw => ?_⟩
  obtain ⟨_, rfl, -, -, hmem, -⟩ := hcalls observe k w hw
  have hfirst : IsFirst [⟨"/a.py"⟩] ⟨"/a.py"⟩ := by simp [IsFirst]
  rw [hmem, lastSeen_eq (fun _ _ _ _ _ _ => rfl) hfirst.mem]
  rcases k with _ | _ | _ | k <;> simp [observe, hfirst]

/-- A script that is also spelled as a directory is reported, though it has stayed as it was. -/
theorem changed_of_unchanged : ∃ m : Machine, ∃ files report : List Path,
    files = [⟨"/a.py"⟩, ⟨"/a.py/"⟩] ∧
    report = ((ofFiles m.observation files).changed m.observation).1 ∧ report = [⟨"/a.py"⟩] ∧
    ¬IsReport m.observation m.observation files report := by
  obtain ⟨m, hm⟩ : ∃ m, m = Machine.ofScript (bytesOf "x") fun _ _ => .error .unknown := ⟨_, rfl⟩
  have hscript : m.observation ⟨"/a.py"⟩ = some (.clock 0) :=
    hm ▸ Machine.modified?_ofScript _ _
  have hslash : m.observation ⟨"/a.py/"⟩ = none := hm ▸ Machine.modified?_ofScript_slash _ _
  have hfiles : distinct [] [⟨"/a.py"⟩, ⟨"/a.py/"⟩] = [⟨"/a.py"⟩] := by decide
  have hlast : lastSpelling [⟨"/a.py"⟩, ⟨"/a.py/"⟩] ⟨"/a.py"⟩ = ⟨"/a.py/"⟩ := by decide
  have hreport : ((ofFiles m.observation [⟨"/a.py"⟩, ⟨"/a.py/"⟩]).changed m.observation).1 =
      [⟨"/a.py"⟩] := by
    simp [ofFiles, hfiles, hlast, changed, hasChanged, hscript, hslash, Path.sorted]
  refine ⟨m, _, _, rfl, rfl, hreport, fun h => ?_⟩
  rw [hreport] at h
  exact List.cons_ne_nil _ _ h.eq_nil

end Watcher

end SaveLint
