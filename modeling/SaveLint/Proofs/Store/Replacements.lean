import Mathlib.Data.List.Forall2
import SaveLint.Proofs.Store.Snapshot
import SaveLint.Report

/-!
# The snapshot after some replacements

A replacement gives a file its diagnostics, whatever it had before. After some replacements a
snapshot has one entry for each file that was replaced, with the diagnostics of its last
replacement, also if these are none. The files with errors come first, and in both groups the paths
go up strictly, so no two entries could change places: the snapshot depends neither on the order in
which the table keeps its entries nor on the history of the store, only on what is current for each
file (`Store.snapshot_of_replacements`).
-/

namespace SaveLint

variable {s s' : Store} {a b : FileIdentity × List Diagnostic}

/-! ### One entry for each file -/

namespace FileTable

variable {α : Type} {t : FileTable α}

/-- The entries for a file are the one that is found, or none. -/
theorem Distinct.filter_same (h : t.Distinct) (id : FileIdentity) :
    t.entries.filter (·.1.same id) = (t.find? id).toList := by
  obtain ⟨entries⟩ := t
  simp only [Distinct, find?] at h ⊢
  induction entries with
  | nil => rfl
  | cons e rest ih =>
      obtain ⟨hhead, htail⟩ := List.pairwise_cons.mp h
      by_cases hid : e.1.same id = true
      · have hrest : rest.filter (·.1.same id) = [] := by
          rw [List.filter_eq_nil_iff]
          intro f hf
          rw [FileIdentity.same_comm, ← FileIdentity.same_congr hid, FileIdentity.same_comm,
            FileIdentity.same_comm, hhead f hf]
          exact Bool.false_ne_true
        simp [hid, hrest]
      · rw [List.filter_cons, if_neg hid, List.find?_cons, Bool.eq_false_iff.mpr hid]
        exact ih htail

end FileTable

namespace Store

/-- The store after some replacements, each with a file and its new diagnostics. -/
def replaceAll (s : Store) (calls : List (FileIdentity × List Diagnostic)) : Store :=
  calls.foldl (fun s call => s.replace call.1 call.2) s

/-- The diagnostics that the last replacement for a file gives it. -/
def lastFor (file : FileIdentity) (calls : List (FileIdentity × List Diagnostic)) :
    Option (List Diagnostic) :=
  ((calls.filter (·.1.same file)).map (·.2)).getLast?

theorem current_replace (s : Store) (id file : FileIdentity) (items : List Diagnostic) :
    (s.replace id items).current file = if id.same file then some items else s.current file :=
  FileTable.get?_insert _ _ _ _

theorem current_congr (s : Store) {file file' : FileIdentity} (h : file.same file' = true) :
    s.current file = s.current file' := by
  have hfind := FileTable.find?_congr s.diagnostics h
  exact congrArg (Option.map Prod.snd) hfind

theorem current_replaceAll (s : Store) (calls : List (FileIdentity × List Diagnostic))
    (file : FileIdentity) :
    (s.replaceAll calls).current file = (lastFor file calls).or (s.current file) := by
  induction calls generalizing s with
  | nil => rfl
  | cons call calls ih =>
      have hrest : (s.replaceAll (call :: calls)).current file =
          (lastFor file calls).or ((s.replace call.1 call.2).current file) := ih _
      rw [hrest, current_replace]
      by_cases h : call.1.same file = true
      · rw [if_pos h, lastFor, lastFor, List.filter_cons, if_pos h, List.map_cons,
          List.getLast?_cons, Option.or_some, Option.some_or]
      · rw [if_neg h, lastFor, lastFor, List.filter_cons, if_neg h]

theorem distinct_replaceAll (h : s.diagnostics.Distinct)
    (calls : List (FileIdentity × List Diagnostic)) :
    (s.replaceAll calls).diagnostics.Distinct := by
  induction calls generalizing s with
  | nil => exact h
  | cons call calls ih => exact ih (h.insert _ _)

/-- A snapshot has one entry for a file with diagnostics, and none for another one. -/
theorem filter_files (h : s.diagnostics.Distinct) (file : FileIdentity) :
    (s.snapshot.files.filter (·.1.same file)).map (·.2) = (s.current file).toList := by
  have hperm := s.perm_files.filter (·.1.same file)
  rw [h.filter_same] at hperm
  have hcurrent : s.current file = (s.diagnostics.find? file).map (·.2) := rfl
  cases hfind : s.diagnostics.find? file with
  | none =>
      rw [hfind] at hperm hcurrent
      rw [hperm.eq_nil, hcurrent]
      rfl
  | some e =>
      rw [hfind] at hperm hcurrent
      rw [hperm.eq_singleton, hcurrent]
      rfl

end Store

/-! ### The order of the files -/

/-- A list in which what has a property stands before what has not is made of two groups. -/
theorem exists_groups_of_pairwise {α : Type} {p : α → Bool} {xs : List α}
    (h : xs.Pairwise fun x y => p y = true → p x = true) :
    ∃ front back, xs = front ++ back ∧ (∀ x ∈ front, p x = true) ∧ ∀ x ∈ back, p x = false := by
  induction xs with
  | nil => exact ⟨[], [], rfl, by simp, by simp⟩
  | cons x xs ih =>
      obtain ⟨hhead, htail⟩ := List.pairwise_cons.mp h
      by_cases hx : p x = true
      · obtain ⟨front, back, rfl, hfront, hback⟩ := ih htail
        exact ⟨x :: front, back, rfl, List.forall_mem_cons.mpr ⟨hx, hfront⟩, hback⟩
      · refine ⟨[], x :: xs, rfl, by simp, List.forall_mem_cons.mpr ⟨by simpa using hx, ?_⟩⟩
        intro y hy
        exact Bool.eq_false_iff.mpr fun hpy => hx (hhead y hy hpy)

theorem Path.compare_eq_lt {p q : Path} (h : p.le q = true) (hne : p.same q = false) :
    p.compare q = .lt := by
  rcases Ordering.isLE_iff_eq_lt_or_eq_eq.mp h with hlt | heq
  · exact hlt
  · rw [Path.compare_eq] at heq
    rw [Path.same_iff.mpr (Std.LawfulEqCmp.eq_of_compare heq)] at hne
    cases hne

namespace Snapshot

theorem hasErrors_of_comesFirst (h : comesFirst a b = true) (hb : hasErrors b.2 = true) :
    hasErrors a.2 = true := by
  rcases comesFirst_iff.mp h with ⟨ha, -⟩ | ⟨hab, -⟩
  · exact ha
  · exact hab.trans hb

/-- Inside a group only the paths decide. -/
theorem compare_eq_lt (hgroup : hasErrors a.2 = hasErrors b.2)
    (h : comesFirst a b = true ∧ a.1.same b.1 = false) : a.1.path.compare b.1.path = .lt := by
  rcases comesFirst_iff.mp h.1 with ⟨ha, hb⟩ | ⟨-, hle⟩
  · rw [ha, hb] at hgroup
    cases hgroup
  · exact Path.compare_eq_lt hle h.2

end Snapshot

namespace Store

/-- A snapshot has no two entries for one file, and of two entries the first one comes first. -/
theorem pairwise_files_strict (h : s.diagnostics.Distinct) :
    s.snapshot.files.Pairwise fun a b =>
      Snapshot.comesFirst a b = true ∧ a.1.same b.1 = false := by
  refine List.pairwise_and_iff.mpr ⟨s.pairwise_files, ?_⟩
  refine (s.perm_files.pairwise_iff ?_).mpr h
  intro a b hab
  rw [FileIdentity.same_comm]
  exact hab

/-- The files with errors are at the front, and both groups are strictly sorted by their paths. -/
theorem exists_groups (h : s.diagnostics.Distinct) : ∃ withErrors without,
    s.snapshot.files = withErrors ++ without ∧
      (∀ e ∈ withErrors, Snapshot.hasErrors e.2 = true) ∧
      (∀ e ∈ without, Snapshot.hasErrors e.2 = false) ∧
      (withErrors.Pairwise fun a b => a.1.path.compare b.1.path = .lt) ∧
      without.Pairwise fun a b => a.1.path.compare b.1.path = .lt := by
  have hstrict := pairwise_files_strict h
  obtain ⟨withErrors, without, heq, hwith, hwithout⟩ := exists_groups_of_pairwise
    (p := fun e : FileIdentity × List Diagnostic => Snapshot.hasErrors e.2)
    (s.pairwise_files.imp Snapshot.hasErrors_of_comesFirst)
  rw [heq] at hstrict
  obtain ⟨hfirst, hsecond, -⟩ := List.pairwise_append.mp hstrict
  refine ⟨withErrors, without, heq, hwith, hwithout, ?_, ?_⟩
  · refine hfirst.imp_of_mem fun ha hb hab => Snapshot.compare_eq_lt ?_ hab
    rw [hwith _ ha, hwith _ hb]
  · refine hsecond.imp_of_mem fun ha hb hab => Snapshot.compare_eq_lt ?_ hab
    rw [hwithout _ ha, hwithout _ hb]

end Store

/-! ### Snapshots of the same diagnostics -/

/-- An entry without the spelling of its file. -/
def unspelled (e : FileIdentity × List Diagnostic) : List Component × List Diagnostic :=
  (e.1.path.components, e.2)

theorem unspelled_eq_iff : unspelled a = unspelled b ↔ a.1.same b.1 = true ∧ a.2 = b.2 := by
  rw [unspelled, unspelled, Prod.mk.injEq, FileIdentity.same_iff]

/-- The order of display does not depend on the spelling. -/
theorem Snapshot.comesFirst_congr {a' b' : FileIdentity × List Diagnostic}
    (ha : unspelled a = unspelled a') (hb : unspelled b = unspelled b')
    (h : comesFirst a b = true) : comesFirst a' b' = true := by
  obtain ⟨haPath, haItems⟩ := Prod.mk.inj ha
  obtain ⟨hbPath, hbItems⟩ := Prod.mk.inj hb
  rw [comesFirst_iff, Path.le, Path.compare_eq] at h ⊢
  rwa [← haPath, ← haItems, ← hbPath, ← hbItems]

namespace Store

theorem unspelled_mem_iff (h : s.diagnostics.Distinct) (e : FileIdentity × List Diagnostic) :
    unspelled e ∈ s.diagnostics.entries.map unspelled ↔ s.current e.1 = some e.2 := by
  have hcurrent : s.current e.1 = (s.diagnostics.find? e.1).map (·.2) := rfl
  rw [hcurrent, Option.map_eq_some_iff, List.mem_map]
  constructor
  · rintro ⟨f, hf, heq⟩
    obtain ⟨hsame, hitems⟩ := unspelled_eq_iff.mp heq
    refine ⟨f, ?_, hitems⟩
    rw [← FileTable.find?_congr _ hsame]
    exact h.mem_iff.mp hf
  · rintro ⟨f, hf, hitems⟩
    have hsame := List.find?_some hf
    exact ⟨f, List.mem_of_find?_eq_some hf, unspelled_eq_iff.mpr ⟨hsame, hitems⟩⟩

theorem nodup_unspelled (h : s.diagnostics.Distinct) :
    (s.diagnostics.entries.map unspelled).Nodup := by
  refine List.pairwise_map.mpr (h.imp ?_)
  intro a b hab heq
  rw [(unspelled_eq_iff.mp heq).1] at hab
  cases hab

/-- Stores with the same diagnostics for every file have the same entries, up to the spelling. -/
theorem perm_unspelled (h : s.diagnostics.Distinct) (h' : s'.diagnostics.Distinct)
    (hcurrent : ∀ file, s.current file = s'.current file) :
    (s.diagnostics.entries.map unspelled).Perm (s'.diagnostics.entries.map unspelled) := by
  rw [List.perm_ext_iff_of_nodup (nodup_unspelled h) (nodup_unspelled h')]
  intro x
  -- Every pair is the form of an entry only if there is one, so both directions start from it.
  constructor
  · intro hx
    obtain ⟨e, -, rfl⟩ := List.mem_map.mp hx
    rwa [unspelled_mem_iff h', ← hcurrent, ← unspelled_mem_iff h]
  · intro hx
    obtain ⟨e, -, rfl⟩ := List.mem_map.mp hx
    rwa [unspelled_mem_iff h, hcurrent, ← unspelled_mem_iff h']

/-- Snapshots of the same diagnostics are the same, entry by entry. -/
theorem forall₂_files (h : s.diagnostics.Distinct) (h' : s'.diagnostics.Distinct)
    (hcurrent : ∀ file, s.current file = s'.current file) :
    List.Forall₂ (fun a b => a.1.same b.1 = true ∧ a.2 = b.2) s.snapshot.files
      s'.snapshot.files := by
  have hperm : (s.snapshot.files.map unspelled).Perm (s'.snapshot.files.map unspelled) :=
    ((s.perm_files.map _).trans (perm_unspelled h h' hcurrent)).trans (s'.perm_files.map _).symm
  have hsorted : ∀ u : Store, (u.snapshot.files.map unspelled).Pairwise fun x y =>
      ∃ a b, unspelled a = x ∧ unspelled b = y ∧ Snapshot.comesFirst a b = true := fun u =>
    List.pairwise_map.mpr (u.pairwise_files.imp fun hab => ⟨_, _, rfl, rfl, hab⟩)
  have heq : s.snapshot.files.map unspelled = s'.snapshot.files.map unspelled := by
    refine List.Perm.eq_of_pairwise ?_ (hsorted s) (hsorted s') hperm
    rintro x y hx hy ⟨a, b, rfl, rfl, hab⟩ ⟨b', a', hb, ha, hba⟩
    have hsame := Snapshot.same_of_comesFirst hab (Snapshot.comesFirst_congr hb ha hba)
    have hitems := (s.perm_files.map unspelled).mem_iff.mp hx
    have hitems' := (s.perm_files.map unspelled).mem_iff.mp (hperm.mem_iff.mpr hy)
    rw [unspelled_mem_iff h] at hitems hitems'
    rw [current_congr s hsame, hitems'] at hitems
    exact unspelled_eq_iff.mpr ⟨hsame, (Option.some.inj hitems).symm⟩
  rw [← List.forall₂_eq_eq_eq, List.forall₂_map_left_iff, List.forall₂_map_right_iff] at heq
  exact heq.imp fun _ _ => unspelled_eq_iff.mp

/-- A sorting of the entries is the snapshot, whatever order they are taken in. -/
theorem mergeSort_eq_files (h : s.diagnostics.Distinct)
    {order : List (FileIdentity × List Diagnostic)} (horder : order.Perm s.diagnostics.entries) :
    order.mergeSort Snapshot.comesFirst = s.snapshot.files := by
  have heq : (⟨⟨order⟩, {}⟩ : Store).snapshot = s.snapshot :=
    (snapshot_eq_of_perm h horder.symm).symm
  exact congrArg Snapshot.files heq

end Store

/-! ### Numbers of diagnostics -/

theorem Severity.countP_add (ds : List Diagnostic) :
    ds.countP (·.severity == .error) + ds.countP (·.severity == .warning) +
      ds.countP (·.severity == .information) = ds.length := by
  induction ds with
  | nil => rfl
  | cons d ds ih =>
      have hone : (if (d.severity == .error) = true then 1 else 0) +
          (if (d.severity == .warning) = true then 1 else 0) +
          (if (d.severity == .information) = true then 1 else 0) = 1 := by
        cases d.severity <;> rfl
      rw [List.countP_cons, List.countP_cons, List.countP_cons, List.length_cons, ← ih]
      omega

theorem Snapshot.total_eq (s : Snapshot) : s.total = s.diagnostics.length := by
  obtain ⟨files⟩ := s
  induction files with
  | nil => rfl
  | cons file files ih =>
      rw [diagnostics, List.flatMap_cons, List.length_append]
      exact congrArg (file.2.length + ·) ih

/-! ### Main statement -/

namespace Store

/--
After any replacements, the snapshot has for each file that was replaced one entry, with the
diagnostics of its last replacement, and no entry for another file. The files with an error come
first, and in both groups the paths go up strictly. The diagnostics of the three severities are all
of them. Sorting the entries gives the same list in whatever order they are taken, and other
replacements that leave the same diagnostics for every file give the same entries.
-/
theorem snapshot_of_replacements (calls : List (FileIdentity × List Diagnostic)) :
    let s := replaceAll empty calls
    (∀ file, (s.snapshot.files.filter (·.1.same file)).map (·.2) = (lastFor file calls).toList) ∧
    (∃ withErrors without, s.snapshot.files = withErrors ++ without ∧
      (∀ e ∈ withErrors, ∃ d ∈ e.2, d.severity = .error) ∧
      (∀ e ∈ without, ∀ d ∈ e.2, d.severity ≠ .error) ∧
      (withErrors.Pairwise fun a b => a.1.path.compare b.1.path = .lt) ∧
      without.Pairwise fun a b => a.1.path.compare b.1.path = .lt) ∧
    s.snapshot.count .error + s.snapshot.count .warning + s.snapshot.count .information =
      s.snapshot.total ∧
    s.snapshot.total = s.snapshot.diagnostics.length ∧
    (∀ order : List (FileIdentity × List Diagnostic), order.Perm s.diagnostics.entries →
      order.mergeSort Snapshot.comesFirst = s.snapshot.files) ∧
    ∀ others, (∀ file, (replaceAll empty others).current file = s.current file) →
      List.Forall₂ (fun a b => a.1.same b.1 = true ∧ a.2 = b.2)
        (replaceAll empty others).snapshot.files s.snapshot.files := by
  intro s
  have hdistinct : ∀ calls, (replaceAll empty calls).diagnostics.Distinct :=
    distinct_replaceAll List.Pairwise.nil
  refine ⟨?_, ?_, ?_, Snapshot.total_eq _, fun order => mergeSort_eq_files (hdistinct calls),
    fun others => forall₂_files (hdistinct others) (hdistinct calls)⟩
  · intro file
    have hcurrent : s.current file = lastFor file calls :=
      (current_replaceAll empty calls file).trans Option.or_none
    rw [filter_files (hdistinct calls), hcurrent]
  · obtain ⟨withErrors, without, heq, hwith, hwithout, hsorted⟩ := exists_groups (hdistinct calls)
    refine ⟨withErrors, without, heq, ?_, ?_, hsorted⟩
    · intro e he
      simpa [Snapshot.hasErrors] using hwith e he
    · intro e he
      simpa [Snapshot.hasErrors] using hwithout e he
  · rw [Snapshot.total_eq]
    exact Severity.countP_add _

/-- A file that is replaced twice and, elsewhere, once under another spelling of its path. -/
theorem snapshot_of_replacements_respelled :
    List.Forall₂ (fun a b => a.1.same b.1 = true ∧ a.2 = b.2)
      (replaceAll empty [(⟨⟨"//a.py/"⟩, by decide⟩, [])]).snapshot.files
      (replaceAll empty [(⟨⟨"/a.py"⟩, by decide⟩, Report.diagnostics "pylint" ":1:0: E0001: no"),
        (⟨⟨"/a.py"⟩, by decide⟩, [])]).snapshot.files := by
  obtain ⟨-, -, -, -, -, hsame⟩ := snapshot_of_replacements
    [(⟨⟨"/a.py"⟩, by decide⟩, Report.diagnostics "pylint" ":1:0: E0001: no"),
      (⟨⟨"/a.py"⟩, by decide⟩, [])]
  apply hsame
  intro file
  have hspelling : (⟨⟨"//a.py/"⟩, by decide⟩ : FileIdentity).same file =
      (⟨⟨"/a.py"⟩, by decide⟩ : FileIdentity).same file :=
    FileIdentity.same_congr (by decide) file
  rw [current_replaceAll, current_replaceAll, lastFor, lastFor]
  simp only [List.filter_cons, hspelling]
  split <;> rfl

end Store

end SaveLint
