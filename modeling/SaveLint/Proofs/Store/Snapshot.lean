import SaveLint.Proofs.Path.Order
import SaveLint.Store

/-!
# Tables and snapshots

A table is determined, up to the order of its entries, by its entry for every file
(`FileTable.perm_of_find?`). An entry has the spelling that came first for its file and the value
that came last (`FileTable.find?_insert`), and no two entries are for the same file
(`FileTable.Distinct`).

A snapshot is sorted by an order in which different files always have different places, so it does
not depend on the order of the entries (`Store.snapshot_eq_of_perm`).
-/

namespace SaveLint

namespace FileTable

variable {α : Type} {t u : FileTable α}

/-! ### Entries -/

/-- The entry for a file, with the spelling that the table has for it. -/
def find? (t : FileTable α) (id : FileIdentity) : Option (FileIdentity × α) :=
  t.entries.find? (·.1.same id)

theorem find?_congr (t : FileTable α) {a b : FileIdentity} (h : a.same b = true) :
    t.find? a = t.find? b := by
  have hcongr : (fun e : FileIdentity × α => e.1.same a) = fun e => e.1.same b := by
    funext e
    rw [FileIdentity.same_comm e.1, FileIdentity.same_comm e.1, FileIdentity.same_congr h]
  rw [find?, find?, hcongr]

theorem find?_insert_self (t : FileTable α) (id : FileIdentity) (a : α) :
    (t.insert id a).find? id = some (((t.find? id).map (·.1)).getD id, a) := by
  obtain ⟨entries⟩ := t
  simp only [find?, insert]
  induction entries with
  | nil => simp [insertEntry]
  | cons e rest ih =>
      by_cases h : e.1.same id = true
      · simp [insertEntry, h]
      · simp [insertEntry, h, ih]

theorem find?_insert_of_not_same (t : FileTable α) {id key : FileIdentity}
    (h : id.same key = false) (a : α) : (t.insert id a).find? key = t.find? key := by
  obtain ⟨entries⟩ := t
  simp only [find?, insert]
  induction entries with
  | nil => simp [insertEntry, h]
  | cons e rest ih =>
      by_cases hid : e.1.same id = true
      · -- The entry keeps its place and its spelling, which is not the key's.
        have hkey : e.1.same key = false := by rw [FileIdentity.same_congr hid, h]
        simp [insertEntry, hid, hkey]
      · by_cases hkey : e.1.same key = true
        · simp [insertEntry, hid, hkey]
        · simp [insertEntry, hid, hkey, ih]

/-- An insertion keeps the spelling that came first. -/
theorem find?_insert (t : FileTable α) (id key : FileIdentity) (a : α) :
    (t.insert id a).find? key =
      if id.same key then some (((t.find? key).map (·.1)).getD id, a) else t.find? key := by
  split
  · rename_i h
    rw [← find?_congr _ h, ← find?_congr t h, find?_insert_self]
  · rename_i h
    exact find?_insert_of_not_same t (Bool.eq_false_iff.mpr h) a

/-! ### One entry for each file -/

/-- No two entries are for the same file. -/
def Distinct (t : FileTable α) : Prop :=
  t.entries.Pairwise fun a b => a.1.same b.1 = false

theorem mem_insertEntry {id : FileIdentity} {a : α} {e : FileIdentity × α}
    {entries : List (FileIdentity × α)} (h : e ∈ insertEntry id a entries) :
    e.1 = id ∨ ∃ b, (e.1, b) ∈ entries := by
  induction entries with
  | nil =>
      left
      rw [List.mem_singleton.mp h]
  | cons f rest ih =>
      rw [insertEntry] at h
      split at h
      · rcases List.mem_cons.mp h with rfl | hmem
        · exact Or.inr ⟨f.2, List.mem_cons_self⟩
        · exact Or.inr ⟨e.2, List.mem_cons_of_mem f hmem⟩
      · rcases List.mem_cons.mp h with rfl | hmem
        · exact Or.inr ⟨_, List.mem_cons_self⟩
        · exact (ih hmem).imp_right (Exists.imp fun _ => List.mem_cons_of_mem f)

theorem Distinct.insert (h : t.Distinct) (id : FileIdentity) (a : α) :
    (t.insert id a).Distinct := by
  obtain ⟨entries⟩ := t
  simp only [Distinct, FileTable.insert] at h ⊢
  induction entries with
  | nil => exact List.pairwise_singleton _ _
  | cons e rest ih =>
      obtain ⟨hhead, htail⟩ := List.pairwise_cons.mp h
      rw [insertEntry]
      split
      · exact List.pairwise_cons.mpr ⟨hhead, htail⟩
      · rename_i hid
        refine List.pairwise_cons.mpr ⟨?_, ih htail⟩
        intro f hf
        rcases mem_insertEntry hf with hf | ⟨b, hf⟩
        · rw [hf]
          exact Bool.eq_false_iff.mpr hid
        · exact hhead (f.1, b) hf

/-- A file that the table does not have comes last. -/
theorem insertEntry_of_not_same {id : FileIdentity} {entries : List (FileIdentity × α)}
    (h : ∀ e ∈ entries, e.1.same id = false) (a : α) :
    insertEntry id a entries = entries ++ [(id, a)] := by
  induction entries with
  | nil => rfl
  | cons e rest ih =>
      have hhead : e.1.same id = false := h e List.mem_cons_self
      rw [insertEntry, if_neg (Bool.eq_false_iff.mp hhead),
        ih fun f hf => h f (List.mem_cons_of_mem e hf)]
      rfl

theorem Distinct.mem_iff (h : t.Distinct) {e : FileIdentity × α} :
    e ∈ t.entries ↔ t.find? e.1 = some e := by
  constructor
  · intro hmem
    obtain ⟨entries⟩ := t
    simp only [Distinct, find?] at h hmem ⊢
    induction entries with
    | nil => cases hmem
    | cons f rest ih =>
        obtain ⟨hhead, htail⟩ := List.pairwise_cons.mp h
        rcases List.mem_cons.mp hmem with rfl | hmem
        · simp
        · simp only [List.find?_cons, hhead e hmem]
          exact ih htail hmem
  · exact List.mem_of_find?_eq_some

theorem Distinct.nodup (h : t.Distinct) : t.entries.Nodup := by
  refine List.Pairwise.imp ?_ h
  rintro a b hab rfl
  rw [FileIdentity.same_refl] at hab
  cases hab

/-- Tables with the same entry for every file have the same entries. -/
theorem perm_of_find? (ht : t.Distinct) (hu : u.Distinct)
    (h : ∀ id, t.find? id = u.find? id) : t.entries.Perm u.entries := by
  rw [List.perm_ext_iff_of_nodup ht.nodup hu.nodup]
  intro e
  rw [ht.mem_iff, hu.mem_iff, h]

end FileTable

/-! ### The order of display -/

namespace Snapshot

variable {a b : FileIdentity × List Diagnostic}

theorem comesFirst_iff : comesFirst a b = true ↔
    (hasErrors a.2 = true ∧ hasErrors b.2 = false) ∨
    (hasErrors a.2 = hasErrors b.2 ∧ a.1.path.le b.1.path = true) := by
  unfold comesFirst
  cases hasErrors a.2 <;> cases hasErrors b.2 <;> simp

theorem comesFirst_trans (a b d : FileIdentity × List Diagnostic) (h : comesFirst a b = true)
    (h' : comesFirst b d = true) : comesFirst a d = true := by
  rw [comesFirst_iff] at h h' ⊢
  rcases h with ⟨ha, hb⟩ | ⟨hab, hle⟩
  · rcases h' with ⟨hb', -⟩ | ⟨hbd, -⟩
    · rw [hb] at hb'
      cases hb'
    · exact Or.inl ⟨ha, hbd.symm.trans hb⟩
  · rcases h' with ⟨hb, hd⟩ | ⟨hbd, hle'⟩
    · exact Or.inl ⟨hab.trans hb, hd⟩
    · exact Or.inr ⟨hab.trans hbd, Path.le_trans hle hle'⟩

theorem comesFirst_total (a b : FileIdentity × List Diagnostic) :
    (comesFirst a b || comesFirst b a) = true := by
  have hpath := Path.le_total a.1.path b.1.path
  rw [Bool.or_eq_true, comesFirst_iff, comesFirst_iff]
  cases hasErrors a.2 <;> cases hasErrors b.2 <;> simp [hpath]

/-- Two entries that come before each other are for the same file. -/
theorem same_of_comesFirst (h : comesFirst a b = true) (h' : comesFirst b a = true) :
    a.1.same b.1 = true := by
  rw [comesFirst_iff] at h h'
  rcases h with ⟨ha, hb⟩ | ⟨hab, hle⟩
  · rw [ha, hb] at h'
    simp at h'
  · rcases h' with ⟨hb, ha⟩ | ⟨-, hle'⟩
    · rw [ha, hb] at hab
      cases hab
    · exact Path.le_antisymm hle hle'

end Snapshot

namespace Store

variable {s s' : Store}

theorem pairwise_files (s : Store) :
    s.snapshot.files.Pairwise fun a b => Snapshot.comesFirst a b = true :=
  List.pairwise_mergeSort Snapshot.comesFirst_trans Snapshot.comesFirst_total _

theorem perm_files (s : Store) : s.snapshot.files.Perm s.diagnostics.entries :=
  List.mergeSort_perm _ _

/-- The diagnostics that a store holds, for all its files together. -/
def held (s : Store) : List Diagnostic := s.diagnostics.entries.flatMap (·.2)

theorem perm_diagnostics (s : Store) : s.snapshot.diagnostics.Perm s.held :=
  s.perm_files.flatMap_right _

/-- How many diagnostics of a severity a store holds. -/
def countHeld (s : Store) (severity : Severity) : Nat := s.held.countP (·.severity == severity)

/-- A snapshot counts all diagnostics of the store. -/
theorem count_snapshot (s : Store) (severity : Severity) :
    s.snapshot.count severity = s.countHeld severity :=
  s.perm_diagnostics.countP_eq _

/-- The status of a snapshot tells the numbers of errors and warnings in the store. -/
theorem status_snapshot (s : Store) : s.snapshot.status =
    "E:" ++ toString (s.countHeld .error) ++ " W:" ++ toString (s.countHeld .warning) := by
  rw [← count_snapshot, ← count_snapshot]
  rfl

/-- A snapshot does not depend on the order of the entries. -/
theorem snapshot_eq_of_perm (h : s.diagnostics.Distinct)
    (hperm : s.diagnostics.entries.Perm s'.diagnostics.entries) : s.snapshot = s'.snapshot := by
  have hsorted := s.perm_files.trans (hperm.trans s'.perm_files.symm)
  refine congrArg Snapshot.mk
    (List.Perm.eq_of_pairwise ?_ s.pairwise_files s'.pairwise_files hsorted)
  -- Both entries are entries of one table, and for the same file it has only one.
  intro a b ha hb hab hba
  have ha' : a ∈ s.diagnostics.entries := List.mem_mergeSort.mp ha
  have hb' : b ∈ s.diagnostics.entries := hperm.mem_iff.mpr (List.mem_mergeSort.mp hb)
  rw [h.mem_iff] at ha' hb'
  rw [FileTable.find?_congr _ (Snapshot.same_of_comesFirst hab hba), hb'] at ha'
  exact (Option.some.inj ha').symm

end Store

end SaveLint
