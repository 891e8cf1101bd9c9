import SaveLint.FileIdentity

/-!
# Tables keyed by files

A table holds one value for each file. Two spellings of a path with the same components are one key,
and the spelling that came first stays. `get?` is the view of a table, and `insert` is described by
it (`get?_insert`).
-/

namespace SaveLint

/-- One value for each file, in the order in which the files came. -/
structure FileTable (α : Type) where
  entries : List (FileIdentity × α) := []

namespace FileTable

variable {α : Type}

def empty : FileTable α := ⟨[]⟩

def get? (t : FileTable α) (id : FileIdentity) : Option α :=
  (t.entries.find? (·.1.same id)).map (·.2)

/-- The entries with a new value for a file: in the place of the old one, or else at the end. -/
def insertEntry (id : FileIdentity) (a : α) : List (FileIdentity × α) → List (FileIdentity × α)
  | [] => [(id, a)]
  | (key, b) :: rest =>
    if key.same id then (key, a) :: rest else (key, b) :: insertEntry id a rest

def insert (t : FileTable α) (id : FileIdentity) (a : α) : FileTable α :=
  ⟨insertEntry id a t.entries⟩

def keys (t : FileTable α) : List FileIdentity := t.entries.map (·.1)

theorem get?_empty (id : FileIdentity) : (empty : FileTable α).get? id = none := rfl

theorem get?_insert (t : FileTable α) (id key : FileIdentity) (a : α) :
    (t.insert id a).get? key = if id.same key then some a else t.get? key := by
  obtain ⟨entries⟩ := t
  induction entries with
  | nil => by_cases h : id.same key <;> simp [get?, insert, insertEntry, h]
  | cons e rest ih =>
    obtain ⟨k, b⟩ := e
    simp only [get?, insert, insertEntry] at ih ⊢
    by_cases hk : k.same id
    · by_cases h : id.same key
      · have : k.same key := by
          rw [FileIdentity.same_iff] at *; rw [hk, h]
        simp [hk, h, this]
      · have : ¬ k.same key = true := by
          rw [FileIdentity.same_iff] at *; intro hkk; exact h (hk.symm.trans hkk)
        simp [hk, h, this]
    · by_cases h : k.same key
      · have : ¬ id.same key = true := by
          rw [FileIdentity.same_iff] at *; intro hik; exact hk (h.trans hik.symm)
        simp [hk, h, this]
      · simpa [hk, h] using ih

/-- The keys after an insertion do not depend on the values. -/
theorem keys_insert_congr {β : Type} {t : FileTable α} {u : FileTable β} (h : t.keys = u.keys)
    (id : FileIdentity) (a : α) (b : β) : (t.insert id a).keys = (u.insert id b).keys := by
  obtain ⟨ts⟩ := t
  obtain ⟨us⟩ := u
  simp only [keys, insert] at h ⊢
  induction ts generalizing us with
  | nil =>
    cases us with
    | nil => rfl
    | cons u us => cases h
  | cons t ts ih =>
    cases us with
    | nil => cases h
    | cons u us =>
      rw [List.map_cons, List.map_cons, List.cons.injEq] at h
      simp only [insertEntry, h.1]
      split
      · exact congrArg (u.1 :: ·) h.2
      · exact congrArg (u.1 :: ·) (ih us h.2)

end FileTable

end SaveLint
