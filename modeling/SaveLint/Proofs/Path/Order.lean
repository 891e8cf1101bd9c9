import SaveLint.FileIdentity

/-!
# The order of paths

Paths are compared by their components, and components by their kind and then by their name, so both
orders are lexicographic. The order of paths is total, and two paths that are below each other are
the same path: they have the same components, if not the same spelling.
-/

namespace SaveLint

open Std

namespace Component

theorem compare_eq :
    Component.compare = compareLex (compareOn rank) (compareOn fun c => c.name?.getD "") := by
  funext a b
  cases a <;> cases b <;>
    simp [Component.compare, compareLex, compareOn, rank, name?, Nat.compare_eq_ite_lt]

instance : TransCmp Component.compare := by
  rw [compare_eq]
  infer_instance

instance : LawfulEqCmp Component.compare where
  eq_of_compare {a b} h := by
    cases a <;> cases b <;> simp_all [Component.compare, rank]

end Component

namespace Path

theorem compareComponents_eq (as bs : List Component) :
    compareComponents as bs = List.compareLex Component.compare as bs := by
  induction as generalizing bs with
  | nil => cases bs <;> rfl
  | cons a as ih =>
      cases bs with
      | nil => rfl
      | cons b bs =>
          rw [compareComponents, List.compareLex_cons_cons, ih]

theorem compare_eq (p q : Path) :
    p.compare q = List.compareLex Component.compare p.components q.components :=
  compareComponents_eq _ _

@[simp] theorem same_refl (p : Path) : p.same p = true := same_iff.mpr rfl

theorem same_comm (p q : Path) : p.same q = q.same p := by
  rw [Bool.eq_iff_iff, same_iff, same_iff]
  exact eq_comm

/-- Two spellings of one path are the same as the same paths. -/
theorem same_congr {p q : Path} (h : p.same q = true) (r : Path) : p.same r = q.same r := by
  rw [Bool.eq_iff_iff, same_iff, same_iff, same_iff.mp h]

theorem le_trans {p q r : Path} (h : p.le q = true) (h' : q.le r = true) : p.le r = true := by
  rw [le, compare_eq] at h h' ⊢
  exact TransCmp.isLE_trans h h'

theorem le_total (p q : Path) : p.le q = true ∨ q.le p = true := by
  have hswap : List.compareLex Component.compare q.components p.components =
      (List.compareLex Component.compare p.components q.components).swap := OrientedCmp.eq_swap
  rw [le, le, compare_eq, compare_eq, hswap]
  cases List.compareLex Component.compare p.components q.components <;> simp

theorem le_antisymm {p q : Path} (h : p.le q = true) (h' : q.le p = true) : p.same q = true := by
  rw [le, compare_eq] at h h'
  exact same_iff.mpr (LawfulEqCmp.eq_of_compare (OrientedCmp.isLE_antisymm h h'))

theorem perm_sorted (ps : List Path) : (sorted ps).Perm ps := List.mergeSort_perm ps le

theorem pairwise_sorted (ps : List Path) : (sorted ps).Pairwise fun p q => p.le q = true := by
  refine @List.pairwise_mergeSort Path le (fun _ _ _ => le_trans) ?_ ps
  intro p q
  rw [Bool.or_eq_true]
  exact le_total p q

end Path

/-! ### Files -/

namespace FileIdentity

@[simp] theorem same_refl (a : FileIdentity) : a.same a = true := Path.same_refl a.path

theorem same_comm (a b : FileIdentity) : a.same b = b.same a := Path.same_comm a.path b.path

/-- Two spellings of one file are the same as the same files. -/
theorem same_congr {a b : FileIdentity} (h : a.same b = true) (d : FileIdentity) :
    a.same d = b.same d :=
  Path.same_congr h d.path

/-- If the files of some values are all different, different places have different files. -/
theorem same_eq_false_of_pairwise {α : Type} {file : α → FileIdentity} {xs : List α}
    (h : (xs.map file).Pairwise fun a b => a.same b = false) {i j : Nat} {x y : α}
    (hi : xs[i]? = some x) (hj : xs[j]? = some y) (hne : i ≠ j) :
    (file x).same (file y) = false := by
  obtain ⟨hilt, rfl⟩ := List.getElem?_eq_some_iff.mp hi
  obtain ⟨hjlt, rfl⟩ := List.getElem?_eq_some_iff.mp hj
  rw [List.pairwise_map, List.pairwise_iff_getElem] at h
  rcases Nat.lt_or_gt_of_ne hne with hlt | hgt
  · exact h i j hilt hjlt hlt
  · rw [same_comm]
    exact h j i hjlt hilt hgt

end FileIdentity

end SaveLint
