import Mathlib.Data.List.TakeWhile
import SaveLint.Proofs.Terminal.Listing
import SaveLint.Session

/-!
# Showing updates on the terminal

A call for an update only prints and counts errors; it leaves the machine and the other fields of
the terminal as they are (`Terminal.after`). The one thing that can go wrong is a listing, so the
calls for some updates go through exactly if all of them can be listed, and they stop with the fault
of a position otherwise (`Terminal.callAll_fault`).
-/

namespace SaveLint

/-! ### Updates -/

namespace Update

def isError : Update → Bool
  | published _ _ => false
  | warning _ => false
  | error _ => true

def isPublished : Update → Bool
  | published _ _ => true
  | warning _ => false
  | error _ => false

/-- The diagnostics that are listed for an update. -/
def items : Update → List Diagnostic
  | published _ items => items
  | warning _ => []
  | error _ => []

/-- Whether everything about an update can be listed. -/
def isListable (u : Update) : Bool := u.items.all Diagnostic.isListable

end Update

/-- Different updates are shown by different calls. -/
theorem HostCall.ofUpdate_injective : Function.Injective HostCall.ofUpdate := by
  intro u v h
  cases u <;> cases v <;> cases h <;> rfl

/-- The calls for deliveries are the calls for their updates. -/
theorem Session.calls_eq (ds : List Delivery) :
    calls ds = (ds.map (·.update)).map HostCall.ofUpdate := by
  rw [calls, List.map_map]
  rfl

namespace Terminal

variable (t : Terminal) (m : Machine)

/-! ### What is printed -/

/-- What is printed for an update. -/
def printedUpdate (t : Terminal) : Update → List Printed
  | .published file items => items.map (printedDiagnostic (t.displayPath file.path).text)
  | .warning text => [⟨.err, "warning: " ++ Text.trimmedEnd text ++ "\n"⟩]
  | .error text => [⟨.err, "error: " ++ Text.trimmedEnd text ++ "\n"⟩]

/-- Only the base directory decides what is printed. -/
theorem printedUpdate_congr {t t' : Terminal} (h : t'.baseDirectory = t.baseDirectory) :
    t'.printedUpdate = t.printedUpdate := by
  funext u
  cases u with
  | published file items =>
      show items.map (printedDiagnostic (t'.displayPath file.path).text) = _
      rw [displayPath, h]
      rfl
  | warning text => rfl
  | error text => rfl

/-- Everything is printed in whole lines. -/
theorem exists_line_of_mem_printedUpdate {u : Update} {printed : Printed}
    (h : printed ∈ t.printedUpdate u) : ∃ line, printed.text = line ++ "\n" := by
  cases u with
  | published file items =>
      obtain ⟨d, -, rfl⟩ := List.mem_map.mp h
      exact ⟨_, rfl⟩
  | warning text =>
      rw [List.mem_singleton.mp h]
      exact ⟨_, rfl⟩
  | error text =>
      rw [List.mem_singleton.mp h]
      exact ⟨_, rfl⟩

/-- The terminal after some updates have been shown. -/
def after (us : List Update) : Terminal :=
  { t with
    printed := t.printed ++ us.flatMap t.printedUpdate
    errorsShown := t.errorsShown + us.countP Update.isError }

theorem after_nil : t.after [] = t := by
  simp [after]

theorem after_cons (u : Update) (us : List Update) :
    t.after (u :: us) = (t.after [u]).after us := by
  have hprinted : (t.after [u]).printedUpdate = t.printedUpdate := printedUpdate_congr rfl
  rw [after, after, hprinted]
  simp only [after, List.flatMap_cons, List.flatMap_nil, List.append_nil, List.append_assoc,
    List.countP_cons, List.countP_nil, Terminal.mk.injEq, true_and, and_true]
  omega

/-! ### Calls for updates -/

theorem call_ofUpdate {u : Update} (h : u.isListable = true) :
    t.call m (.ofUpdate u) = ⟨t.after [u], m, none⟩ := by
  cases u with
  | published file items =>
      have hall : items.all Diagnostic.isListable = true := h
      have hlist := t.list_eq (t.displayPath file.path).text items
      rw [List.takeWhile_eq_self_iff.mpr (List.all_eq_true.mp hall), if_pos hall] at hlist
      simp only [HostCall.ofUpdate, call, hlist, after, List.flatMap_cons, List.flatMap_nil,
        List.append_nil]
      rfl
  | warning text => rfl
  | error text => rfl

theorem call_fault {u : Update} (h : u.isListable = false) :
    (t.call m (.ofUpdate u)).fault = some .positionOverflow := by
  cases u with
  | published file items =>
      have hall : ¬ items.all Diagnostic.isListable = true := Bool.eq_false_iff.mp h
      have hlist := t.list_eq (t.displayPath file.path).text items
      rw [if_neg hall] at hlist
      simp only [HostCall.ofUpdate, call, hlist]
  | warning text => cases h
  | error text => cases h

theorem callAll_ofUpdate {us : List Update} (h : ∀ u ∈ us, u.isListable = true) :
    t.callAll m (us.map HostCall.ofUpdate) = ⟨t.after us, m, none⟩ := by
  induction us generalizing t with
  | nil => rw [after_nil]; rfl
  | cons u us ih =>
      rw [after_cons, ← ih _ fun v hv => h v (List.mem_cons_of_mem u hv)]
      simp only [List.map_cons, callAll, t.call_ofUpdate m (h u List.mem_cons_self)]

/-- The calls for some updates go through exactly if all of them can be listed. -/
theorem callAll_fault (us : List Update) :
    (t.callAll m (us.map HostCall.ofUpdate)).fault =
      if us.all Update.isListable then none else some .positionOverflow := by
  induction us generalizing t with
  | nil => rfl
  | cons u us ih =>
      rw [List.all_cons]
      cases h : u.isListable with
      | true =>
          rw [Bool.true_and, ← ih (t.after [u])]
          simp only [List.map_cons, callAll, t.call_ofUpdate m h]
      | false =>
          have hfault := t.call_fault m h
          simp only [List.map_cons, callAll, hfault, Bool.false_and]
          rfl

end Terminal

end SaveLint
