import SaveLint.Commands.Basic
import SaveLint.Number.Numeral
import SaveLint.Proofs.Store.Snapshot
import SaveLint.Proofs.Terminal.Calls

/-!
# Status lines

The status of a snapshot is printed on the standard output, and so are the lines of a listing. The
two cannot be mixed up: a line of a listing has a bracket in it and a status has none
(`Printed.not_isStatus_of_mem_printedUpdate`). So it makes sense to speak of the last status line
that was printed (`Terminal.LastStatus`).
-/

namespace SaveLint

/-- A printed line that has the form of a status. -/
def Printed.IsStatus (p : Printed) : Prop :=
  ∃ errors warnings : Nat, p = ⟨.out, s!"E:{errors} W:{warnings}\n"⟩

/-- The status of the snapshot of a store, as a line. -/
def Store.statusLine (s : Store) : Printed := ⟨.out, s.snapshot.status ++ "\n"⟩

/-- The status line tells the numbers of errors and warnings in the store. -/
theorem Store.statusLine_eq (s : Store) : s.statusLine =
    ⟨.out, "E:" ++ toString (s.countHeld .error) ++ " W:" ++ toString (s.countHeld .warning) ++
      "\n"⟩ := by
  rw [statusLine, status_snapshot]

theorem Store.isStatus_statusLine (s : Store) : s.statusLine.IsStatus :=
  ⟨_, _, s.statusLine_eq⟩

/-- The status that is printed is that of the store. -/
theorem Workplace.printed_printStatus (w : Workplace) :
    w.printStatus.terminal.printed = w.terminal.printed ++ [w.session.linter.store.statusLine] :=
  rfl

namespace Printed

theorem not_isStatus_of_err (text : String) : ¬ IsStatus ⟨.err, text⟩ := by
  rintro ⟨_, _, h⟩
  cases h

theorem bracket_not_mem_toDigits (n : Nat) : '[' ∉ Nat.toDigits 10 n := by
  intro h
  have hdigit := Number.isAsciiDigit_of_mem_toDigits h
  revert hdigit
  decide

theorem not_isStatus_of_bracket {p : Printed} (h : '[' ∈ p.text.toList) : ¬ p.IsStatus := by
  rintro ⟨errors, warnings, rfl⟩
  simp [toString, bracket_not_mem_toDigits] at h

theorem not_isStatus_of_mem_printedUpdate {t : Terminal} {u : Update} {p : Printed}
    (h : p ∈ t.printedUpdate u) : ¬ p.IsStatus := by
  cases u with
  | published file items =>
      obtain ⟨d, -, rfl⟩ := List.mem_map.mp h
      apply not_isStatus_of_bracket
      simp [Terminal.printedDiagnostic, Diagnostic.listing, toString]
  | warning text =>
      rw [List.mem_singleton.mp h]
      exact not_isStatus_of_err _
  | error text =>
      rw [List.mem_singleton.mp h]
      exact not_isStatus_of_err _

end Printed

/-- The last status line that was printed is the given one. -/
def Terminal.LastStatus (t : Terminal) (line : Printed) : Prop :=
  line.IsStatus ∧ ∃ before more, t.printed = before ++ line :: more ∧ ∀ p ∈ more, ¬ p.IsStatus

namespace Terminal

variable {t t' : Terminal} {line : Printed} {more : List Printed}

/-- Other lines leave the last status line as it is. -/
theorem LastStatus.append (h : t.LastStatus line) (hprinted : t'.printed = t.printed ++ more)
    (hmore : ∀ p ∈ more, ¬ p.IsStatus) : t'.LastStatus line := by
  obtain ⟨hline, before, others, hsplit, hothers⟩ := h
  refine ⟨hline, before, others ++ more, ?_, ?_⟩
  · rw [hprinted, hsplit, List.append_assoc, List.cons_append]
  · intro p hp
    rcases List.mem_append.mp hp with hp | hp
    · exact hothers p hp
    · exact hmore p hp

theorem lastStatus_concat {before : List Printed} (hline : line.IsStatus)
    (hprinted : t.printed = before ++ [line]) : t.LastStatus line :=
  ⟨hline, before, [], hprinted, by simp⟩

end Terminal

end SaveLint
