import SaveLint.Report
import SaveLint.Terminal

/-!
# Listing the findings of a report

A report may name any line and column of 32 bits. A diagnostic counts both from zero and the listing
counts both from one. The line of a finding is never zero, so it comes back as it was. The column
counts from zero in the report already, and the last one has no successor: a finding in that column
stops the listing (`Finding.isListable`), when the findings before it have been listed.
-/

namespace SaveLint

/-! ### Any diagnostics -/

namespace Diagnostic

/-- Whether the place of a diagnostic, counted from one, consists of numbers of 32 bits. -/
def isListable (d : Diagnostic) : Bool :=
  d.range.start.line.toNat + 1 < UInt32.size && d.range.start.character.toNat + 1 < UInt32.size

/-- The line of the listing for a diagnostic. -/
def listing (path : String) (d : Diagnostic) : String :=
  let line := d.range.start.line.toNat + 1
  let column := d.range.start.character.toNat + 1
  s!"{path}:{line}:{column}: {d.severity.label}: [{d.source} {d.code.text}] {d.message}"

theorem listed_eq (path : String) (d : Diagnostic) :
    d.listed path =
      if d.isListable then .ok (d.listing path) else .error .positionOverflow := by
  rw [listed, Position.fromOne, Position.successor, Position.successor, isListable]
  by_cases hline : d.range.start.line.toNat + 1 < UInt32.size
  · by_cases hcolumn : d.range.start.character.toNat + 1 < UInt32.size
    · simp only [hline, hcolumn, decide_true, Bool.and_self, if_true]
      rfl
    · simp only [hline, hcolumn, decide_true, decide_false, Bool.and_false, if_true, if_false]
      rfl
  · simp only [hline, decide_false, Bool.false_and, if_false]
    rfl

end Diagnostic

namespace Terminal

/-- What is printed for a diagnostic. -/
def printedDiagnostic (path : String) (d : Diagnostic) : Printed := ⟨.out, d.listing path ++ "\n"⟩

/-- Diagnostics are listed in order, up to the first one that cannot be. -/
theorem list_eq (t : Terminal) (path : String) (ds : List Diagnostic) :
    t.list path ds =
      ({ t with printed := t.printed ++
          (ds.takeWhile Diagnostic.isListable).map (printedDiagnostic path) },
        if ds.all Diagnostic.isListable then none else some .positionOverflow) := by
  induction ds generalizing t with
  | nil =>
      show (t, none) = ({ t with printed := t.printed ++ [] }, none)
      rw [List.append_nil]
  | cons d ds ih =>
      rw [list, Diagnostic.listed_eq]
      by_cases h : d.isListable = true
      · rw [if_pos h, List.takeWhile_cons_of_pos h, List.map_cons, List.all_cons, h, Bool.true_and]
        show (t.printLine (d.listing path)).list path ds = _
        rw [ih]
        simp only [printLine, print, List.append_assoc]
        rfl
      · -- The fault leaves the terminal as it is, and what comes after this one is not reached.
        rw [if_neg h, List.takeWhile_cons_of_neg h, List.map_nil, List.append_nil, List.all_cons,
          Bool.eq_false_iff.mpr h, Bool.false_and]
        rfl

end Terminal

/-! ### One finding -/

/-- Whether the column of a finding, counted from one, is a number of 32 bits. -/
def Finding.isListable (f : Finding) : Bool := f.column.toNat + 1 < UInt32.size

theorem Finding.isListable_iff {f : Finding} :
    f.isListable = true ↔ f.column.toNat + 1 < UInt32.size :=
  decide_eq_true_iff

/-- The line of the listing for a finding. -/
def Finding.listing (path source : String) (f : Finding) : String :=
  let column := f.column.toNat + 1
  s!"{path}:{f.line.toNat}:{column}: {f.severity.label}: [{source} {f.code.text}] {f.message}"

/-- The line of a finding, counted from zero, has a successor, and that is the line again. -/
theorem Finding.toNat_line_sub_one (f : Finding) : (f.line - 1).toNat + 1 = f.line.toNat := by
  have hpos : 0 < f.line.toNat := by
    apply Nat.pos_of_ne_zero
    intro h
    exact f.line_ne_zero (UInt32.toNat_inj.mp h)
  have hone : (1 : UInt32) ≤ f.line := UInt32.le_iff_toNat_le.mpr hpos
  rw [UInt32.toNat_sub_of_le f.line 1 hone]
  exact Nat.sub_add_cancel hpos

theorem Finding.successor_line (f : Finding) :
    Position.successor (f.line - 1) = .ok f.line.toNat := by
  rw [Position.successor, f.toNat_line_sub_one]
  exact if_pos f.line.toNat_lt_size

@[simp] theorem Diagnostic.isListable_ofFinding (source : String) (f : Finding) :
    (ofFinding source f).isListable = f.isListable := by
  have hline : (f.line - 1).toNat + 1 < UInt32.size := by
    rw [f.toNat_line_sub_one]
    exact f.line.toNat_lt_size
  show (decide ((f.line - 1).toNat + 1 < UInt32.size) && f.isListable) = f.isListable
  rw [decide_eq_true hline, Bool.true_and]

@[simp] theorem Diagnostic.listing_ofFinding (path source : String) (f : Finding) :
    (ofFinding source f).listing path = f.listing path source := by
  rw [Finding.listing, ← f.toNat_line_sub_one]
  rfl

/-! ### All findings of a report -/

namespace Terminal

/-- What is printed for a finding. -/
def printedListing (path source : String) (f : Finding) : Printed :=
  ⟨.out, f.listing path source ++ "\n"⟩

/-- The findings are listed in order, up to the first one that cannot be. -/
theorem list_ofFinding (t : Terminal) (path source : String) (fs : List Finding) :
    t.list path (fs.map (Diagnostic.ofFinding source)) =
      ({ t with printed := t.printed ++
          (fs.takeWhile Finding.isListable).map (printedListing path source) },
        if fs.all Finding.isListable then none else some .positionOverflow) := by
  have hlistable : Diagnostic.isListable ∘ Diagnostic.ofFinding source = Finding.isListable := by
    funext f
    exact Diagnostic.isListable_ofFinding source f
  have hprinted : printedDiagnostic path ∘ Diagnostic.ofFinding source =
      printedListing path source := by
    funext f
    simp only [Function.comp, printedDiagnostic, printedListing, Diagnostic.listing_ofFinding]
  rw [list_eq, List.takeWhile_map, List.map_map, List.all_map, hlistable, hprinted]

/-! ### Main statement -/

/--
Publishing the diagnostics of a report completes exactly if no finding of the report is in the last
column of 32 bits, and otherwise it stops with the fault of a position. What it has printed is one
line for each finding before that one, in order. The line of a finding never has that fault.
-/
theorem publish_fault_eq_none_iff (t : Terminal) (m : Machine) (file : FileIdentity)
    (source raw : String) :
    ((t.call m (.publish file (Report.diagnostics source raw))).fault = none ↔
      ∀ f ∈ Report.findings raw, f.column.toNat + 1 < UInt32.size) ∧
    (∀ fault, (t.call m (.publish file (Report.diagnostics source raw))).fault = some fault →
      fault = .positionOverflow) ∧
    (t.call m (.publish file (Report.diagnostics source raw))).terminal.printed =
      t.printed ++ ((Report.findings raw).takeWhile Finding.isListable).map
        (printedListing (t.displayPath file.path).text source) ∧
    ∀ f ∈ Report.findings raw,
      Position.successor (Diagnostic.ofFinding source f).range.start.line = .ok f.line.toNat := by
  have hlist := t.list_ofFinding (t.displayPath file.path).text source (Report.findings raw)
  have hcall : t.call m (.publish file (Report.diagnostics source raw)) =
      ⟨(t.list (t.displayPath file.path).text (Report.diagnostics source raw)).1, m,
        (t.list (t.displayPath file.path).text (Report.diagnostics source raw)).2⟩ := rfl
  rw [hcall, Report.diagnostics, hlist]
  refine ⟨?_, ?_, rfl, fun f _ => f.successor_line⟩
  · have hall : (Report.findings raw).all Finding.isListable = true ↔
        ∀ f ∈ Report.findings raw, f.column.toNat + 1 < UInt32.size := by
      rw [List.all_eq_true]
      exact forall₂_congr fun f _ => Finding.isListable_iff
    rw [← hall]
    split
    · rename_i h
      exact iff_of_true rfl h
    · rename_i h
      exact iff_of_false nofun h
  · intro fault hfault
    split at hfault
    · cases hfault
    · exact (Option.some.inj hfault).symm

/-- The last column of 32 bits is read from a report, and it stops the listing. -/
theorem publish_last_column :
    (Report.findings ":1:4294967295: E0001: boom").map (·.column) = [4294967295] ∧
    (({} : Terminal).call {} (.publish ⟨⟨"/w/a.py"⟩, by decide⟩
      (Report.diagnostics "pylint" ":1:4294967295: E0001: boom"))).fault =
        some .positionOverflow := by
  constructor
  · rfl
  · rfl

end Terminal

end SaveLint
