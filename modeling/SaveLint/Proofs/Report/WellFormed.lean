import SaveLint.Proofs.Report.Grammar
import SaveLint.Proofs.Terminal.Listing
import SaveLint.Proofs.Text.Lines

/-!
# Well-formed diagnostics

What a diagnostic looks like is guaranteed in several places: the code by its own type, the line by
the check of a finding, the message by the scanner, which stops at a line feed, and by trimming.
`Diagnostic.IsWellFormed` collects the guarantees, and every diagnostic of a report has them,
whatever the report holds (`Report.isWellFormed_of_mem_diagnostics`).

Nothing is lost on the way from a finding to its diagnostic, so the findings of a report can be read
off its diagnostics again (`Report.map_finding?_diagnostics`).
-/

namespace SaveLint

/-! ### Messages -/

/-- A text in one line, without blanks at its ends. -/
structure IsTrimmedLine (text : String) : Prop where
  head : ∀ c, text.toList.head? = some c → Text.isBlank c = false
  last : ∀ c, text.toList.getLast? = some c → Text.isBlank c = false
  no_feed : '\n' ∉ text.toList

theorem isTrimmedLine_ofList_trim {cs : List Char} (h : '\n' ∉ cs) :
    IsTrimmedLine (String.ofList (Text.trim cs)) := by
  constructor <;> rw [String.toList_ofList]
  · exact fun c => Text.isBlank_of_head?_trim
  · exact fun c => Text.isBlank_of_getLast?_trim
  · exact mt Text.mem_of_mem_trim h

/-- The message of a finding is a trimmed part of a line. -/
theorem Report.isTrimmedLine_of_mem_findings {raw : String} {f : Finding}
    (h : f ∈ Report.findings raw) : IsTrimmedLine f.message := by
  obtain ⟨line, -, hline⟩ := List.mem_filterMap.mp h
  obtain ⟨fragment, hfragment, hfinding⟩ := Option.bind_eq_some_iff.mp hline
  obtain ⟨r, -, rfl⟩ := Fragment.first?_eq_some_iff.mp hfragment
  obtain ⟨-, hgives⟩ := r.finding?_fragment_eq_some_iff.mp hfinding
  rw [hgives.message]
  exact isTrimmedLine_ofList_trim r.no_feed

/-! ### Codes -/

/-- A code with its severity: a capital and four digits of ASCII, and the capital decides. -/
structure Code.IsGraded (code : Code) (severity : Severity) (letter : Char) (digits : List Char) :
    Prop where
  chars : code.chars = letter :: digits
  isCapital : 'A' ≤ letter ∧ letter ≤ 'Z'
  length_digits : digits.length = 4
  isDigit : ∀ c ∈ digits, '0' ≤ c ∧ c ≤ '9'
  severity_eq : severity =
    if letter = 'E' ∨ letter = 'F' then .error
    else if letter = 'I' then .information
    else .warning

theorem Code.exists_isGraded (code : Code) :
    ∃ letter digits, code.IsGraded code.severity letter digits := by
  obtain ⟨chars, hwritten⟩ := code
  unfold IsWritten at hwritten
  split at hwritten
  · rename_i letter a b c d
    obtain ⟨hletter, hdigits⟩ := Bool.and_eq_true_iff.mp hwritten
    refine ⟨letter, [a, b, c, d], rfl, ?_, rfl, ?_, rfl⟩
    · simpa [Text.isAsciiCapital] using hletter
    · intro x hx
      simpa [Text.isAsciiDigit] using List.all_eq_true.mp hdigits x hx
  · cases hwritten

/-! ### Diagnostics -/

namespace Diagnostic

/-- What a diagnostic of an analyzer with a certain label looks like. -/
structure IsWellFormed (label : String) (d : Diagnostic) : Prop where
  point : d.range.stop = d.range.start
  line : d.range.start.line.toNat + 1 < UInt32.size
  code : ∃ letter digits, d.code.IsGraded d.severity letter digits
  message : IsTrimmedLine d.message
  source : d.source = label

theorem isWellFormed_ofFinding (label : String) {f : Finding} (h : IsTrimmedLine f.message) :
    (ofFinding label f).IsWellFormed label where
  point := rfl
  line := by
    show (f.line - 1).toNat + 1 < UInt32.size
    rw [f.toNat_line_sub_one]
    exact f.line.toNat_lt_size
  code := f.code.exists_isGraded
  message := h
  source := rfl

/-- The finding that a diagnostic tells: its line counts from one again. -/
def finding? (d : Diagnostic) : Option Finding :=
  Finding.ofParts? (d.range.start.line + 1) d.range.start.character d.code d.message

theorem finding?_ofFinding (label : String) (f : Finding) :
    (ofFinding label f).finding? = some f := by
  refine Finding.ofParts?_eq_some_iff.mpr ⟨?_, rfl, rfl, rfl⟩
  exact (UInt32.sub_add_cancel f.line 1).symm

end Diagnostic

/-! ### Reports -/

namespace Report

variable {label raw : String}

theorem isWellFormed_of_mem_diagnostics {d : Diagnostic} (h : d ∈ diagnostics label raw) :
    d.IsWellFormed label := by
  obtain ⟨f, hf, rfl⟩ := List.mem_map.mp h
  exact Diagnostic.isWellFormed_ofFinding label (isTrimmedLine_of_mem_findings hf)

/-- The findings of a report can be read off its diagnostics, in order. -/
theorem map_finding?_diagnostics (label raw : String) :
    (diagnostics label raw).map Diagnostic.finding? = (findings raw).map some := by
  rw [diagnostics, List.map_map]
  apply List.map_congr_left
  intro f _
  exact Diagnostic.finding?_ofFinding label f

end Report

end SaveLint
