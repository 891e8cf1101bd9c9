import Mathlib.Order.WellFounded
import SaveLint.Proofs.Report.RoundTrip

/-!
# What trimming takes from a report

A report is trimmed before it is cut into lines. Blanks are part of the grammar of a line, one in
front of the message and any number of them in the message itself, so trimming could take a finding
away or uncover another one. It does neither with a finding that has a message: the findings of the
lines as they stand are those of the report, and at most one more, without a message, from the last
line that is not blank (`findingsIn_eq_append`).

In a single line, blanks at the end decide only whether a finding without a message is one
(`finding?_append_of_allBlank`): a reading either has a message that is longer than they are, or its
header ends where they begin, and then nothing before them can be read (`Header.headerFree_stem`).
-/

namespace SaveLint.Report

open SaveLint.Text

/-! ### Headers without their last blank -/

/-- The header up to its code. -/
def Header.trunk (h : Header) : List Char :=
  ':' :: (h.line ++ ':' :: (h.column ++ ':' :: h.gap :: h.code))

/-- The header up to the colon behind its code. -/
def Header.stem (h : Header) : List Char := h.trunk ++ [':']

theorem Header.text_eq_stem (h : Header) : h.text = h.stem ++ [h.lastGap] := by
  simp [text, stem, trunk]

/-- A trunk has one colon less than a header. -/
theorem Header.headerFree_trunk (h : Header) : HeaderFree h.trunk := by
  have hline : ':' ∉ h.line := h.line_isNumber.not_mem (by decide)
  have hcolumn : ':' ∉ h.column := h.column_isNumber.not_mem (by decide)
  have hcode : ':' ∉ h.code := h.code_isCode.not_mem (by decide) (by decide)
  have hgap : h.gap ≠ ':' := ne_colon_of_isBlank h.gap_isBlank
  apply headerFree_of_count
  simp [trunk, List.count_eq_zero.mpr, hline, hcolumn, hcode, hgap]

/-- A stem has as many colons as a header, but a header does not end in one. -/
theorem Header.headerFree_stem (h : Header) : HeaderFree h.stem := by
  rintro h' ⟨front, back, heq⟩
  rcases List.eq_nil_or_concat back with rfl | ⟨back, c, rfl⟩
  · rw [List.append_nil, h'.text_eq_stem, ← List.append_assoc] at heq
    have hlast := List.head_eq_of_cons_eq (List.append_inj_right' heq rfl)
    exact ne_colon_of_isBlank h'.lastGap_isBlank hlast
  · rw [List.concat_eq_append, ← List.append_assoc] at heq
    exact h.headerFree_trunk h' ⟨front, back, List.append_inj_left' heq rfl⟩

/-- A stem with at most one character behind it is too short for a reading. -/
theorem Reading.length_before_lt {line front back : List Char} {h : Header}
    (hline : line = front ++ (h.stem ++ back)) (hback : back.length ≤ 1) (r : Reading line) :
    r.before.length < front.length := by
  refine Nat.lt_of_not_le fun hle => ?_
  have heq := hline.symm.trans r.line_eq
  obtain ⟨between, hbetween⟩ : front <+: r.before :=
    List.prefix_of_prefix_length_le (List.prefix_append _ _) ⟨_, heq.symm⟩ hle
  rw [← hbetween, List.append_assoc] at heq
  have heq := List.append_cancel_left heq
  -- the message is longer than what stands behind the stem, so the header stands in the stem
  have hlong : back.length ≤ (r.message ++ r.after).length := by
    have hpos := List.length_pos_iff.mpr r.message_ne_nil
    rw [List.length_append]
    omega
  rw [← List.append_assoc] at heq
  obtain ⟨lost, hlost⟩ : between ++ r.header.text <+: h.stem := by
    refine List.prefix_of_prefix_length_le ⟨_, heq.symm⟩ (List.prefix_append _ _) ?_
    have hlength := congrArg List.length heq
    simp only [List.length_append] at hlength hlong ⊢
    omega
  exact h.headerFree_stem r.header ⟨between, lost, hlost⟩

/-! ### Readings and the blanks at the end -/

theorem Reading.exists_isFirst {line : List Char} (r : Reading line) :
    ∃ r : Reading line, r.IsFirst := by
  obtain ⟨first, -, hfirst⟩ := (measure fun r : Reading line => r.before.length).wf.has_min
    Set.univ ⟨r, trivial⟩
  exact ⟨first, fun r' => Nat.le_of_not_lt (hfirst r' trivial)⟩

/-- In a line without a feed the message goes on to the end of the line. -/
theorem Reading.after_eq_nil {line : List Char} (hfeed : '\n' ∉ line) (r : Reading line) :
    r.after = [] := by
  rcases r.after_atFeed with h | ⟨rest, h⟩
  · exact h
  · refine absurd ?_ hfeed
    rw [r.line_eq, h]
    simp

theorem Reading.Gives.message_eq_empty_iff {line : List Char} {r : Reading line} {f : Finding}
    (h : r.Gives f) : f.message = "" ↔ AllBlank r.message := by
  simp [h.message, trim_eq_nil_iff]

section Blanks

variable {line tail : List Char}

/-- What is put behind a line belongs to its message. -/
def Reading.extend (r : Reading line) (hfeed : '\n' ∉ line ++ tail) : Reading (line ++ tail) where
  before := r.before
  header := r.header
  message := r.message ++ tail
  after := []
  message_ne_nil := List.append_ne_nil_of_left_ne_nil r.message_ne_nil tail
  no_feed := fun hmem => (List.mem_append.mp hmem).elim r.no_feed
    fun hmem => hfeed (List.mem_append_right line hmem)
  after_atFeed := .inl rfl
  line_eq := by
    have hafter := r.after_eq_nil fun hmem => hfeed (List.mem_append_left tail hmem)
    conv => lhs; rw [r.line_eq, hafter]
    simp

/-- Taking off blanks leaves a message that is not blank where it stands. -/
theorem Reading.exists_shorter (hline : trimEnd line = line) (htail : AllBlank tail)
    (hfeed : '\n' ∉ line ++ tail) (r : Reading (line ++ tail)) (hmessage : ¬ AllBlank r.message) :
    ∃ s : Reading line, s.before = r.before ∧ s.header = r.header ∧
      trim s.message = trim r.message := by
  obtain ⟨lost, hblank, hlost⟩ := exists_trimEnd_append_allBlank r.message
  have hcut : line = r.before ++ (r.header.text ++ (trimEnd r.message ++ [])) :=
    calc line = trimEnd (line ++ tail) := by rw [trimEnd_append_of_allBlank line htail, hline]
      _ = trimEnd (r.before ++ r.header.text ++ r.message) := by
        conv => lhs; rw [r.line_eq, r.after_eq_nil hfeed, List.append_nil, ← List.append_assoc]
      _ = r.before ++ r.header.text ++ trimEnd r.message :=
        trimEnd_append_of_not_allBlank _ hmessage
      _ = r.before ++ (r.header.text ++ (trimEnd r.message ++ [])) := by simp
  refine ⟨⟨r.before, r.header, trimEnd r.message, [], ?_, ?_, .inl rfl, hcut⟩, rfl, rfl, ?_⟩
  · exact mt trimEnd_eq_nil_iff.mp hmessage
  · exact fun hmem => r.no_feed (hlost ▸ List.mem_append_left lost hmem)
  · conv => rhs; rw [← hlost, trim_append_of_allBlank _ hblank]

/-- A first reading without a message loses its last blank, and nothing is left to read. -/
theorem Reading.IsFirst.isEmpty_of_allBlank (hline : trimEnd line = line) (htail : AllBlank tail)
    (hfeed : '\n' ∉ line ++ tail) {r : Reading (line ++ tail)} (hfirst : r.IsFirst)
    (hmessage : AllBlank r.message) : IsEmpty (Reading line) := by
  have hlost : AllBlank (r.header.lastGap :: r.message) :=
    List.forall_mem_cons.mpr ⟨r.header.lastGap_isBlank, hmessage⟩
  have hcolon : ¬ AllBlank [':'] := by decide
  have hcut : line = r.before ++ (r.header.stem ++ []) :=
    calc line = trimEnd (line ++ tail) := by rw [trimEnd_append_of_allBlank line htail, hline]
      _ = trimEnd (r.before ++ r.header.stem ++ r.header.lastGap :: r.message) := by
        conv => lhs; rw [r.line_eq, r.after_eq_nil hfeed, r.header.text_eq_stem]
        simp
      _ = trimEnd (r.before ++ r.header.stem) := trimEnd_append_of_allBlank _ hlost
      _ = trimEnd (r.before ++ r.header.trunk ++ [':']) := by rw [List.append_assoc, Header.stem]
      _ = r.before ++ r.header.trunk ++ [':'] := trimEnd_append_of_not_allBlank _ hcolon
      _ = r.before ++ (r.header.stem ++ []) := by simp [Header.stem]
  refine ⟨fun s => ?_⟩
  have hlt := s.length_before_lt hcut (Nat.zero_le 1)
  exact absurd (hfirst (s.extend hfeed)) (Nat.not_le_of_lt hlt)

/--
Blanks at the end of a line decide only about a finding without a message: the shorter line has the
finding of the longer one, if that one has a message.
-/
theorem finding?_append_of_allBlank (hline : trimEnd line = line) (htail : AllBlank tail)
    (hfeed : '\n' ∉ line ++ tail) :
    finding? line = (finding? (line ++ tail)).filter (·.message != "") := by
  by_cases hreadings : IsEmpty (Reading (line ++ tail))
  · have hnone : IsEmpty (Reading line) := ⟨fun s => hreadings.false (s.extend hfeed)⟩
    rw [finding?_eq_none_of_isEmpty hnone, finding?_eq_none_of_isEmpty hreadings, Option.filter_none]
  · obtain ⟨r, hfirst⟩ := (not_isEmpty_iff.mp hreadings).some.exists_isFirst
    by_cases hmessage : AllBlank r.message
    · rw [finding?_eq_none_of_isEmpty (hfirst.isEmpty_of_allBlank hline htail hfeed hmessage)]
      refine (Option.filter_eq_none_iff.mpr fun f hf => ?_).symm
      rw [hfirst.finding?_eq] at hf
      have hgives := (r.finding?_fragment_eq_some_iff.mp hf).2
      simp [hgives.message_eq_empty_iff.mpr hmessage]
    · obtain ⟨s, hbefore, hheader, htrimmed⟩ := r.exists_shorter hline htail hfeed hmessage
      have hs : s.IsFirst := by
        intro s'
        rw [hbefore]
        exact hfirst (s'.extend hfeed)
      have hsame : s.fragment.finding? = r.fragment.finding? := by
        simp only [Fragment.finding?, Reading.fragment, hheader, htrimmed]
      rw [hs.finding?_eq, hsame, hfirst.finding?_eq]
      cases hf : r.fragment.finding? with
      | none => rfl
      | some f =>
        have hgives := (r.finding?_fragment_eq_some_iff.mp hf).2
        refine (Option.filter_some.trans (if_pos ?_)).symm
        simp [mt hgives.message_eq_empty_iff.mp hmessage]

end Blanks

theorem finding?_trimEnd {line : List Char} (hfeed : '\n' ∉ line) :
    finding? (trimEnd line) = (finding? line).filter (·.message != "") := by
  obtain ⟨tail, htail, heq⟩ := exists_trimEnd_append_allBlank line
  have hline : trimEnd (trimEnd line) = trimEnd line := List.rdropWhile_idempotent isBlank line
  have h := finding?_append_of_allBlank hline htail (by rwa [heq])
  rwa [heq] at h

theorem finding?_eq_none_of_allBlank {line : List Char} (h : AllBlank line) :
    finding? line = none := by
  have hcolon : ':' ∉ line := fun hmem => ne_colon_of_isBlank (h ':' hmem) rfl
  apply finding?_eq_none_of_headerFree
  apply headerFree_of_count
  rw [List.count_eq_zero.mpr hcolon]
  decide

theorem filterMap_of_allBlank {ls : List (List Char)} (h : ∀ l ∈ ls, AllBlank l) :
    ls.filterMap finding? = [] :=
  List.filterMap_eq_nil_iff.mpr fun l hl => finding?_eq_none_of_allBlank (h l hl)

/-! ### The last line -/

/--
The findings of a report are those of its lines as they stand; only the last line that is not blank
has to have a message for its finding.
-/
theorem exists_findings_eq {raw : String} (h : ¬ AllBlank raw.toList) :
    ∃ before line after, lines raw.toList = before ++ line :: after ∧ ¬ AllBlank line ∧
      (∀ l ∈ after, AllBlank l) ∧ findings raw =
        before.filterMap finding? ++ ((finding? line).filter (·.message != "")).toList := by
  obtain ⟨before, line, after, hlines, hline, hafter, htrim⟩ := lines_trimEnd h
  have hmem : line ∈ lines raw.toList := by simp [hlines]
  refine ⟨before, line, after, hlines, hline, hafter, ?_⟩
  calc findings raw = findingsIn (trimEnd raw.toList) := findingsIn_trim raw.toList
    _ = before.filterMap finding? ++ [trimEnd line].filterMap finding? := by
      rw [findingsIn, htrim, List.filterMap_append]
    _ = before.filterMap finding? ++ ((finding? line).filter (·.message != "")).toList := by
      rw [filterMap_cons_toList, finding?_trimEnd (mem_of_mem_lines hmem).1, List.filterMap_nil,
        List.append_nil]

theorem findings_of_allBlank {raw : String} (h : AllBlank raw.toList) : findings raw = [] := by
  show findingsIn (trim raw.toList) = []
  rw [trim_eq_nil_iff.mpr h]
  rfl

/-- The last line that is not blank. -/
def lastFilled? (ls : List (List Char)) : Option (List Char) :=
  (ls.filter fun line => ¬ AllBlank line).getLast?

theorem lastFilled?_append_cons {before after : List (List Char)} {line : List Char}
    (hline : ¬ AllBlank line) (hafter : ∀ l ∈ after, AllBlank l) :
    lastFilled? (before ++ line :: after) = some line := by
  have hnone : after.filter (fun line => ¬ AllBlank line) = [] := by
    simpa [List.filter_eq_nil_iff] using hafter
  rw [lastFilled?, List.filter_append, List.filter_cons_of_pos (by simp [hline]), hnone]
  exact List.getLast?_concat

/-- Without trimming, at most a finding without a message from the last line comes on top. -/
theorem findingsIn_eq_append (raw : String) :
    findingsIn raw.toList = findings raw ++
      (((lastFilled? (lines raw.toList)).bind finding?).filter (·.message == "")).toList := by
  by_cases h : AllBlank raw.toList
  · have hlines : ∀ l ∈ lines raw.toList, AllBlank l := fun l => h.of_mem_lines
    have hlast : lastFilled? (lines raw.toList) = none := by
      simpa [lastFilled?, List.filter_eq_nil_iff] using hlines
    rw [findings_of_allBlank h, hlast, findingsIn, filterMap_of_allBlank hlines]
    rfl
  · obtain ⟨before, line, after, hlines, hline, hafter, hfindings⟩ := exists_findings_eq h
    have hnone : after.filterMap finding? = [] := filterMap_of_allBlank hafter
    rw [findingsIn, hfindings, hlines, lastFilled?_append_cons hline hafter, Option.bind_some,
      List.filterMap_append, filterMap_cons_toList, hnone, List.append_nil, List.append_assoc]
    congr 1
    cases finding? line with
    | none => rfl
    | some f => by_cases hf : f.message = "" <;> simp [Option.filter_some, hf]

/-! ### Main statement -/

/--
Trimming a report does not change which findings with a message it has. Without it there is at most
one more finding, the last one: it has no message, and it comes from the last line that is not blank.
-/
theorem findings_of_untrimmed (raw : String) :
    (findingsIn raw.toList).filter (·.message != "") =
      (findings raw).filter (·.message != "") ∧
    (findingsIn raw.toList = findings raw ∨
      ∃ line f, lastFilled? (lines raw.toList) = some line ∧ finding? line = some f ∧
        f.message = "" ∧ findingsIn raw.toList = findings raw ++ [f]) := by
  have heq := findingsIn_eq_append raw
  cases hlast : ((lastFilled? (lines raw.toList)).bind finding?).filter (·.message == "") with
  | none =>
    rw [hlast, Option.toList_none, List.append_nil] at heq
    exact ⟨by rw [heq], .inl heq⟩
  | some f =>
    rw [hlast, Option.toList_some] at heq
    obtain ⟨hfinding, hmessage⟩ := Option.filter_eq_some_iff.mp hlast
    obtain ⟨line, hline, hf⟩ := Option.bind_eq_some_iff.mp hfinding
    have hempty : f.message = "" := beq_iff_eq.mp hmessage
    refine ⟨?_, .inr ⟨line, f, hline, hf, hempty, heq⟩⟩
    rw [heq, List.filter_append]
    simp [hempty]

/-- The finding that trimming takes away. -/
example : findings "x:1:0: E0001:  \n" = [] ∧
    (findingsIn "x:1:0: E0001:  \n".toList).map (·.message) = [""] := by decide

end SaveLint.Report
