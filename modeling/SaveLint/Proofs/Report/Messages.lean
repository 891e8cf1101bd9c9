import SaveLint.Proofs.Report.Trimming

/-!
# Findings without a message

The grammar asks for one character of a message, and a message is trimmed only after it was read. So
of the lines with nothing but blanks behind the colon of their code, those with one blank or none
are no findings (`finding?_eq_none_of_stem`), and those with more of them are findings without a
message (`isSilent_append_iff`). In a report, trimming takes such a finding away only where it is
the end of the report, so a report has none exactly if blank lines alone follow the lines that would
give one (`forall_message_ne_empty_iff`).
-/

namespace SaveLint.Report

open SaveLint.Text

/-! ### Single lines -/

/-- The first header of the line passes the checks, and nothing but blanks stands behind it. -/
def IsSilent (line : List Char) : Prop :=
  ∃ r : Reading line, r.IsFirst ∧ r.header.Passes ∧ AllBlank r.message

theorem exists_message_eq_empty_iff {line : List Char} :
    (∃ f, finding? line = some f ∧ f.message = "") ↔ IsSilent line := by
  constructor
  · rintro ⟨f, hf, hmessage⟩
    obtain ⟨fragment, hfragment, hfinding⟩ := Option.bind_eq_some_iff.mp hf
    obtain ⟨r, hfirst, rfl⟩ := Fragment.first?_eq_some_iff.mp hfragment
    obtain ⟨hpasses, hgives⟩ := r.finding?_fragment_eq_some_iff.mp hfinding
    exact ⟨r, hfirst, hpasses, hgives.message_eq_empty_iff.mp hmessage⟩
  · rintro ⟨r, hfirst, hpasses, hblank⟩
    obtain ⟨f, hgives⟩ := r.exists_gives hpasses
    refine ⟨f, ?_, hgives.message_eq_empty_iff.mpr hblank⟩
    rw [hfirst.finding?_eq]
    exact r.finding?_fragment_eq_some_iff.mpr ⟨hpasses, hgives⟩

/-- Behind the colon of its code, a line needs two characters to be a finding. -/
theorem finding?_eq_none_of_stem {path rest : List Char} {h : Header} (hpath : HeaderFree path)
    (hrest : rest <+: [h.lastGap]) : finding? (path ++ (h.stem ++ rest)) = none := by
  refine finding?_eq_none_of_isEmpty ⟨fun r => ?_⟩
  have hlt := r.length_before_lt rfl hrest.length_le
  obtain ⟨lost, hlost⟩ := hrest
  -- with what it lacks, the line has the whole header, and none begins before it
  have hwhole : r.before ++ (r.header.text ++ (r.message ++ r.after ++ lost)) =
      path ++ (h.text ++ []) :=
    calc r.before ++ (r.header.text ++ (r.message ++ r.after ++ lost))
        = r.before ++ (r.header.text ++ (r.message ++ r.after)) ++ lost := by simp
      _ = path ++ (h.stem ++ rest) ++ lost := by rw [← r.line_eq]
      _ = path ++ (h.text ++ []) := by simp [h.text_eq_stem, hlost]
  exact absurd (hpath.length_le hwhole) (Nat.not_le_of_lt hlt)

/-- Two blanks are enough if the header passes. -/
theorem isSilent_append_iff {path blanks : List Char} {h : Header} (hpath : HeaderFree path)
    (hne : blanks ≠ []) (hfeed : '\n' ∉ blanks) (hblank : AllBlank blanks) :
    IsSilent (path ++ (h.text ++ blanks)) ↔ h.Passes := by
  let r : Reading (path ++ (h.text ++ blanks)) :=
    { before := path
      header := h
      message := blanks
      after := []
      message_ne_nil := hne
      no_feed := hfeed
      after_atFeed := .inl rfl
      line_eq := by rw [List.append_nil] }
  have hfirst : r.IsFirst := r.isFirst_of_headerFree hpath
  constructor
  · intro hsilent
    obtain ⟨f, hf, -⟩ := exists_message_eq_empty_iff.mpr hsilent
    rw [hfirst.finding?_eq] at hf
    exact (r.finding?_fragment_eq_some_iff.mp hf).1
  · intro hpasses
    exact ⟨r, hfirst, hpasses, hblank⟩

/-! ### Reports -/

/-- The findings of a report all have a message if blank lines alone follow its silent lines. -/
theorem forall_message_ne_empty_iff (raw : String) :
    (∀ f ∈ findings raw, f.message ≠ "") ↔
      (lines raw.toList).Pairwise fun line later => IsSilent line → AllBlank later := by
  by_cases h : AllBlank raw.toList
  · rw [findings_of_allBlank h]
    refine iff_of_true nofun (List.pairwise_of_forall_mem_list ?_)
    exact fun _ _ later hlater _ => h.of_mem_lines hlater
  · obtain ⟨before, line, after, hlines, hline, hafter, hfindings⟩ := exists_findings_eq h
    -- the finding of the last line has a message, so only the lines before it matter
    have hbefore : (∀ f ∈ findings raw, f.message ≠ "") ↔ ∀ l ∈ before, ¬ IsSilent l := by
      simp only [hfindings, ← exists_message_eq_empty_iff, List.mem_append, List.mem_filterMap,
        Option.mem_toList, Option.filter_eq_some_iff, bne_iff_ne]
      grind
    rw [hbefore, hlines, List.pairwise_append, List.pairwise_cons]
    constructor
    · intro hsilent
      refine ⟨List.pairwise_of_forall_mem_list ?_, ⟨?_, List.pairwise_of_forall_mem_list ?_⟩, ?_⟩
      · exact fun l hl _ _ h => absurd h (hsilent l hl)
      · exact fun later hlater _ => hafter later hlater
      · exact fun _ _ later hlater _ => hafter later hlater
      · exact fun l hl _ _ h => absurd h (hsilent l hl)
    · rintro ⟨-, -, hlater⟩ l hl hsilent
      exact hline (hlater l hl line List.mem_cons_self hsilent)

/-! ### Main statement -/

/--
A line has a finding without a message exactly if it is silent. Nothing at all or one blank behind
the colon of a first code makes no finding, and more blanks make a silent line of it if its header
passes. The findings of a report all have a message exactly if blank lines alone follow its silent
lines.
-/
theorem messages_ne_empty_iff (raw : String) :
    (∀ line, (∃ f, finding? line = some f ∧ f.message = "") ↔ IsSilent line) ∧
    (∀ path (h : Header), HeaderFree path →
      finding? (path ++ h.stem) = none ∧ finding? (path ++ h.text) = none ∧
      ∀ blanks, blanks ≠ [] → '\n' ∉ blanks → AllBlank blanks →
        (IsSilent (path ++ (h.text ++ blanks)) ↔ h.Passes)) ∧
    ((∀ f ∈ findings raw, f.message ≠ "") ↔
      (lines raw.toList).Pairwise fun line later => IsSilent line → AllBlank later) := by
  refine ⟨fun line => exists_message_eq_empty_iff, fun path h hpath => ⟨?_, ?_, ?_⟩,
    forall_message_ne_empty_iff raw⟩
  · have hnone := finding?_eq_none_of_stem hpath (List.nil_prefix (l := [h.lastGap]))
    rwa [List.append_nil] at hnone
  · rw [h.text_eq_stem]
    exact finding?_eq_none_of_stem hpath (List.prefix_refl _)
  · exact fun blanks => isSilent_append_iff hpath

/-- Two blanks behind the code make a finding without a message, in a line and in a report. -/
theorem finding_without_message :
    finding? "test.py:1:0: E0001:  ".toList =
      some ⟨1, 0, ⟨"E0001".toList, by decide⟩, "", by decide⟩ ∧
    findings "test.py:1:0: E0001:  \nok" =
      [⟨1, 0, ⟨"E0001".toList, by decide⟩, "", by decide⟩] := by
  decide

/-- The header of that line passes, and one blank is left for the message. -/
theorem messages_ne_empty_iff_two_blanks :
    ∃ h : Header, HeaderFree "test.py".toList ∧ [' '] ≠ [] ∧ '\n' ∉ [' '] ∧ AllBlank [' '] ∧
      "test.py".toList ++ (h.text ++ [' ']) = "test.py:1:0: E0001:  ".toList ∧
      IsSilent ("test.py".toList ++ (h.text ++ [' '])) := by
  let f : Finding := ⟨1, 0, ⟨"E0001".toList, by decide⟩, "", by decide⟩
  have hpath : HeaderFree "test.py".toList := headerFree_of_count (by decide)
  have hne : [' '] ≠ [] := by decide
  have hfeed : '\n' ∉ [' '] := by decide
  have hblank : AllBlank [' '] := by decide
  obtain ⟨-, hlines, -⟩ := messages_ne_empty_iff "test.py:1:0: E0001:  "
  obtain ⟨-, -, hsilent⟩ := hlines "test.py".toList (findingHeader f) hpath
  exact ⟨findingHeader f, hpath, hne, hfeed, hblank, by decide,
    (hsilent [' '] hne hfeed hblank).mpr (findingHeader_passes f)⟩

end SaveLint.Report
