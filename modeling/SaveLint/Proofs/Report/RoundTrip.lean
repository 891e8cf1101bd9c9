import SaveLint.Proofs.Report.Headers
import SaveLint.Proofs.Text.Lines

/-!
# Reports read back

A report is written from entries, one a line: noise, or a path with a finding behind it. Neither
noise nor paths hold a header, but both may hold colons and digits, and a message may hold
anything. Main statement: `findings_of_joined`, reading such a report gives its findings back,
whatever breaks stand between the lines and whatever blanks stand around the whole.

Two facts carry it. The header behind a path is the first one of its line
(`Reading.isFirst_of_headerFree`). And a line loses at most blanks to trimming and to its break,
which a finding does not end in (`Entry.finding?_of_append`).
-/

namespace SaveLint.Report

open SaveLint.Text

/-! ### Entries -/

theorem isNumber_toDigits (n : Nat) : IsNumber (Nat.toDigits 10 n) := by
  refine ⟨Nat.toDigits_ne_nil, fun c hc => ?_⟩
  exact (isAsciiDigit_iff.mp (Number.isAsciiDigit_of_mem_toDigits hc)).1

/-- The header in front of the message: plain decimal numbers, and a space for each blank. -/
def findingHeader (f : Finding) : Header where
  line := Nat.toDigits 10 f.line.toNat
  column := Nat.toDigits 10 f.column.toNat
  gap := ' '
  code := f.code.chars
  lastGap := ' '
  line_isNumber := isNumber_toDigits _
  column_isNumber := isNumber_toDigits _
  gap_isBlank := isBlank_space
  code_isCode := (isWritten_iff.mp f.code.isWritten).1
  lastGap_isBlank := isBlank_space

theorem feed_not_mem_findingHeader (f : Finding) : '\n' ∉ (findingHeader f).text := by
  have hline : '\n' ∉ Nat.toDigits 10 f.line.toNat := (isNumber_toDigits _).not_mem (by decide)
  have hcolumn : '\n' ∉ Nat.toDigits 10 f.column.toNat := (isNumber_toDigits _).not_mem (by decide)
  have hcode : '\n' ∉ f.code.chars :=
    (isWritten_iff.mp f.code.isWritten).1.not_mem (by decide) (by decide)
  simp [Header.text, findingHeader, hline, hcolumn, hcode]

theorem findingHeader_passes (f : Finding) : (findingHeader f).Passes := by
  have hline := Number.ofDigits_toDigits f.line.toNat
  have hcolumn := Number.ofDigits_toDigits f.column.toNat
  refine ⟨fun c hc => ?_, ?_, ?_, fun c hc => ?_, ?_, (isWritten_iff.mp f.code.isWritten).2⟩
  · exact Number.isAsciiDigit_of_mem_toDigits hc
  · show Number.ofDigits (Nat.toDigits 10 f.line.toNat) ≤ Number.max32
    rw [hline]
    exact Nat.le_of_lt_succ f.line.toNat_lt
  · show 1 ≤ Number.ofDigits (Nat.toDigits 10 f.line.toNat)
    rw [hline]
    refine Nat.one_le_iff_ne_zero.mpr fun hzero => ?_
    exact f.line_ne_zero (UInt32.toNat_inj.mp (hzero.trans UInt32.toNat_zero.symm))
  · exact Number.isAsciiDigit_of_mem_toDigits hc
  · show Number.ofDigits (Nat.toDigits 10 f.column.toNat) ≤ Number.max32
    rw [hcolumn]
    exact Nat.le_of_lt_succ f.column.toNat_lt

/-- A piece of one line in which no header stands. -/
structure Plain where
  chars : List Char
  no_feed : '\n' ∉ chars
  headerFree : HeaderFree chars

/-- A finding with a message that can end a line: not empty, trimmed, and without a feed. -/
structure Shown where
  finding : Finding
  message_ne_nil : finding.message.toList ≠ []
  message_trimmed : trim finding.message.toList = finding.message.toList
  no_feed : '\n' ∉ finding.message.toList

/-- What a line of a report is written from. -/
inductive Entry where
  | noise (text : Plain)
  | finding (path : Plain) (shown : Shown)

namespace Entry

def text : Entry → List Char
  | .noise text => text.chars
  | .finding path shown =>
    path.chars ++ ((findingHeader shown.finding).text ++ shown.finding.message.toList)

def finding? : Entry → Option Finding
  | .noise _ => none
  | .finding _ shown => some shown.finding

theorem no_feed_text (entry : Entry) : '\n' ∉ entry.text := by
  cases entry with
  | noise text => exact text.no_feed
  | finding path shown =>
    intro hmem
    rcases List.mem_append.mp hmem with hmem | hmem
    · exact path.no_feed hmem
    · rcases List.mem_append.mp hmem with hmem | hmem
      · exact feed_not_mem_findingHeader shown.finding hmem
      · exact shown.no_feed hmem

/-- The line of a finding gives the finding back: its header is the first one of the line. -/
theorem finding?_text_finding (path : Plain) (shown : Shown) :
    Report.finding? (text (.finding path shown)) = some shown.finding := by
  let r : Reading (text (.finding path shown)) :=
    { before := path.chars
      header := findingHeader shown.finding
      message := shown.finding.message.toList
      after := []
      message_ne_nil := shown.message_ne_nil
      no_feed := shown.no_feed
      after_atFeed := .inl rfl
      line_eq := by rw [List.append_nil, text] }
  have hfirst : r.IsFirst := r.isFirst_of_headerFree path.headerFree
  have hgives : r.Gives shown.finding :=
    { line := (Number.ofDigits_toDigits _).symm
      column := (Number.ofDigits_toDigits _).symm
      code := rfl
      message := by
        show _ = String.ofList (trim shown.finding.message.toList)
        rw [shown.message_trimmed, String.ofList_toList] }
  rw [hfirst.finding?_eq]
  exact r.finding?_fragment_eq_some_iff.mpr ⟨findingHeader_passes _, hgives⟩

/-- A finding's line ends in its message, so it does not end in a blank. -/
theorem trimEnd_text_finding (path : Plain) (shown : Shown) :
    trimEnd (text (.finding path shown)) = text (.finding path shown) := by
  have hmessage : trimEnd shown.finding.message.toList = shown.finding.message.toList := by
    rw [← shown.message_trimmed, trimEnd_trim]
  have hblank : ¬ AllBlank shown.finding.message.toList := by
    intro h
    rw [← trimEnd_eq_nil_iff, hmessage] at h
    exact shown.message_ne_nil h
  rw [text, ← List.append_assoc, trimEnd_append_of_not_allBlank _ hblank, hmessage]

/-- What is left of an entry's line after blanks are taken off its end still gives its finding. -/
theorem finding?_of_append {entry : Entry} {line tail : List Char} (htail : AllBlank tail)
    (h : line ++ tail = entry.text) : Report.finding? line = entry.finding? := by
  cases entry with
  | noise text =>
    have hchars : line ++ tail = text.chars := h
    have hfree : HeaderFree (line ++ tail) := hchars ▸ text.headerFree
    exact finding?_eq_none_of_headerFree hfree.of_append
  | finding path shown =>
    have hline : trimEnd line = line ++ tail := by
      rw [← trimEnd_append_of_allBlank line htail, h, trimEnd_text_finding]
    -- trimming makes no line longer, so nothing was taken off
    obtain ⟨lost, -, hlost⟩ := exists_trimEnd_append_allBlank line
    have htail : tail = [] := by
      have := congrArg List.length hlost
      rw [hline, List.length_append, List.length_append] at this
      exact List.length_eq_zero_iff.mp (by omega)
    rw [htail, List.append_nil] at h
    rw [h]
    exact finding?_text_finding path shown

end Entry

/-! ### Reading the lines -/

/-- The findings of a text that is not trimmed. -/
def findingsIn (cs : List Char) : List Finding := (lines cs).filterMap finding?

theorem filterMap_cons_toList {α β : Type} (f : α → Option β) (a : α) (as : List α) :
    (a :: as).filterMap f = (f a).toList ++ as.filterMap f := by
  simp only [List.filterMap_eq_flatMap_toList, List.flatMap_cons]

theorem findingsIn_append_feed {l : List Char} (h : '\n' ∉ l) (rest : List Char) :
    findingsIn (l ++ '\n' :: rest) = (finding? (dropReturn l)).toList ++ findingsIn rest := by
  rw [findingsIn, lines_append_feed h, filterMap_cons_toList, findingsIn]

theorem findingsIn_of_no_feed {l : List Char} (h : '\n' ∉ l) :
    findingsIn l = (finding? l).toList := by
  rw [findingsIn, lines_of_no_feed h]
  cases l with
  | nil => rfl
  | cons c l =>
    rw [if_neg (List.cons_ne_nil c l), filterMap_cons_toList, List.filterMap_nil, List.append_nil]

/-- Only a colon can start a header. -/
theorem finding?_cons {c : Char} (hc : c ≠ ':') (line : List Char) :
    finding? (c :: line) = finding? line := by
  have hstart : Fragment.atStart? (c :: line) = none := by
    refine Option.eq_none_iff_forall_ne_some.mpr fun fragment hsome => ?_
    obtain ⟨r, hbefore, -⟩ := Fragment.atStart?_eq_some_iff.mp hsome
    have heq := r.line_eq
    rw [hbefore, List.nil_append, Header.text_append] at heq
    exact hc (List.cons.inj heq).1
  rw [finding?, Fragment.first?, hstart, finding?]

/-- A blank in front of a text changes none of its findings. -/
theorem findingsIn_cons {c : Char} (hc : isBlank c = true) (cs : List Char) :
    findingsIn (c :: cs) = findingsIn cs := by
  have hcolon := ne_colon_of_isBlank hc
  by_cases hfeed : c = '\n'
  · subst hfeed
    exact findingsIn_append_feed List.not_mem_nil cs
  · -- the blank belongs to the first line, where it starts no header
    have hcons : ∀ {l : List Char}, '\n' ∉ l → '\n' ∉ c :: l := by
      intro l hl hmem
      rcases List.mem_cons.mp hmem with heq | hmem
      · exact hfeed heq.symm
      · exact hl hmem
    by_cases hmem : '\n' ∈ cs
    · obtain ⟨l, rest, rfl, hl⟩ := List.eq_append_cons_of_mem hmem
      rw [findingsIn_append_feed hl, ← List.cons_append, findingsIn_append_feed (hcons hl)]
      congr 2
      cases l with
      | nil =>
        unfold dropReturn
        split
        · rfl
        · exact finding?_cons hcolon []
      | cons d l => rw [dropReturn_cons_cons, finding?_cons hcolon]
    · rw [findingsIn_of_no_feed hmem, findingsIn_of_no_feed (hcons hmem), finding?_cons hcolon]

theorem findingsIn_append_of_allBlank {lead : List Char} (h : AllBlank lead) (cs : List Char) :
    findingsIn (lead ++ cs) = findingsIn cs := by
  induction lead with
  | nil => rfl
  | cons c lead ih =>
    rw [List.cons_append, findingsIn_cons (h c List.mem_cons_self)]
    exact ih fun d hd => h d (List.mem_cons_of_mem c hd)

/-- Trimming at the front of a text that is trimmed at its end as well changes nothing. -/
theorem findingsIn_trimEnd_append {lead : List Char} (h : AllBlank lead) (cs : List Char) :
    findingsIn (trimEnd (lead ++ cs)) = findingsIn (trimEnd cs) := by
  by_cases hcs : AllBlank cs
  · rw [trimEnd_eq_nil_iff.mpr hcs, trimEnd_eq_nil_iff.mpr (h.append hcs)]
  · rw [trimEnd_append_of_not_allBlank lead hcs, findingsIn_append_of_allBlank h]

/-- Trimming at the front never matters. -/
theorem findingsIn_trim (cs : List Char) : findingsIn (trim cs) = findingsIn (trimEnd cs) := by
  obtain ⟨lead, hlead, heq⟩ := exists_allBlank_append_trimStart cs
  have h := findingsIn_trimEnd_append hlead (trimStart cs)
  rw [← heq] at h
  exact h.symm

/-! ### Reports -/

/-- What ends a line: a line feed, or a carriage return and a line feed. -/
def IsBreak (cs : List Char) : Prop := cs = ['\n'] ∨ cs = ['\r', '\n']

theorem IsBreak.allBlank {br : List Char} (h : IsBreak br) : AllBlank br := by
  rcases h with rfl | rfl
  · decide
  · decide

/-- The text has the lines of the entries, with a break of either kind between any two. -/
inductive Joined : List Entry → List Char → Prop
  | nil : Joined [] []
  | last (entry : Entry) : Joined [entry] entry.text
  | cons {entry next : Entry} {entries : List Entry} {br text : List Char} :
      IsBreak br → Joined (next :: entries) text →
      Joined (entry :: next :: entries) (entry.text ++ (br ++ text))

/-- The first line of a text with breaks gives the finding of its entry. -/
theorem findingsIn_append_break (entry : Entry) {br : List Char} (hbr : IsBreak br)
    (rest : List Char) :
    findingsIn (entry.text ++ (br ++ rest)) = entry.finding?.toList ++ findingsIn rest := by
  rcases hbr with rfl | rfl
  · obtain ⟨tail, htail, heq⟩ := exists_dropReturn_append_allBlank entry.text
    rw [List.singleton_append, findingsIn_append_feed entry.no_feed_text,
      Entry.finding?_of_append htail heq]
  · have hreturn : '\n' ∉ entry.text ++ ['\r'] := by
      intro hmem
      rcases List.mem_append.mp hmem with hmem | hmem
      · exact entry.no_feed_text hmem
      · exact absurd hmem (by decide)
    have heq : entry.text ++ (['\r', '\n'] ++ rest) = (entry.text ++ ['\r']) ++ '\n' :: rest := by
      simp
    have hnone : AllBlank [] := by decide
    rw [heq, findingsIn_append_feed hreturn, dropReturn_concat_return,
      Entry.finding?_of_append hnone (List.append_nil _)]

/-- The last line gives the finding of its entry, whatever blanks are trimmed off it. -/
theorem findingsIn_trimEnd_text (entry : Entry) :
    findingsIn (trimEnd entry.text) = entry.finding?.toList := by
  obtain ⟨tail, htail, heq⟩ := exists_trimEnd_append_allBlank entry.text
  have hfeed : '\n' ∉ trimEnd entry.text := by
    intro hmem
    exact entry.no_feed_text (heq ▸ List.mem_append_left tail hmem)
  rw [findingsIn_of_no_feed hfeed, Entry.finding?_of_append htail heq]

/--
By induction on the lines. Trimming either stops in a later line, and then it leaves the first line
and its break alone, or it takes away all of the later lines, which then held no finding.
-/
theorem findingsIn_trimEnd_of_joined {entries : List Entry} {text after : List Char}
    (h : Joined entries text) (hafter : AllBlank after) :
    findingsIn (trimEnd (text ++ after)) = entries.filterMap Entry.finding? := by
  induction h with
  | nil =>
    rw [List.nil_append, trimEnd_eq_nil_iff.mpr hafter]
    rfl
  | last entry =>
    rw [trimEnd_append_of_allBlank _ hafter, findingsIn_trimEnd_text, filterMap_cons_toList,
      List.filterMap_nil, List.append_nil]
  | @cons entry next entries br text hbr _ ih =>
    rw [filterMap_cons_toList, ← ih]
    by_cases hblank : AllBlank (text ++ after)
    · -- the later lines are gone, and by the induction they held nothing
      have hrest : AllBlank (br ++ (text ++ after)) := hbr.allBlank.append hblank
      rw [List.append_assoc, List.append_assoc, trimEnd_append_of_allBlank _ hrest,
        findingsIn_trimEnd_text, trimEnd_eq_nil_iff.mpr hblank]
      exact (List.append_nil _).symm
    · rw [List.append_assoc, List.append_assoc, ← List.append_assoc entry.text br,
        trimEnd_append_of_not_allBlank _ hblank, List.append_assoc,
        findingsIn_append_break entry hbr]

/-- Reading a report gives back the findings that it was written from, all of them and in order. -/
theorem findings_of_joined {entries : List Entry} {before text after : List Char}
    (hbefore : AllBlank before) (h : Joined entries text) (hafter : AllBlank after) :
    findings (String.ofList (before ++ (text ++ after))) = entries.filterMap Entry.finding? := by
  show findingsIn (trim (String.ofList (before ++ (text ++ after))).toList) = _
  rw [String.toList_ofList, findingsIn_trim, findingsIn_trimEnd_append hbefore,
    findingsIn_trimEnd_of_joined h hafter]

/-- A banner that holds a place but no header. -/
def banner : Entry := .noise ⟨"* a.py:1:2".toList, by decide, headerFree_of_count (by decide)⟩

/-- A finding behind a path that ends in a number, with a message that reads like a header. -/
def elseFinding : Entry :=
  .finding ⟨"C:a.py:1".toList, by decide, headerFree_of_count (by decide)⟩
    ⟨⟨12, 8, ⟨"R1705".toList, by decide⟩, "else:5:6: E0001: x", by decide⟩,
      by decide, by decide, by decide⟩

theorem findings_banner_elseFinding :
    findings " * a.py:1:2\r\nC:a.py:1:12:8: R1705: else:5:6: E0001: x\n " =
      [⟨12, 8, ⟨"R1705".toList, by decide⟩, "else:5:6: E0001: x", by decide⟩] := by
  have hbefore : AllBlank [' '] := by decide
  have hafter : AllBlank ['\n', ' '] := by decide
  have hjoined : Joined [banner, elseFinding] (banner.text ++ (['\r', '\n'] ++ elseFinding.text)) :=
    .cons (.inr rfl) (.last elseFinding)
  have hraw : String.ofList ([' '] ++ ((banner.text ++ (['\r', '\n'] ++ elseFinding.text)) ++
      ['\n', ' '])) = " * a.py:1:2\r\nC:a.py:1:12:8: R1705: else:5:6: E0001: x\n " := by decide
  rw [← hraw]
  exact findings_of_joined hbefore hjoined hafter

end SaveLint.Report
