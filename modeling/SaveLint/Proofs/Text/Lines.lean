import SaveLint.Text.Blank
import SaveLint.Text.Lines
import Mathlib.Data.List.DropRight

/-!
# Trimming and lines

What trimming takes away is blank, and it stops at a character that is not. The lines of a text are
read off from the front: a piece without a line feed, then a line feed, then the lines of the rest.

These are the laws that a reader of lines needs: `trimEnd_append` says where trimming a text of two
parts stops, and `lines_append_feed` and `lines_of_no_feed` are the two equations that everything
about `lines` follows from, by induction on the feeds (`feed_induction`). They are brought together
in `lines_trimEnd`: a trimmed text has the same lines up to the last one that is not blank.
-/

namespace SaveLint.Text

/-! ### Trimming -/

/-- A text of blanks, possibly empty. -/
def AllBlank (cs : List Char) : Prop := ∀ c ∈ cs, isBlank c = true

instance (cs : List Char) : Decidable (AllBlank cs) :=
  decidable_of_iff (cs.all isBlank = true) List.all_eq_true

theorem AllBlank.append {cs ds : List Char} (hc : AllBlank cs) (hd : AllBlank ds) :
    AllBlank (cs ++ ds) := by
  intro c hmem
  rcases List.mem_append.mp hmem with h | h
  · exact hc c h
  · exact hd c h

theorem trimEnd_eq_nil_iff {cs : List Char} : trimEnd cs = [] ↔ AllBlank cs :=
  List.rdropWhile_eq_nil_iff

/-- Trimming splits the leading blanks off. -/
theorem exists_allBlank_append_trimStart (cs : List Char) :
    ∃ lead, AllBlank lead ∧ cs = lead ++ trimStart cs :=
  ⟨cs.takeWhile isBlank, List.all_eq_true.mp List.all_takeWhile,
    List.takeWhile_append_dropWhile.symm⟩

/-- Trimming splits the trailing blanks off. -/
theorem exists_trimEnd_append_allBlank (cs : List Char) :
    ∃ tail, AllBlank tail ∧ trimEnd cs ++ tail = cs :=
  ⟨cs.rtakeWhile isBlank, fun _ => List.mem_rtakeWhile_imp,
    List.rdropWhile_append_rtakeWhile⟩

theorem trimEnd_append_of_allBlank (cs : List Char) {tail : List Char} (h : AllBlank tail) :
    trimEnd (cs ++ tail) = trimEnd cs := by
  show ((cs ++ tail).reverse.dropWhile isBlank).reverse = _
  rw [List.reverse_append, List.dropWhile_append_of_pos]
  · rfl
  · intro c hc
    exact h c (List.mem_reverse.mp hc)

/-- If a character of the second part stays, then nothing of the first part goes. -/
theorem trimEnd_append_of_not_allBlank (cs : List Char) {tail : List Char} (h : ¬ AllBlank tail) :
    trimEnd (cs ++ tail) = cs ++ trimEnd tail := by
  have hne : tail.reverse.dropWhile isBlank ≠ [] := by
    intro hnil
    exact h (trimEnd_eq_nil_iff.mp (congrArg List.reverse hnil))
  show ((cs ++ tail).reverse.dropWhile isBlank).reverse = _
  rw [List.reverse_append, List.dropWhile_append, if_neg (by simpa using hne), List.reverse_append,
    List.reverse_reverse]
  rfl

theorem trim_append_of_allBlank (cs : List Char) {tail : List Char} (h : AllBlank tail) :
    trim (cs ++ tail) = trim cs := by
  simp only [trim, trimStart, List.dropWhile_append]
  split
  · rename_i hcs
    have htail : trimStart tail = [] := List.dropWhile_eq_nil_iff.mpr h
    rw [List.isEmpty_iff.mp hcs]
    exact congrArg trimEnd htail
  · exact trimEnd_append_of_allBlank _ h

theorem trim_eq_nil_iff {cs : List Char} : trim cs = [] ↔ AllBlank cs := by
  obtain ⟨lead, hlead, heq⟩ := exists_allBlank_append_trimStart cs
  rw [trim, trimEnd_eq_nil_iff]
  constructor
  · intro h
    rw [heq]
    exact hlead.append h
  · intro h c hc
    exact h c (List.dropWhile_subset isBlank hc)

theorem toList_trimmed (s : String) : (trimmed s).toList = trim s.toList := String.toList_ofList

theorem trimmed_eq_empty_iff {text : String} : trimmed text = "" ↔ AllBlank text.toList := by
  simp [trimmed, trim_eq_nil_iff]

theorem trimEnd_trim (cs : List Char) : trimEnd (trim cs) = trim cs :=
  List.rdropWhile_idempotent isBlank (trimStart cs)

theorem mem_of_mem_trim {cs : List Char} {c : Char} (h : c ∈ trim cs) : c ∈ cs :=
  List.dropWhile_subset isBlank ((List.rdropWhile_prefix isBlank _).subset h)

theorem isBlank_of_head?_trimStart {cs : List Char} {c : Char}
    (h : (trimStart cs).head? = some c) : isBlank c = false := by
  have hstop := List.head?_dropWhile_not isBlank cs
  rw [show (cs.dropWhile isBlank).head? = some c from h] at hstop
  exact hstop

/-- A trimmed text does not start with a blank. -/
theorem isBlank_of_head?_trim {cs : List Char} {c : Char} (h : (trim cs).head? = some c) :
    isBlank c = false := by
  obtain ⟨tail, -, hsplit⟩ := exists_trimEnd_append_allBlank (trimStart cs)
  apply isBlank_of_head?_trimStart
  rw [← hsplit, List.head?_append]
  exact Option.or_eq_some_iff.mpr (.inl h)

/-- A trimmed text does not end with a blank. -/
theorem isBlank_of_getLast?_trim {cs : List Char} {c : Char} (h : (trim cs).getLast? = some c) :
    isBlank c = false := by
  apply isBlank_of_head?_trimStart
  rw [← List.getLast?_reverse]
  exact h

/-- A text stays as it is if it neither starts nor ends with a blank. -/
theorem trim_eq_self {cs : List Char} (hhead : ∀ c, cs.head? = some c → isBlank c = false)
    (hlast : ∀ c, cs.getLast? = some c → isBlank c = false) : trim cs = cs := by
  have hstart : trimStart cs = cs := by
    cases cs with
    | nil => rfl
    | cons c cs => exact List.dropWhile_cons_of_neg (by simp [hhead c rfl])
  rw [trim, hstart]
  show cs.rdropWhile isBlank = cs
  rw [List.rdropWhile_eq_self_iff]
  intro hne
  rw [hlast _ (List.getLast?_eq_some_getLast hne)]
  exact Bool.false_ne_true

theorem trim_trim (cs : List Char) : trim (trim cs) = trim cs :=
  trim_eq_self (fun _ => isBlank_of_head?_trim) fun _ => isBlank_of_getLast?_trim

/-! ### Lines -/

theorem splitFeeds_go_append {l : List Char} (h : '\n' ∉ l) (rest piece : List Char)
    (done : List (List Char)) :
    splitFeeds.go (l ++ rest) piece done = splitFeeds.go rest (l.reverse ++ piece) done := by
  induction l generalizing piece with
  | nil => rfl
  | cons c l ih =>
    have hc : c ≠ '\n' := fun heq => h (heq ▸ List.mem_cons_self)
    have hl : '\n' ∉ l := fun hmem => h (List.mem_cons_of_mem c hmem)
    rw [List.cons_append, splitFeeds.go, ih hl, List.reverse_cons, List.append_assoc]
    · rfl
    · exact hc

/-- The finished pieces stay in front. -/
theorem splitFeeds_go_done (cs piece : List Char) (done : List (List Char)) :
    splitFeeds.go cs piece done = done.reverse ++ splitFeeds.go cs piece [] := by
  induction cs generalizing piece done with
  | nil => simp [splitFeeds.go]
  | cons c cs ih =>
    by_cases hc : c = '\n'
    · subst hc
      rw [splitFeeds.go, splitFeeds.go, ih [] (piece.reverse :: done), ih [] [piece.reverse]]
      simp
    · rw [splitFeeds.go, splitFeeds.go, ih]
      · exact hc
      · exact hc

theorem splitFeeds_append_feed {l : List Char} (h : '\n' ∉ l) (rest : List Char) :
    splitFeeds (l ++ '\n' :: rest) = l :: splitFeeds rest := by
  rw [splitFeeds, splitFeeds_go_append h, splitFeeds.go, splitFeeds_go_done]
  simp [splitFeeds]

theorem splitFeeds_of_no_feed {l : List Char} (h : '\n' ∉ l) : splitFeeds l = [l] := by
  rw [splitFeeds, ← List.append_nil l, splitFeeds_go_append h, splitFeeds.go]
  simp

theorem splitFeeds_ne_nil (cs : List Char) : splitFeeds cs ≠ [] := by
  by_cases h : '\n' ∈ cs
  · obtain ⟨l, rest, rfl, hl⟩ := List.eq_append_cons_of_mem h
    rw [splitFeeds_append_feed hl]
    exact List.cons_ne_nil _ _
  · rw [splitFeeds_of_no_feed h]
    exact List.cons_ne_nil _ _

/-- The text up to the first line feed is the first line, but for a carriage return. -/
theorem lines_append_feed {l : List Char} (h : '\n' ∉ l) (rest : List Char) :
    lines (l ++ '\n' :: rest) = dropReturn l :: lines rest := by
  rw [lines, splitFeeds_append_feed h]
  cases hrest : splitFeeds rest with
  | nil => exact absurd hrest (splitFeeds_ne_nil rest)
  | cons piece pieces =>
    rw [lines, hrest, linesOfPieces]
    exact List.cons_ne_nil piece pieces

/-- A text without a line feed is one line, unless it is empty. -/
theorem lines_of_no_feed {l : List Char} (h : '\n' ∉ l) :
    lines l = if l = [] then [] else [l] := by
  rw [lines, splitFeeds_of_no_feed h, linesOfPieces]

/-- At most a carriage return goes, and it is blank. -/
theorem exists_dropReturn_append_allBlank (l : List Char) :
    ∃ tail, AllBlank tail ∧ dropReturn l ++ tail = l := by
  unfold dropReturn
  split
  · rename_i h
    obtain ⟨front, rfl⟩ := List.getLast?_eq_some_iff.mp h
    refine ⟨['\r'], by decide, ?_⟩
    rw [List.dropLast_concat]
  · exact ⟨[], by decide, List.append_nil l⟩

theorem dropReturn_cons_cons (c d : Char) (l : List Char) :
    dropReturn (c :: d :: l) = c :: dropReturn (d :: l) := by
  unfold dropReturn
  rw [List.getLast?_cons_cons]
  split
  · rfl
  · rfl

theorem dropReturn_concat_return (l : List Char) : dropReturn (l ++ ['\r']) = l := by
  rw [dropReturn, if_pos List.getLast?_concat, List.dropLast_concat]

theorem mem_of_mem_dropReturn {l : List Char} {c : Char} (h : c ∈ dropReturn l) : c ∈ l := by
  obtain ⟨tail, -, heq⟩ := exists_dropReturn_append_allBlank l
  rw [← heq]
  exact List.mem_append_left tail h

theorem trimEnd_dropReturn (l : List Char) : trimEnd (dropReturn l) = trimEnd l := by
  obtain ⟨tail, htail, heq⟩ := exists_dropReturn_append_allBlank l
  conv => rhs; rw [← heq, trimEnd_append_of_allBlank _ htail]

/-! ### Lines of a trimmed text -/

/-- Induction on the line feeds of a text, from its front on. -/
@[elab_as_elim]
theorem feed_induction {motive : List Char → Prop} (cs : List Char)
    (last : ∀ l, '\n' ∉ l → motive l)
    (feed : ∀ l rest, '\n' ∉ l → motive rest → motive (l ++ '\n' :: rest)) : motive cs := by
  induction hn : cs.length using Nat.strongRecOn generalizing cs with
  | _ n ih =>
    subst hn
    by_cases h : '\n' ∈ cs
    · obtain ⟨l, rest, rfl, hl⟩ := List.eq_append_cons_of_mem h
      refine feed l rest hl (ih _ ?_ rest rfl)
      rw [List.length_append, List.length_cons]
      omega
    · exact last cs h

/-- What stands in a line stands in the text, and it is no line feed. -/
theorem mem_of_mem_lines {cs line : List Char} (h : line ∈ lines cs) :
    '\n' ∉ line ∧ ∀ c ∈ line, c ∈ cs := by
  induction cs using feed_induction with
  | last l hl =>
    rw [lines_of_no_feed hl] at h
    split at h
    · cases h
    · obtain rfl := List.mem_singleton.mp h
      exact ⟨hl, fun c hc => hc⟩
  | feed l rest hl ih =>
    rw [lines_append_feed hl] at h
    rcases List.mem_cons.mp h with rfl | h
    · exact ⟨mt mem_of_mem_dropReturn hl,
        fun c hc => List.mem_append_left _ (mem_of_mem_dropReturn hc)⟩
    · obtain ⟨hfeed, hmem⟩ := ih h
      exact ⟨hfeed, fun c hc => List.mem_append_right l (List.mem_cons_of_mem _ (hmem c hc))⟩

theorem AllBlank.of_mem_lines {cs line : List Char} (h : AllBlank cs) (hline : line ∈ lines cs) :
    AllBlank line :=
  fun c hc => h c ((mem_of_mem_lines hline).2 c hc)

/--
Trimming the end of a text takes away the blank lines at its end, and the end of the last line that
is not blank.
-/
theorem lines_trimEnd {cs : List Char} (h : ¬ AllBlank cs) :
    ∃ before line after, lines cs = before ++ line :: after ∧ ¬ AllBlank line ∧
      (∀ l ∈ after, AllBlank l) ∧ lines (trimEnd cs) = before ++ [trimEnd line] := by
  have hend {l : List Char} (hl : '\n' ∉ l) (hblank : ¬ AllBlank l) :
      lines (trimEnd l) = [trimEnd l] := by
    obtain ⟨tail, -, heq⟩ := exists_trimEnd_append_allBlank l
    have hfeed : '\n' ∉ trimEnd l := fun hmem => hl (heq ▸ List.mem_append_left tail hmem)
    rw [lines_of_no_feed hfeed, if_neg (mt trimEnd_eq_nil_iff.mp hblank)]
  induction cs using feed_induction with
  | last l hl =>
    have hne : l ≠ [] := by
      rintro rfl
      exact h (by decide)
    refine ⟨[], l, [], ?_, h, by decide, hend hl h⟩
    rw [lines_of_no_feed hl, if_neg hne]
    rfl
  | feed l rest hl ih =>
    rw [lines_append_feed hl]
    by_cases hrest : AllBlank rest
    · -- nothing but blanks follows, so the first line is the last one that is not blank
      have hfeed : AllBlank ('\n' :: rest) := by
        intro c hc
        rcases List.mem_cons.mp hc with rfl | hc
        · decide
        · exact hrest c hc
      have hblank : ¬ AllBlank l := fun hblank => h (hblank.append hfeed)
      refine ⟨[], dropReturn l, lines rest, rfl, ?_, fun _ => hrest.of_mem_lines, ?_⟩
      · rwa [← trimEnd_eq_nil_iff, trimEnd_dropReturn, trimEnd_eq_nil_iff]
      · rw [trimEnd_append_of_allBlank l hfeed, trimEnd_dropReturn, hend hl hblank]
        rfl
    · obtain ⟨before, line, after, hlines, hline, hafter, htrim⟩ := ih hrest
      refine ⟨dropReturn l :: before, line, after, by rw [hlines]; rfl, hline, hafter, ?_⟩
      rw [List.append_cons, trimEnd_append_of_not_allBlank _ hrest, ← List.append_cons,
        lines_append_feed hl, htrim]
      rfl

end SaveLint.Text
