import Mathlib.Logic.IsEmpty.Defs
import SaveLint.Proofs.Report.Grammar

/-!
# Where headers stand

A text may hold colons and digits without holding a header (`HeaderFree`). What such a text and a
header behind it make up is no earlier header, because no header begins inside another one
(`Header.text_append_ne`). Main statement: `Reading.isFirst_of_headerFree`.
-/

namespace SaveLint.Report

open SaveLint.Text

/-! ### Texts without headers -/

/-- No header stands anywhere in the text. -/
def HeaderFree (cs : List Char) : Prop := ∀ h : Header, ¬ h.text <:+: cs

theorem HeaderFree.of_append {cs tail : List Char} (h : HeaderFree (cs ++ tail)) : HeaderFree cs :=
  fun header hin => h header (hin.trans (List.prefix_append cs tail).isInfix)

/-- A header has four colons, so a text with fewer of them holds none. -/
theorem headerFree_of_count {cs : List Char} (h : cs.count ':' < 4) : HeaderFree cs := by
  intro header hin
  have hfour : 4 ≤ header.text.count ':' := by
    simp only [Header.text, List.count_cons_self, List.count_append, List.count_cons]
    omega
  have hle := hin.sublist.count_le ':'
  omega

theorem finding?_eq_none_of_isEmpty {line : List Char} (h : IsEmpty (Reading line)) :
    finding? line = none := by
  have hfirst : Fragment.first? line = none := by
    refine Option.eq_none_iff_forall_ne_some.mpr fun fragment hsome => ?_
    obtain ⟨r, -, -⟩ := Fragment.first?_eq_some_iff.mp hsome
    exact h.false r
  rw [finding?, hfirst, Option.bind_none]

theorem finding?_eq_none_of_headerFree {line : List Char} (h : HeaderFree line) :
    finding? line = none := by
  refine finding?_eq_none_of_isEmpty ⟨fun r => h r.header ⟨r.before, r.message ++ r.after, ?_⟩⟩
  exact (List.append_assoc _ _ _).trans r.line_eq.symm

/-! ### No header begins inside another one -/

theorem isBlank_of_isDigit {c : Char} (h : isDigit c = true) : isBlank c = false := by
  obtain ⟨start, hstart, hc⟩ := List.any_eq_true.mp h
  simp only [Bool.and_eq_true, decide_eq_true_eq] at hc
  have hapart : ∀ start ∈ digitZeros, ∀ span ∈ blankSpans,
      start + 10 ≤ span.1 ∨ span.2 < start := by decide
  refine Bool.eq_false_iff.mpr fun hblank => ?_
  obtain ⟨span, hspan, hlo, hhi⟩ := Spans.has_iff.mp hblank
  rcases hapart start hstart span hspan with h | h
  · omega
  · omega

/-- A number does not start with a blank. -/
theorem IsNumber.append_ne_cons {digits : List Char} (h : IsNumber digits) {gap : Char}
    (hgap : isBlank gap = true) (rest tail : List Char) : gap :: rest ≠ digits ++ tail := by
  intro heq
  cases digits with
  | nil => exact h.1 rfl
  | cons d digits =>
    obtain ⟨rfl, -⟩ := List.cons.inj heq
    rw [isBlank_of_isDigit (h.2 gap List.mem_cons_self)] at hgap
    cases hgap

theorem IsNumber.not_mem {digits : List Char} (h : IsNumber digits) {c : Char}
    (hdigit : isDigit c = false) : c ∉ digits := by
  intro hmem
  rw [h.2 c hmem] at hdigit
  cases hdigit

theorem IsCode.not_mem {code : List Char} (h : IsCode code) {c : Char} (hdigit : isDigit c = false)
    (hcapital : isAsciiCapital c = false) : c ∉ code := by
  obtain ⟨letter, a₁, a₂, a₃, a₄, rfl, hletter, hdigits⟩ := h
  intro hmem
  rcases List.mem_cons.mp hmem with rfl | hmem
  · rw [hletter] at hcapital
    cases hcapital
  · rw [List.all_eq_true.mp hdigits c hmem] at hdigit
    cases hdigit

theorem ne_colon_of_isBlank {c : Char} (h : isBlank c = true) : c ≠ ':' := by
  rintro rfl
  exact absurd h (by decide)

/-- An end of a text that starts with a colon stands behind any stretch without colons. -/
theorem colon_suffix_append {w u t : List Char} (hw : ':' ∉ w) (h : ':' :: t <:+ w ++ u) :
    ':' :: t <:+ u := by
  induction w with
  | nil => exact h
  | cons c w ih =>
    rcases List.suffix_cons_iff.mp h with heq | h
    · have : ':' = c := (List.cons.inj heq).1
      exact absurd (this ▸ List.mem_cons_self) hw
    · exact ih (fun hmem => hw (List.mem_cons_of_mem c hmem)) h

/-- The ends of a header that start with a colon: one for each of its four colons. -/
theorem Header.colon_suffix {h : Header} {t : List Char} (hs : ':' :: t <:+ h.text) :
    ':' :: t = h.text ∨ t = h.column ++ ':' :: h.gap :: (h.code ++ [':', h.lastGap]) ∨
      t = h.gap :: (h.code ++ [':', h.lastGap]) ∨ t = [h.lastGap] := by
  rcases List.suffix_cons_iff.mp hs with heq | hs
  · exact .inl heq
  · have hs := colon_suffix_append (h.line_isNumber.not_mem (by decide)) hs
    rcases List.suffix_cons_iff.mp hs with heq | hs
    · exact .inr (.inl (List.cons.inj heq).2)
    · have hs := colon_suffix_append (h.column_isNumber.not_mem (by decide)) hs
      rcases List.suffix_cons_iff.mp hs with heq | hs
      · exact .inr (.inr (.inl (List.cons.inj heq).2))
      · have hgap : ':' ∉ h.gap :: h.code := by
          intro hmem
          rcases List.mem_cons.mp hmem with heq | hmem
          · exact ne_colon_of_isBlank h.gap_isBlank heq.symm
          · exact h.code_isCode.not_mem (by decide) (by decide) hmem
        have hs : ':' :: t <:+ [':', h.lastGap] := colon_suffix_append hgap hs
        rcases List.suffix_cons_iff.mp hs with heq | hs
        · exact .inr (.inr (.inr (List.cons.inj heq).2))
        · have hmem : ':' ∈ [h.lastGap] := hs.subset List.mem_cons_self
          exact absurd (List.mem_singleton.mp hmem).symm (ne_colon_of_isBlank h.lastGap_isBlank)

/--
No header begins inside another one. It would begin at one of the later colons of the other header,
and behind each of them a digit of the one would stand where the other has a blank.
-/
theorem Header.text_append_ne {h h' : Header} {front back : List Char}
    (hsplit : h.text = front ++ back) (hfront : front ≠ []) (hback : back ≠ [])
    (tail rest : List Char) : back ++ tail ≠ h'.text ++ rest := by
  intro heq
  obtain ⟨c, t, rfl⟩ := List.exists_cons_of_ne_nil hback
  rw [Header.text_append, List.cons_append] at heq
  obtain ⟨rfl, htail⟩ := List.cons.inj heq
  rcases h.colon_suffix ⟨front, hsplit.symm⟩ with hall | rfl | rfl | rfl
  · have hlen := congrArg List.length hsplit
    rw [← hall, List.length_append] at hlen
    exact hfront (List.length_eq_zero_iff.mp (by omega))
  · -- both sides are a number and a colon, so they are so in the same way
    rw [List.append_assoc] at htail
    have hleft := number?_before_colon h.column_isNumber
      (h.gap :: (h.code ++ [':', h.lastGap]) ++ tail)
    have hright := number?_before_colon h'.line_isNumber
      (h'.column ++ ':' :: h'.gap :: (h'.code ++ ':' :: h'.lastGap :: rest))
    rw [← htail] at hright
    have hboth := Option.some.inj (hleft.symm.trans hright)
    have hcolumn := (List.cons.inj (Prod.mk.inj hboth).2).2
    exact h'.column_isNumber.append_ne_cons h.gap_isBlank _ _ hcolumn
  · exact h'.line_isNumber.append_ne_cons h.gap_isBlank _ _ htail
  · exact h'.line_isNumber.append_ne_cons h.lastGap_isBlank _ _ htail

/-- Behind a text without headers, no header begins before the one that stands there. -/
theorem HeaderFree.length_le {path front rest rest' : List Char} {h h' : Header}
    (hpath : HeaderFree path) (heq : front ++ (h'.text ++ rest') = path ++ (h.text ++ rest)) :
    path.length ≤ front.length := by
  refine Nat.le_of_not_lt fun hlt => ?_
  rcases List.append_eq_append_iff.mp heq with ⟨between, hbefore, heq⟩ | ⟨_, hbefore, -⟩
  · -- the earlier header ends in the text before this one, or reaches into this one
    have hbetween : between ≠ [] := by
      rintro rfl
      rw [hbefore] at hlt
      simp at hlt
    rcases List.append_eq_append_iff.mp heq with ⟨mid, rfl, -⟩ | ⟨back, hsplit, heq⟩
    · exact hpath h' ⟨front, mid, by rw [hbefore, List.append_assoc]⟩
    · by_cases hback : back = []
      · subst hback
        rw [List.append_nil] at hsplit
        exact hpath h' ⟨front, [], by rw [hbefore, hsplit, List.append_nil]⟩
      · exact Header.text_append_ne hsplit hbetween hback _ _ heq.symm
  · rw [hbefore, List.length_append] at hlt
    omega

/-- Behind a text without headers, the header that stands there is the first one. -/
theorem Reading.isFirst_of_headerFree {line : List Char} (r : Reading line)
    (h : HeaderFree r.before) : r.IsFirst :=
  fun r' => h.length_le (r'.line_eq.symm.trans r.line_eq)

end SaveLint.Report
