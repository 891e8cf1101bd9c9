import SaveLint.Proofs.Text.Decoding
import SaveLint.Settings.Expand

/-!
# What an expansion is

Every text is a template: references, each with some text before it, and a rest in which no
reference is closed. `Template.Reads` says when a template is the reading of a text, by the text
alone and not by the scanner, and the scanner finds it (`reads_iff`). So a text has exactly one
reading. The expansion is the template with a value in the place of each reference
(`expand_eq_filled`), and what is put there is not read again.

What stands for a name is said by the bytes of the variable (`Environment.Stands`): a value that is
not UTF-8 counts as not set.
-/

namespace SaveLint

/-! ### Values -/

namespace Environment

/-- The environment of a system whose variables are bytes; one that is no text counts as not set. -/
def ofBytes (vars : String → Option Bytes) : Environment := fun name => (vars name).bind stringOf?

/-- What stands for a name, given the bytes of the variables. -/
inductive Stands (vars : String → Option Bytes) : List Char → List Char → Prop where
  | noName : Stands vars [] []
  | unset {name : List Char} (h : vars (String.ofList name) = none) : Stands vars name []
  | noText {name : List Char} {bytes : Bytes} (h : vars (String.ofList name) = some bytes)
      (noText : ∀ text, bytes ≠ bytesOf text) : Stands vars name []
  | text {name : List Char} {text : String} (hname : name ≠ [])
      (h : vars (String.ofList name) = some (bytesOf text)) : Stands vars name text.toList

theorem value_of_eq_none {env : Environment} {name : List Char}
    (h : env (String.ofList name) = none) : env.value name = [] := by
  rw [value, h]
  split <;> rfl

theorem stands_value (vars : String → Option Bytes) (name : List Char) :
    Stands vars name ((ofBytes vars).value name) := by
  have hget : ofBytes vars (String.ofList name) = (vars (String.ofList name)).bind stringOf? := rfl
  cases hvar : vars (String.ofList name) with
  | none =>
      rw [hvar] at hget
      rw [value_of_eq_none hget]
      exact .unset hvar
  | some bytes =>
      rw [hvar, Option.bind_some] at hget
      cases htext : stringOf? bytes with
      | none =>
          rw [htext] at hget
          rw [value_of_eq_none hget]
          refine .noText hvar ?_
          rintro text rfl
          rw [stringOf?_eq_some_iff.mpr rfl] at htext
          cases htext
      | some text =>
          rw [htext] at hget
          obtain rfl := stringOf?_eq_some_iff.mp htext
          by_cases hname : name = []
          · rw [hname, value, if_pos rfl]
            exact .noName
          · rw [value, if_neg hname, hget]
            exact .text hname hvar

end Environment

namespace Settings

/-! ### The scanner -/

/-- The two characters that open a reference. -/
def opener : List Char := ['$', '\x7b']

/-- Whether a text with an opener after it has no other opener. -/
def OpensLast (cs : List Char) : Prop :=
  ∀ before after, cs ++ opener = before ++ opener ++ after → after = []

theorem opensLast_nil : OpensLast [] := by
  intro before after h
  have hlength := congrArg List.length h
  simp only [List.nil_append, List.length_append] at hlength
  exact List.length_eq_zero_iff.mp (by omega)

theorem opensLast_cons {c : Char} {cs : List Char} :
    OpensLast (c :: cs) ↔ OpensLast cs ∧ ¬(c = '$' ∧ cs.head? = some '\x7b') := by
  constructor
  · intro h
    constructor
    · intro before after heq
      exact h (c :: before) after (congrArg (c :: ·) heq)
    · rintro ⟨rfl, hhead⟩
      obtain ⟨rest, rfl⟩ := List.head?_eq_some_iff.mp hhead
      have hnil : rest ++ opener = [] := h [] (rest ++ opener) rfl
      simp [opener] at hnil
  · rintro ⟨h, hfirst⟩ before after heq
    cases before with
    | cons b before => exact h before after (List.cons.inj heq).2
    | nil =>
        -- The opener would be made of the character and of what is next to it.
        obtain ⟨rfl, hrest⟩ := List.cons.inj heq
        cases cs with
        | nil => cases hrest
        | cons d cs =>
            obtain ⟨rfl, -⟩ := List.cons.inj hrest
            exact absurd ⟨rfl, rfl⟩ hfirst

theorem opening?_eq_some_iff {read cs before after : List Char} :
    opening? read cs = some (before, after) ↔
      ∃ skipped, before = read.reverse ++ skipped ∧ cs = skipped ++ opener ++ after ∧
        OpensLast skipped := by
  fun_induction opening? read cs with
  | case1 => simp [opener]
  | case2 read rest =>
      constructor
      · intro h
        cases h
        exact ⟨[], (List.append_nil _).symm, rfl, opensLast_nil⟩
      · rintro ⟨skipped, rfl, heq, hlast⟩
        cases skipped with
        | nil =>
            cases heq
            simp
        | cons c skipped =>
            -- Then the skipped text would have an opener of its own at its start.
            obtain ⟨rfl, hrest⟩ := List.cons.inj heq
            refine absurd ⟨rfl, ?_⟩ (opensLast_cons.mp hlast).2
            cases skipped with
            | nil => cases hrest
            | cons d skipped =>
                obtain ⟨rfl, -⟩ := List.cons.inj hrest
                rfl
  | case3 read c rest hno ih =>
      rw [ih]
      constructor
      · rintro ⟨skipped, rfl, rfl, hlast⟩
        refine ⟨c :: skipped, by simp, rfl, opensLast_cons.mpr ⟨hlast, ?_⟩⟩
        rintro ⟨rfl, hhead⟩
        obtain ⟨more, rfl⟩ := List.head?_eq_some_iff.mp hhead
        exact hno _ rfl rfl
      · rintro ⟨skipped, rfl, heq, hlast⟩
        cases skipped with
        | nil =>
            obtain ⟨rfl, hrest⟩ := List.cons.inj heq
            exact (hno _ rfl hrest).elim
        | cons d skipped =>
            obtain ⟨rfl, rfl⟩ := List.cons.inj heq
            exact ⟨skipped, by simp, rfl, (opensLast_cons.mp hlast).1⟩

theorem opening?_eq_none_iff {read cs : List Char} :
    opening? read cs = none ↔ ∀ before after, cs ≠ before ++ opener ++ after := by
  fun_induction opening? read cs with
  | case1 => simp [opener]
  | case2 read rest =>
      constructor
      · intro h
        cases h
      · intro h
        exact absurd rfl (h [] rest)
  | case3 read c rest hno ih =>
      rw [ih]
      constructor
      · rintro h before after heq
        cases before with
        | nil =>
            obtain ⟨rfl, hrest⟩ := List.cons.inj heq
            exact hno _ rfl hrest
        | cons b before => exact h before after (List.cons.inj heq).2
      · rintro h before after rfl
        exact h (c :: before) after rfl

theorem closing?_eq_some_iff {read cs name after : List Char} :
    closing? read cs = some (name, after) ↔
      ∃ skipped, name = read.reverse ++ skipped ∧ cs = skipped ++ '\x7d' :: after ∧
        '\x7d' ∉ skipped := by
  fun_induction closing? read cs with
  | case1 => simp
  | case2 read rest =>
      constructor
      · intro h
        cases h
        exact ⟨[], (List.append_nil _).symm, rfl, List.not_mem_nil⟩
      · rintro ⟨skipped, rfl, heq, hfree⟩
        cases skipped with
        | nil =>
            cases heq
            rw [List.append_nil]
        | cons c skipped =>
            obtain ⟨rfl, -⟩ := List.cons.inj heq
            exact absurd List.mem_cons_self hfree
  | case3 read c rest hno ih =>
      rw [ih]
      constructor
      · rintro ⟨skipped, rfl, rfl, hfree⟩
        refine ⟨c :: skipped, by simp, rfl, ?_⟩
        rw [List.mem_cons, not_or]
        exact ⟨fun h => hno h.symm, hfree⟩
      · rintro ⟨skipped, rfl, heq, hfree⟩
        cases skipped with
        | nil =>
            obtain ⟨rfl, -⟩ := List.cons.inj heq
            exact (hno rfl).elim
        | cons d skipped =>
            obtain ⟨rfl, rfl⟩ := List.cons.inj heq
            exact ⟨skipped, by simp, rfl, fun h => hfree (List.mem_cons_of_mem _ h)⟩

theorem closing?_eq_none_iff {read cs : List Char} :
    closing? read cs = none ↔ '\x7d' ∉ cs := by
  fun_induction closing? read cs with
  | case1 => simp
  | case2 => simp
  | case3 read c rest hno ih =>
      rw [ih, List.mem_cons, not_or]
      exact ⟨fun h => ⟨fun hc => hno hc.symm, h⟩, fun h => h.2⟩

theorem Reference.first?_eq_some_iff {cs : List Char} {r : Reference} :
    first? cs = some r ↔
      cs = r.before ++ opener ++ r.name ++ '\x7d' :: r.after ∧ OpensLast r.before ∧
        '\x7d' ∉ r.name := by
  obtain ⟨before, name, after⟩ := r
  simp only [first?, Option.bind_eq_bind, Option.bind_eq_some_iff, Option.pure_def,
    Option.some.injEq, Prod.exists, Reference.mk.injEq]
  constructor
  · rintro ⟨_, rest, hopen, _, _, hclose, rfl, rfl, rfl⟩
    obtain ⟨skipped, rfl, rfl, hlast⟩ := opening?_eq_some_iff.mp hopen
    obtain ⟨name, rfl, rfl, hfree⟩ := closing?_eq_some_iff.mp hclose
    exact ⟨by simp, hlast, hfree⟩
  · rintro ⟨rfl, hlast, hfree⟩
    exact ⟨before, name ++ '\x7d' :: after,
      opening?_eq_some_iff.mpr ⟨before, rfl, List.append_assoc _ _ _, hlast⟩, name, after,
      closing?_eq_some_iff.mpr ⟨name, rfl, rfl, hfree⟩, rfl, rfl, rfl⟩

/-- What comes after an opener comes after the leftmost one as well. -/
theorem OpensLast.suffix {first rest before after : List Char} (h : OpensLast first)
    (heq : first ++ opener ++ rest = before ++ opener ++ after) : after <:+ rest := by
  rcases List.append_eq_append_iff.mp heq with ⟨between, -, hrest⟩ | ⟨between, hfirst, hafter⟩
  · exact ⟨between, hrest.symm⟩
  · rw [hafter, h before between hfirst]
    exact List.suffix_rfl

/-- There is no reference if no opener has a closing brace after it. -/
theorem Reference.first?_eq_none_iff {cs : List Char} :
    first? cs = none ↔ ∀ before after, cs = before ++ opener ++ after → '\x7d' ∉ after := by
  cases hopen : opening? [] cs with
  | none =>
      refine iff_of_true (by rw [first?, hopen]; rfl) ?_
      intro before after heq
      exact absurd heq (opening?_eq_none_iff.mp hopen before after)
  | some found =>
      obtain ⟨first, rest⟩ := found
      have hnone : first? cs = none ↔ '\x7d' ∉ rest := by
        rw [← @closing?_eq_none_iff [] rest]
        cases hclose : closing? [] rest <;> simp [first?, hopen, hclose]
      obtain ⟨_, rfl, rfl, hlast⟩ := opening?_eq_some_iff.mp hopen
      rw [hnone]
      constructor
      · intro hfree before after heq hmem
        exact hfree ((hlast.suffix heq).subset hmem)
      · intro h
        exact h _ rest rfl

/-! ### Templates -/

/-- A reference, with the text before it. -/
structure Slot where
  before : List Char
  name : List Char
  deriving DecidableEq, Repr

/-- References, and the text after the last of them. -/
structure Template where
  slots : List Slot
  rest : List Char
  deriving DecidableEq, Repr

def Slot.text (s : Slot) : List Char := s.before ++ opener ++ s.name ++ ['\x7d']

namespace Template

def text (t : Template) : List Char := t.slots.flatMap Slot.text ++ t.rest

/-- The template with values in the places of the references. -/
def filled (t : Template) (value : List Char → List Char) : List Char :=
  t.slots.flatMap (fun s => s.before ++ value s.name) ++ t.rest

/--
A template is the reading of a text: no opener stands in the text before a reference, no closing
brace in a name, and in the rest no opener has a closing brace anywhere after it.
-/
structure Reads (t : Template) (cs : List Char) : Prop where
  text : cs = t.text
  before : ∀ s ∈ t.slots, OpensLast s.before
  name : ∀ s ∈ t.slots, '\x7d' ∉ s.name
  rest : ∀ before after, t.rest = before ++ opener ++ after → '\x7d' ∉ after

/-- The template that the scanner finds. -/
def scan (cs : List Char) : Template :=
  match _h : Reference.first? cs with
  | none => ⟨[], cs⟩
  | some r => ⟨⟨r.before, r.name⟩ :: (scan r.after).slots, (scan r.after).rest⟩
termination_by cs.length
decreasing_by exact length_after_of_first? _h

theorem scan_of_none {cs : List Char} (h : Reference.first? cs = none) : scan cs = ⟨[], cs⟩ := by
  rw [scan]
  split
  · rfl
  · rename_i r hr
    rw [h] at hr
    cases hr

theorem scan_of_some {cs : List Char} {r : Reference} (h : Reference.first? cs = some r) :
    scan cs = ⟨⟨r.before, r.name⟩ :: (scan r.after).slots, (scan r.after).rest⟩ := by
  rw [scan]
  split
  · rename_i hnone
    rw [h] at hnone
    cases hnone
  · rename_i r' hr
    rw [h] at hr
    cases hr
    rfl

theorem reads_scan (cs : List Char) : (scan cs).Reads cs := by
  fun_induction scan cs with
  | case1 cs h =>
      constructor
      case text => rfl
      case before => simp
      case name => simp
      case rest => exact Reference.first?_eq_none_iff.mp h
  | case2 cs r h ih =>
      obtain ⟨hcs, hlast, hfree⟩ := Reference.first?_eq_some_iff.mp h
      constructor
      case text =>
        have htext : (scan r.after).text = r.after := ih.text.symm
        rw [hcs]
        conv => lhs; rw [← htext]
        simp [Template.text, Slot.text]
      case before => exact List.forall_mem_cons.mpr ⟨hlast, ih.before⟩
      case name => exact List.forall_mem_cons.mpr ⟨hfree, ih.name⟩
      case rest => exact ih.rest

/-- A text has no other reading than the one that the scanner finds. -/
theorem Reads.eq_scan {t : Template} {cs : List Char} (h : t.Reads cs) : t = scan cs := by
  obtain ⟨slots, rest⟩ := t
  induction slots generalizing cs with
  | nil =>
      have hcs : cs = rest := h.text
      rw [scan_of_none (Reference.first?_eq_none_iff.mpr (hcs ▸ h.rest)), hcs]
  | cons s slots ih =>
      obtain ⟨hlast, hbefore⟩ := List.forall_mem_cons.mp h.before
      obtain ⟨hfree, hname⟩ := List.forall_mem_cons.mp h.name
      have hfirst : Reference.first? cs =
          some ⟨s.before, s.name, (⟨slots, rest⟩ : Template).text⟩ := by
        rw [Reference.first?_eq_some_iff, h.text]
        exact ⟨by simp [Template.text, Slot.text], hlast, hfree⟩
      rw [scan_of_some hfirst, ← ih ⟨rfl, hbefore, hname, h.rest⟩]

theorem reads_iff {t : Template} {cs : List Char} : t.Reads cs ↔ t = scan cs := by
  constructor
  · exact Reads.eq_scan
  · rintro rfl
    exact reads_scan cs

/-- An opener without a closing brace after it belongs to the rest, with everything after it. -/
theorem scan_append_unclosed (cs : List Char) {more : List Char} (h : '\x7d' ∉ more) :
    scan (cs ++ opener ++ more) = ⟨(scan cs).slots, (scan cs).rest ++ opener ++ more⟩ := by
  have hreads := reads_scan cs
  symm
  apply Reads.eq_scan
  constructor
  case before => exact hreads.before
  case name => exact hreads.name
  case text =>
    conv => lhs; rw [hreads.text]
    simp [Template.text]
  case rest =>
    intro before after heq hmem
    rw [List.append_assoc] at heq
    rcases List.append_eq_append_iff.mp heq with ⟨between, -, hafter⟩ | ⟨between, hrest, hafter⟩
    · have hsuffix : '\x7d' ∈ opener ++ more := by
        rw [hafter]
        exact List.mem_append_right _ hmem
      simp [opener, h] at hsuffix
    · rw [hafter] at hmem
      simp [opener, h] at hmem
      exact hreads.rest before between hrest hmem

end Template

/-! ### Expansions -/

variable {env env' : Environment} {cs : List Char}

/-- An expansion is the reading of a text with the value of each name in its place. -/
theorem expand_eq_filled (env : Environment) (cs : List Char) :
    expand env cs = (Template.scan cs).filled env.value := by
  fun_induction expand env cs with
  | case1 cs h =>
      rw [Template.scan_of_none h]
      rfl
  | case2 cs r h ih =>
      rw [Template.scan_of_some h, ih]
      simp [Template.filled]

/-- Only the variables that a text refers to matter. -/
theorem expand_congr (h : ∀ s ∈ (Template.scan cs).slots,
    env (String.ofList s.name) = env' (String.ofList s.name)) : expand env cs = expand env' cs := by
  rw [expand_eq_filled, expand_eq_filled, Template.filled, Template.filled, List.flatMap_def,
    List.flatMap_def]
  congr 2
  apply List.map_congr_left
  intro s hs
  rw [Environment.value, Environment.value, h s hs]

theorem expand_of_no_opener (env : Environment)
    (h : ∀ before after, cs ≠ before ++ opener ++ after) : expand env cs = cs := by
  have hnone : Reference.first? cs = none := by
    rw [Reference.first?_eq_none_iff]
    intro before after heq
    exact absurd heq (h before after)
  rw [expand_eq_filled, Template.scan_of_none hnone]
  rfl

theorem expand_append_unclosed (env : Environment) (cs : List Char) {more : List Char}
    (h : '\x7d' ∉ more) : expand env (cs ++ opener ++ more) = expand env cs ++ opener ++ more := by
  rw [expand_eq_filled, expand_eq_filled, Template.scan_append_unclosed cs h]
  simp [Template.filled]

/-! ### Main statement -/

/--
A text has exactly one reading as a template, and its expansion is that template with the value of
each name in its place: nothing for the empty name and for a variable that is not set or not UTF-8,
and else the text of the variable as it is. So only the variables that the text refers to matter, a
text without an opener stays as it is, and so does an opener that is never closed, with everything
after it.
-/
theorem expanded_eq_template_filled (s : String) :
    ∃ t : Template,
      t.Reads s.toList ∧
      (∀ other : Template, other.Reads s.toList → other = t) ∧
      (∀ env, (expanded env s).toList = t.filled env.value) ∧
      (∀ vars name, Environment.Stands vars name ((Environment.ofBytes vars).value name)) ∧
      (∀ env env',
        (∀ slot ∈ t.slots, env (String.ofList slot.name) = env' (String.ofList slot.name)) →
        expanded env s = expanded env' s) ∧
      ((∀ before after, s.toList ≠ before ++ opener ++ after) → ∀ env, expanded env s = s) ∧
      ∀ more, '\x7d' ∉ more → ∀ env,
        expanded env (String.ofList (s.toList ++ opener ++ more)) =
          String.ofList ((expanded env s).toList ++ opener ++ more) := by
  refine ⟨.scan s.toList, Template.reads_scan _, fun _ => Template.Reads.eq_scan, ?_,
    Environment.stands_value, ?_, ?_, ?_⟩
  · intro env
    rw [expanded, String.toList_ofList, expand_eq_filled]
  · intro env env' h
    rw [expanded, expanded, expand_congr h]
  · intro h env
    rw [expanded, expand_of_no_opener env h, String.ofList_toList]
  · intro more h env
    rw [expanded, expanded, String.toList_ofList, String.toList_ofList,
      expand_append_unclosed env s.toList h]

/-- An opener inside a name, a value that looks like a reference, and an opener that stays open. -/
theorem expanded_eq_template_filled_nested :
    let vars : String → Option Bytes := fun name =>
      if name = "A$\x7bB" then some (bytesOf "$\x7bA\x7d") else none
    expanded (.ofBytes vars) "a$\x7bA$\x7bB\x7db$\x7bc" = "a$\x7bA\x7db$\x7bc" := by
  intro vars
  let read : Template := ⟨[⟨['a'], ['A', '$', '\x7b', 'B']⟩], ['b', '$', '\x7b', 'c']⟩
  have hreads : read.Reads "a$\x7bA$\x7bB\x7db$\x7bc".toList := by
    constructor
    case text => rfl
    case before => simp [read, opensLast_cons, opensLast_nil]
    case name => simp [read]
    case rest =>
      intro before after heq hmem
      have hrest : '\x7d' ∈ read.rest := heq ▸ List.mem_append_right _ hmem
      simp [read] at hrest
  obtain ⟨t, -, honly, hexpanded, -⟩ := expanded_eq_template_filled "a$\x7bA$\x7bB\x7db$\x7bc"
  have hvalue : (Environment.ofBytes vars).value ['A', '$', '\x7b', 'B'] = "$\x7bA\x7d".toList := by
    have hget : Environment.ofBytes vars "A$\x7bB" = some "$\x7bA\x7d" := by
      have hvar : vars "A$\x7bB" = some (bytesOf "$\x7bA\x7d") := if_pos rfl
      rw [Environment.ofBytes, hvar]
      exact stringOf?_eq_some_iff.mpr rfl
    rw [Environment.value, if_neg (List.cons_ne_nil _ _)]
    exact congrArg (fun v => (v.getD "").toList) hget
  rw [← String.toList_inj, hexpanded, ← honly read hreads]
  simp [read, Template.filled, hvalue]

end Settings

end SaveLint
