import SaveLint.Report

/-!
# The grammar of report lines

Which lines hold a finding, and which one, said without the scanner: a line is read as a text, a
header `:LINE:COLUMN: CODE: `, a message and what follows the message (`Reading`). A line may have
several readings, since digits and colons may stand before the header; the one that counts is the
one with the shortest text before it. Main statement: `finding?_iff_reading`.

The scanners of single parts come first, each with the form of the texts that it takes
(`number?_eq_some_iff`, `gap?_eq_some_iff`, `code?_eq_some_iff`, `message?_eq_some_iff`). A part is
never read in two ways, because no part holds the colon that ends it, so the search for a fragment
finds the first reading (`first?_eq_some_iff`).
-/

namespace SaveLint.Report

open SaveLint.Text

/-! ### Headers and readings -/

/-- A non-empty run of digits of any script. -/
def IsNumber (cs : List Char) : Prop := cs ≠ [] ∧ ∀ c ∈ cs, isDigit c = true

instance (cs : List Char) : Decidable (IsNumber cs) :=
  decidable_of_iff (cs ≠ [] ∧ cs.all isDigit = true) (and_congr_right fun _ => List.all_eq_true)

/-- An ASCII capital and four digits of any script. -/
def IsCode (cs : List Char) : Prop :=
  ∃ letter a b c d, cs = [letter, a, b, c, d] ∧ isAsciiCapital letter = true ∧
    [a, b, c, d].all isDigit = true

/-- What makes a line a finding: two numbers and a code, with colons and blanks. -/
structure Header where
  line : List Char
  column : List Char
  gap : Char
  code : List Char
  lastGap : Char
  line_isNumber : IsNumber line
  column_isNumber : IsNumber column
  gap_isBlank : isBlank gap = true
  code_isCode : IsCode code
  lastGap_isBlank : isBlank lastGap = true

theorem isBlank_space : isBlank ' ' = true := by decide

/-- The header as it stands in a line. -/
def Header.text (h : Header) : List Char :=
  ':' :: (h.line ++ ':' :: (h.column ++ ':' :: h.gap :: (h.code ++ [':', h.lastGap])))

theorem Header.text_append (h : Header) (rest : List Char) :
    h.text ++ rest = ':' :: (h.line ++ ':' :: (h.column ++
      ':' :: h.gap :: (h.code ++ ':' :: h.lastGap :: rest))) := by
  simp [Header.text]

/-- Empty, or a line feed and what follows it. -/
def AtFeed (cs : List Char) : Prop := cs = [] ∨ ∃ rest, cs = '\n' :: rest

/-- A way to read a line: a header somewhere in it, and the message up to the end of the line. -/
structure Reading (line : List Char) where
  before : List Char
  header : Header
  message : List Char
  after : List Char
  message_ne_nil : message ≠ []
  no_feed : '\n' ∉ message
  after_atFeed : AtFeed after
  line_eq : line = before ++ (header.text ++ (message ++ after))

/-- No other reading has its header further to the front. -/
def Reading.IsFirst {line : List Char} (r : Reading line) : Prop :=
  ∀ r' : Reading line, r.before.length ≤ r'.before.length

/-- The checks of a header: ASCII alone, numbers of 32 bits, and a line that is not zero. -/
structure Header.Passes (h : Header) : Prop where
  line_ascii : ∀ c ∈ h.line, isAsciiDigit c = true
  line_fits : Number.ofDigits h.line ≤ Number.max32
  line_pos : 1 ≤ Number.ofDigits h.line
  column_ascii : ∀ c ∈ h.column, isAsciiDigit c = true
  column_fits : Number.ofDigits h.column ≤ Number.max32
  code_ascii : ∀ c ∈ h.code, c.toNat < 128

/-- The finding has the values of the reading; its message is trimmed. -/
structure Reading.Gives {line : List Char} (r : Reading line) (f : Finding) : Prop where
  line : f.line.toNat = Number.ofDigits r.header.line
  column : f.column.toNat = Number.ofDigits r.header.column
  code : f.code.chars = r.header.code
  message : f.message = String.ofList (trim r.message)

/-! ### Single parts -/

theorem takeWhile_append_stop {p : Char → Bool} {cs rest : List Char} (h : ∀ c ∈ cs, p c = true)
    (hrest : ∀ c ∈ rest.head?, p c = false) : (cs ++ rest).takeWhile p = cs := by
  rw [List.takeWhile_append_of_pos h]
  cases rest with
  | nil => exact List.append_nil cs
  | cons c rest => rw [List.takeWhile_cons_of_neg (by simp [hrest c rfl]), List.append_nil]

theorem dropWhile_append_stop {p : Char → Bool} {cs rest : List Char} (h : ∀ c ∈ cs, p c = true)
    (hrest : ∀ c ∈ rest.head?, p c = false) : (cs ++ rest).dropWhile p = rest := by
  rw [List.dropWhile_append_of_pos h]
  cases rest with
  | nil => rfl
  | cons c rest => exact List.dropWhile_cons_of_neg (by simp [hrest c rfl])

theorem head?_dropWhile_stop (p : Char → Bool) (cs : List Char) :
    ∀ c ∈ (cs.dropWhile p).head?, p c = false := by
  intro c hc
  simpa [Option.mem_def.mp hc] using List.head?_dropWhile_not p cs

theorem number?_eq_some_iff {cs digits rest : List Char} :
    number? cs = some (digits, rest) ↔
      IsNumber digits ∧ cs = ':' :: (digits ++ rest) ∧ ∀ c ∈ rest.head?, isDigit c = false := by
  constructor
  · intro h
    unfold number? at h
    split at h
    · rename_i cs
      split at h
      · cases h
      · rename_i hne
        cases h
        refine ⟨⟨fun hnil => hne hnil, ?_⟩, ?_, head?_dropWhile_stop _ _⟩
        · exact List.all_eq_true.mp List.all_takeWhile
        · rw [List.takeWhile_append_dropWhile]
    · cases h
  · rintro ⟨⟨hne, hd⟩, rfl, hr⟩
    simp only [number?]
    rw [takeWhile_append_stop hd hr, dropWhile_append_stop hd hr]
    cases digits with
    | nil => exact absurd rfl hne
    | cons => rfl

/-- The colon after a number is no digit, so the number ends where it stands. -/
theorem number?_before_colon {digits : List Char} (h : IsNumber digits) (rest : List Char) :
    number? (':' :: (digits ++ ':' :: rest)) = some (digits, ':' :: rest) := by
  refine number?_eq_some_iff.mpr ⟨h, rfl, ?_⟩
  intro c hc
  cases hc
  decide

theorem gap?_eq_some_iff {cs rest : List Char} :
    gap? cs = some rest ↔ ∃ gap, isBlank gap = true ∧ cs = ':' :: gap :: rest := by
  constructor
  · intro h
    unfold gap? at h
    split at h
    · rename_i gap cs
      split at h
      · rename_i hgap
        cases h
        exact ⟨gap, hgap, rfl⟩
      · cases h
    · cases h
  · rintro ⟨gap, hgap, rfl⟩
    exact if_pos hgap

theorem code?_eq_some_iff {cs code rest : List Char} :
    code? cs = some (code, rest) ↔ IsCode code ∧ cs = code ++ rest := by
  constructor
  · intro h
    unfold code? at h
    split at h
    · rename_i letter a b c d cs
      split at h
      · rename_i hcode
        cases h
        obtain ⟨hletter, hdigits⟩ := Bool.and_eq_true_iff.mp hcode
        exact ⟨⟨letter, a, b, c, d, rfl, hletter, hdigits⟩, rfl⟩
      · cases h
    · cases h
  · rintro ⟨⟨letter, a, b, c, d, rfl, hletter, hdigits⟩, rfl⟩
    exact if_pos (Bool.and_eq_true_iff.mpr ⟨hletter, hdigits⟩)

theorem message?_eq_some_iff {cs message : List Char} :
    message? cs = some message ↔
      message ≠ [] ∧ '\n' ∉ message ∧ ∃ after, AtFeed after ∧ cs = message ++ after := by
  constructor
  · intro h
    unfold message? at h
    split at h
    · cases h
    · rename_i hne
      cases h
      refine ⟨fun hnil => hne hnil, ?_, cs.dropWhile (· != '\n'), ?_, ?_⟩
      · intro hmem
        have := List.all_eq_true.mp List.all_takeWhile _ hmem
        simp at this
      · -- what is left starts with the character that stopped the message
        cases hdrop : cs.dropWhile (· != '\n') with
        | nil => exact .inl rfl
        | cons c rest =>
          have hstop : (c != '\n') = false :=
            head?_dropWhile_stop (· != '\n') cs c (by rw [hdrop]; rfl)
          have hc : c = '\n' := by simpa using hstop
          exact .inr ⟨rest, by rw [hc]⟩
      · exact List.takeWhile_append_dropWhile.symm
  · rintro ⟨hne, hfeed, after, hafter, rfl⟩
    have hinside : ∀ c ∈ message, (c != '\n') = true := by
      rintro c hc
      have : c ≠ '\n' := fun heq => hfeed (heq ▸ hc)
      simpa using this
    have hstop : ∀ c ∈ after.head?, (c != '\n') = false := by
      rcases hafter with rfl | ⟨rest, rfl⟩
      · intro c hc
        cases hc
      · intro c hc
        cases hc
        rfl
    unfold message?
    rw [takeWhile_append_stop hinside hstop]
    cases message with
    | nil => exact absurd rfl hne
    | cons => rfl

/-! ### The first fragment -/

/-- The fragment that a reading finds. -/
def Reading.fragment {line : List Char} (r : Reading line) : Fragment where
  line := r.header.line
  column := r.header.column
  code := r.header.code
  message := r.message

theorem Fragment.atStart?_eq_some_iff {cs : List Char} {fragment : Fragment} :
    atStart? cs = some fragment ↔ ∃ r : Reading cs, r.before = [] ∧ r.fragment = fragment := by
  constructor
  · intro h
    simp only [atStart?, Option.bind_eq_bind, Option.bind_eq_some_iff, Option.pure_def,
      Option.some.injEq, Prod.exists] at h
    obtain ⟨line, _, hline, column, _, hcolumn, _, hgap, code, _, hcode, _, hlast, message,
      hmessage, rfl⟩ := h
    -- from the front to the back, every scanner says what the text before it looked like
    obtain ⟨lineIs, rfl, -⟩ := number?_eq_some_iff.mp hline
    obtain ⟨columnIs, rfl, -⟩ := number?_eq_some_iff.mp hcolumn
    obtain ⟨gap, gapIs, rfl⟩ := gap?_eq_some_iff.mp hgap
    obtain ⟨codeIs, rfl⟩ := code?_eq_some_iff.mp hcode
    obtain ⟨lastGap, lastIs, rfl⟩ := gap?_eq_some_iff.mp hlast
    obtain ⟨hne, hfeed, after, hafter, rfl⟩ := message?_eq_some_iff.mp hmessage
    let header : Header :=
      ⟨line, column, gap, code, lastGap, lineIs, columnIs, gapIs, codeIs, lastIs⟩
    refine ⟨⟨[], header, message, after, hne, hfeed, hafter, ?_⟩, rfl, rfl⟩
    simp [header, Header.text]
  · rintro ⟨⟨before, h, message, after, hne, hfeed, hafter, rfl⟩, hbefore, rfl⟩
    cases hbefore
    -- no scanner stops early or late: colons end the numbers, and the rest has a fixed length
    have hline := number?_before_colon h.line_isNumber
    have hcolumn := number?_before_colon h.column_isNumber
    have hgap : ∀ rest, gap? (':' :: h.gap :: rest) = some rest :=
      fun rest => gap?_eq_some_iff.mpr ⟨h.gap, h.gap_isBlank, rfl⟩
    have hcode : ∀ rest, code? (h.code ++ rest) = some (h.code, rest) :=
      fun rest => code?_eq_some_iff.mpr ⟨h.code_isCode, rfl⟩
    have hlast : ∀ rest, gap? (':' :: h.lastGap :: rest) = some rest :=
      fun rest => gap?_eq_some_iff.mpr ⟨h.lastGap, h.lastGap_isBlank, rfl⟩
    have hmessage : message? (message ++ after) = some message :=
      message?_eq_some_iff.mpr ⟨hne, hfeed, after, hafter, rfl⟩
    simp [atStart?, Header.text, hline, hcolumn, hgap, hcode, hlast, hmessage, Reading.fragment]

/-- A reading of a line is one of the longer line, one character further to the back. -/
def Reading.cons {line : List Char} (c : Char) (r : Reading line) : Reading (c :: line) :=
  { r with
    before := c :: r.before
    line_eq := congrArg (c :: ·) r.line_eq }

/-- A reading that starts after the first character is one of the shorter line. -/
theorem Reading.exists_cons {line : List Char} {c : Char} (r : Reading (c :: line))
    (h : r.before ≠ []) : ∃ r' : Reading line, r'.cons c = r := by
  obtain ⟨before, header, message, after, hne, hfeed, hafter, heq⟩ := r
  cases before with
  | nil => exact absurd rfl h
  | cons b before =>
    obtain ⟨rfl, rfl⟩ := List.cons.inj heq
    exact ⟨⟨before, header, message, after, hne, hfeed, hafter, rfl⟩, rfl⟩

/--
The search finds the first reading. By induction on the line: a reading at its start is the first
one, and without one all readings are readings of what follows.
-/
theorem Fragment.first?_eq_some_iff {line : List Char} {fragment : Fragment} :
    first? line = some fragment ↔ ∃ r : Reading line, r.IsFirst ∧ r.fragment = fragment := by
  induction line with
  | nil =>
    constructor
    · intro h
      cases h
    · rintro ⟨r, -, -⟩
      have := congrArg List.length r.line_eq
      simp [Header.text] at this
  | cons c line ih =>
    unfold first?
    cases hstart : atStart? (c :: line) with
    | some start =>
      obtain ⟨s, hs, rfl⟩ := atStart?_eq_some_iff.mp hstart
      constructor
      · intro h
        cases h
        exact ⟨s, fun r' => by simp [hs], rfl⟩
      · rintro ⟨r, hfirst, rfl⟩
        have hr : r.before = [] := by
          have := hfirst s
          rw [hs] at this
          exact List.length_eq_zero_iff.mp (Nat.le_zero.mp this)
        exact hstart.symm.trans (atStart?_eq_some_iff.mpr ⟨r, hr, rfl⟩)
    | none =>
      -- so there are as many readings of the longer line as of the shorter one
      have hback : ∀ r : Reading (c :: line), r.before ≠ [] := by
        intro r hr
        have := atStart?_eq_some_iff.mpr ⟨r, hr, rfl⟩
        rw [hstart] at this
        cases this
      show first? line = some fragment ↔ _
      rw [ih]
      constructor
      · rintro ⟨r, hfirst, rfl⟩
        refine ⟨r.cons c, ?_, rfl⟩
        intro r'
        obtain ⟨r', rfl⟩ := r'.exists_cons (hback r')
        exact Nat.succ_le_succ (hfirst r')
      · rintro ⟨r, hfirst, rfl⟩
        obtain ⟨r, rfl⟩ := r.exists_cons (hback r)
        exact ⟨r, fun r' => Nat.le_of_succ_le_succ (hfirst (r'.cons c)), rfl⟩

/-! ### The checks -/

/-- The codes that are kept are the codes of headers that are all ASCII. -/
theorem isWritten_iff {code : List Char} :
    Code.IsWritten code = true ↔ IsCode code ∧ ∀ c ∈ code, c.toNat < 128 := by
  constructor
  · intro h
    unfold Code.IsWritten at h
    split at h
    · rename_i letter a b c d
      obtain ⟨hletter, hdigits⟩ := Bool.and_eq_true_iff.mp h
      have hdigit : ∀ x ∈ [a, b, c, d], isDigit x = true ∧ x.toNat < 128 :=
        fun x hx => isAsciiDigit_iff.mp (List.all_eq_true.mp hdigits x hx)
      refine ⟨⟨letter, a, b, c, d, rfl, hletter, ?_⟩, ?_⟩
      · exact List.all_eq_true.mpr fun x hx => (hdigit x hx).1
      · intro x hx
        rcases List.mem_cons.mp hx with rfl | hx
        · have hle : x ≤ 'Z' := of_decide_eq_true (Bool.and_eq_true_iff.mp hletter).2
          exact Nat.lt_of_le_of_lt hle (by decide)
        · exact (hdigit x hx).2
    · cases h
  · rintro ⟨⟨letter, a, b, c, d, rfl, hletter, hdigits⟩, hascii⟩
    refine Bool.and_eq_true_iff.mpr ⟨hletter, List.all_eq_true.mpr ?_⟩
    intro x hx
    have hdigit : isDigit x = true := List.all_eq_true.mp hdigits x hx
    exact isAsciiDigit_iff.mpr ⟨hdigit, hascii x (List.mem_cons_of_mem _ hx)⟩

/-- A fragment becomes a finding exactly when its header passes the checks. -/
theorem Reading.finding?_fragment_eq_some_iff {line : List Char} (r : Reading line) {f : Finding} :
    r.fragment.finding? = some f ↔ r.header.Passes ∧ r.Gives f := by
  simp only [Fragment.finding?, Option.bind_eq_bind, Option.bind_eq_some_iff,
    Number.word32?_eq_some_iff, Code.ofChars?_eq_some_iff, Finding.ofParts?_eq_some_iff]
  constructor
  · rintro ⟨lineNo, ⟨-, lineAscii, lineFits, lineEq⟩, column,
      ⟨-, columnAscii, columnFits, columnEq⟩, code, codeEq, rfl, rfl, rfl, messageEq⟩
    have hpos : f.line.toNat ≠ 0 :=
      fun h => f.line_ne_zero (UInt32.toNat_inj.mp (h.trans UInt32.toNat_zero.symm))
    have codeEq : f.code.chars = r.header.code := codeEq
    have codeAscii : ∀ c ∈ r.header.code, c.toNat < 128 :=
      codeEq ▸ (isWritten_iff.mp f.code.isWritten).2
    refine ⟨⟨lineAscii, lineFits, ?_, columnAscii, columnFits, codeAscii⟩,
      ⟨lineEq, columnEq, codeEq, messageEq⟩⟩
    exact Nat.one_le_iff_ne_zero.mpr (fun h => hpos (lineEq.trans h))
  · rintro ⟨passes, gives⟩
    exact ⟨f.line, ⟨r.header.line_isNumber.1, passes.line_ascii, passes.line_fits, gives.line⟩,
      f.column, ⟨r.header.column_isNumber.1, passes.column_ascii, passes.column_fits, gives.column⟩,
      f.code, gives.code, rfl, rfl, rfl, gives.message⟩

/-- A header that passes has a finding to give. -/
theorem Reading.exists_gives {line : List Char} {r : Reading line} (h : r.header.Passes) :
    ∃ f, r.Gives f := by
  have hline : (UInt32.ofNat (Number.ofDigits r.header.line)).toNat = _ :=
    UInt32.toNat_ofNat_of_lt (Nat.lt_succ_of_le h.line_fits)
  have hcolumn : (UInt32.ofNat (Number.ofDigits r.header.column)).toNat = _ :=
    UInt32.toNat_ofNat_of_lt (Nat.lt_succ_of_le h.column_fits)
  have hne : UInt32.ofNat (Number.ofDigits r.header.line) ≠ 0 := by
    intro hzero
    rw [hzero, UInt32.toNat_zero] at hline
    have hpos := h.line_pos
    omega
  exact ⟨⟨_, _, ⟨_, isWritten_iff.mpr ⟨r.header.code_isCode, h.code_ascii⟩⟩, _, hne⟩,
    ⟨hline, hcolumn, rfl, rfl⟩⟩

/-- The finding of a line is decided by its first reading. -/
theorem Reading.IsFirst.finding?_eq {line : List Char} {r : Reading line} (h : r.IsFirst) :
    finding? line = r.fragment.finding? := by
  have hfirst : Fragment.first? line = some r.fragment :=
    Fragment.first?_eq_some_iff.mpr ⟨r, h, rfl⟩
  rw [finding?, hfirst, Option.bind_some]

/--
A line holds exactly the findings of the grammar: the finding of the first reading, if its header
passes the checks. If it does not, then the line holds none, whatever other readings there are.
-/
theorem finding?_iff_reading (line : List Char) :
    (∀ f, finding? line = some f ↔
      ∃ r : Reading line, r.IsFirst ∧ r.header.Passes ∧ r.Gives f) ∧
    (∀ r : Reading line, r.IsFirst → (¬ r.header.Passes ↔ finding? line = none)) := by
  refine ⟨fun f => ?_, fun r hfirst => ?_⟩
  · constructor
    · intro h
      obtain ⟨fragment, hfragment, hfinding⟩ := Option.bind_eq_some_iff.mp h
      obtain ⟨r, hfirst, rfl⟩ := Fragment.first?_eq_some_iff.mp hfragment
      exact ⟨r, hfirst, r.finding?_fragment_eq_some_iff.mp hfinding⟩
    · rintro ⟨r, hfirst, hpassed⟩
      rw [hfirst.finding?_eq]
      exact r.finding?_fragment_eq_some_iff.mpr hpassed
  · rw [hfirst.finding?_eq]
    constructor
    · intro hfails
      refine Option.eq_none_iff_forall_ne_some.mpr fun f hf => ?_
      exact hfails (r.finding?_fragment_eq_some_iff.mp hf).1
    · intro hnone hpasses
      obtain ⟨f, hgives⟩ := r.exists_gives hpasses
      rw [r.finding?_fragment_eq_some_iff.mpr ⟨hpasses, hgives⟩] at hnone
      cases hnone

/-- The header `:0:2: E0001: `, which is well-formed and does not pass. -/
def zeroHeader : Header :=
  ⟨['0'], ['2'], ' ', ['E', '0', '0', '0', '1'], ' ', by decide, by decide, isBlank_space,
    ⟨'E', '0', '0', '0', '1', rfl, by decide, by decide⟩, isBlank_space⟩

/-- The zero line of the first header hides the second header, which would pass. -/
theorem finding?_none_of_zeroHeader :
    finding? (zeroHeader.text ++ ":7:2: E0002: m".toList) = none := by
  let r : Reading (zeroHeader.text ++ ":7:2: E0002: m".toList) :=
    ⟨[], zeroHeader, ":7:2: E0002: m".toList, [], by decide, by decide, .inl rfl, by decide⟩
  have hfails : ¬ r.header.Passes := fun h => absurd h.line_pos (by decide)
  exact ((finding?_iff_reading _).2 r (fun _ => Nat.zero_le _)).mp hfails

end SaveLint.Report
