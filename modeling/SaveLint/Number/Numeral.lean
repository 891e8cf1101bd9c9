import SaveLint.Text.Ascii

/-!
# Decimal numerals

Reading a natural number from ASCII digits. Leading zeros are allowed; signs, blanks and separators
are not.
-/

namespace SaveLint.Number

open SaveLint.Text

/-- The number that a sequence of ASCII digits denotes. -/
def ofDigits (cs : List Char) : Nat := cs.foldl (fun n c => 10 * n + digitValue c) 0

theorem isAsciiDigit_of_mem_toDigits {n : Nat} {c : Char} (h : c ∈ Nat.toDigits 10 n) :
    isAsciiDigit c = true := by
  have hdigit : c.isDigit = true := Nat.isDigit_of_mem_toDigits (by decide) (by decide) h
  exact hdigit

theorem ofDigits_toDigits (n : Nat) : ofDigits (Nat.toDigits 10 n) = n := by
  have h : Nat.ofDigitChars 10 (Nat.toDigits 10 n) 0 = n :=
    Nat.ofDigitChars_toDigits (by decide) (by decide)
  rw [Nat.ofDigitChars_eq_foldl] at h
  exact h

def natural? (cs : List Char) : Option Nat :=
  if cs.isEmpty || !cs.all isAsciiDigit then none else some (ofDigits cs)

def naturalUpTo? (bound : Nat) (cs : List Char) : Option Nat :=
  (natural? cs).filter (· ≤ bound)

def max32 : Nat := 0xFFFFFFFF

def max64 : Nat := 0xFFFFFFFFFFFFFFFF

def word32? (cs : List Char) : Option UInt32 := (naturalUpTo? max32 cs).map UInt32.ofNat

/-- Reads a numeral that fits in 64 bits; one plus sign may stand in front. -/
def unsigned64? (cs : List Char) : Option Nat :=
  match cs with
  | '+' :: digits => naturalUpTo? max64 digits
  | digits => naturalUpTo? max64 digits

theorem natural?_eq_some_iff {cs : List Char} {n : Nat} :
    natural? cs = some n ↔ cs ≠ [] ∧ (∀ c ∈ cs, isAsciiDigit c = true) ∧ n = ofDigits cs := by
  unfold natural?
  split
  · rename_i h
    constructor
    · intro h'
      cases h'
    · rintro ⟨hne, hdigits, -⟩
      have : cs.all isAsciiDigit = true := List.all_eq_true.mpr hdigits
      simp [hne, this] at h
  · rename_i h
    simp only [Bool.or_eq_true, List.isEmpty_iff, Bool.not_eq_true', not_or,
      Bool.not_eq_false, List.all_eq_true] at h
    rw [Option.some.injEq]
    exact ⟨fun h' => ⟨h.1, h.2, h'.symm⟩, fun h' => h'.2.2.symm⟩

theorem word32?_eq_some_iff {cs : List Char} {n : UInt32} :
    word32? cs = some n ↔ cs ≠ [] ∧ (∀ c ∈ cs, isAsciiDigit c = true) ∧
      ofDigits cs ≤ max32 ∧ n.toNat = ofDigits cs := by
  simp only [word32?, naturalUpTo?, Option.map_eq_some_iff, Option.filter_eq_some_iff,
    natural?_eq_some_iff]
  constructor
  · rintro ⟨m, ⟨⟨hne, hdigits, rfl⟩, hle⟩, rfl⟩
    have hle : ofDigits cs ≤ max32 := of_decide_eq_true hle
    exact ⟨hne, hdigits, hle, UInt32.toNat_ofNat_of_lt (Nat.lt_succ_of_le hle)⟩
  · rintro ⟨hne, hdigits, hle, hn⟩
    refine ⟨ofDigits cs, ⟨⟨hne, hdigits, rfl⟩, decide_eq_true hle⟩, ?_⟩
    rw [← hn, UInt32.ofNat_toNat]

example : natural? ['0', '7'] = some 7 ∧ natural? [] = none ∧ natural? ['+', '7'] = none := by decide

end SaveLint.Number
