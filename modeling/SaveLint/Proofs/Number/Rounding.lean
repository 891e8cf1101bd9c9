import Mathlib.Algebra.Order.Field.Power
import Mathlib.Algebra.Order.Field.Rat
import Mathlib.Tactic.FieldSimp
import Mathlib.Tactic.Linarith
import Mathlib.Tactic.NormNum
import Mathlib.Tactic.Positivity
import Mathlib.Tactic.Ring
import SaveLint.Number.Decimal

/-!
# Rounding to 64 bits

A finite number has an exact rational value (`Binary64.value`). A quotient is rounded by choosing an
exponent, which is a unit, and then the nearest whole number of units. What the rest of the theory
needs of that is `Binary64.IsRounding`: the number of units has at most 53 bits, it is at most half
a unit too large, and it never falls below a whole number that the quotient reaches. In particular
rounding does not pass a power of two, neither up nor down (`IsRounding.two_pow_le`).

The nearest whole number itself is said without the unit, by its distance and by what happens halfway
(`IsNearest`); there is only one (`IsNearest.unique`).

Numbers that were read from a text have 53 bits as well (`fits_of_binary64?`).
-/

namespace SaveLint.Number

/-! ### Whole numbers -/

theorem le_roundRatio {k num den : Nat} (hden : 0 < den) (h : k * den ≤ num) :
    k ≤ roundRatio num den := by
  have hdiv : k ≤ num / den := (Nat.le_div_iff_mul_le hden).mpr h
  unfold roundRatio
  dsimp only
  split
  · exact hdiv
  · split
    · omega
    · split <;> omega

theorem roundRatio_le {k num den : Nat} (hden : 0 < den) (h : num ≤ k * den) :
    roundRatio num den ≤ k := by
  have hdiv : num / den ≤ k := Nat.div_le_of_le_mul (Nat.mul_comm k den ▸ h)
  -- A rest is left only if the bound is not reached yet.
  have hrest : num % den ≠ 0 → num / den < k := by
    intro hmod
    have hsplit := Nat.div_add_mod' num den
    exact Nat.lt_of_mul_lt_mul_right (a := den) (by omega)
  unfold roundRatio
  dsimp only
  split
  · exact hdiv
  · have hlt := hrest (by omega)
    split
    · exact hlt
    · split <;> omega

/-- The rounded quotient is at most half a unit away, and exactly half a unit only if it is even. -/
theorem roundRatio_spec (num : Nat) {den : Nat} (hden : 0 < den) :
    2 * num ≤ 2 * (roundRatio num den * den) + den ∧
      2 * (roundRatio num den * den) ≤ 2 * num + den ∧
      (2 * num = 2 * (roundRatio num den * den) + den ∨
        2 * (roundRatio num den * den) = 2 * num + den → roundRatio num den % 2 = 0) := by
  have hsplit := Nat.div_add_mod' num den
  have hrest := Nat.mod_lt num hden
  have hup : (num / den + 1) * den = num / den * den + den := Nat.succ_mul _ _
  unfold roundRatio
  dsimp only
  split
  · omega
  · split
    · omega
    · split <;> omega

/-- The whole number nearest to a quotient; halfway between two, the even one. -/
structure IsNearest (q : ℚ) (n : Nat) : Prop where
  near : |q - n| ≤ 1 / 2
  even_of_tie : |q - n| = 1 / 2 → n % 2 = 0

theorem isNearest_roundRatio (num : Nat) {den : Nat} (hden : 0 < den) :
    IsNearest (num / den) (roundRatio num den) := by
  have hden' : (0 : ℚ) < den := by exact_mod_cast hden
  obtain ⟨hlow, hhigh, htie⟩ := roundRatio_spec num hden
  have hlow' : (2 : ℚ) * num ≤ 2 * (roundRatio num den * den) + den := by exact_mod_cast hlow
  have hhigh' : (2 : ℚ) * (roundRatio num den * den) ≤ 2 * num + den := by exact_mod_cast hhigh
  have hdiff : (num : ℚ) / den - roundRatio num den = (num - roundRatio num den * den) / den := by
    field_simp
  have habs : |(num : ℚ) / den - roundRatio num den| =
      |(num : ℚ) - roundRatio num den * den| / den := by
    rw [hdiff, abs_div, abs_of_pos hden']
  constructor
  · rw [habs, div_le_iff₀ hden', abs_le]
    constructor <;> linarith
  · rw [habs, div_eq_iff hden'.ne']
    intro h
    apply htie
    rcases abs_eq (by positivity) |>.mp h with h | h
    · left
      have : (2 : ℚ) * num = 2 * (roundRatio num den * den) + den := by linarith
      exact_mod_cast this
    · right
      have : (2 : ℚ) * (roundRatio num den * den) = 2 * num + den := by linarith
      exact_mod_cast this

theorem IsNearest.unique {q : ℚ} {m n : Nat} (hm : IsNearest q m) (hn : IsNearest q n) : m = n := by
  wlog hle : m ≤ n
  · exact (this hn hm (by omega)).symm
  by_contra hne
  have hstep : (m : ℚ) + 1 ≤ n := by exact_mod_cast Nat.lt_of_le_of_ne hle hne
  obtain ⟨-, hup⟩ := abs_le.mp hm.near
  obtain ⟨hdown, -⟩ := abs_le.mp hn.near
  -- Both are half a unit away, one on each side, and they are neighbours.
  have hm' : q - m = 1 / 2 := by linarith
  have hn' : q - n = -(1 / 2) := by linarith
  have hsucc : (n : ℚ) = m + 1 := by linarith
  have hsucc' : n = m + 1 := by exact_mod_cast hsucc
  have hmEven := hm.even_of_tie (by rw [hm', abs_of_pos (by norm_num)])
  have hnEven := hn.even_of_tie (by rw [hn', abs_neg, abs_of_pos (by norm_num)])
  omega

namespace Binary64

/-! ### Exact values -/

/-- The exact value of a number; one that is not finite counts as zero. -/
def value : Binary64 → ℚ
  | nan => 0
  | infinite _ => 0
  | finite negative mantissa exponent =>
    (if negative then -1 else 1) * (mantissa * 2 ^ exponent)

theorem isPositive_iff {x : Binary64} : x.isPositive = true ↔ 0 < x.value := by
  cases x with
  | nan => exact iff_of_false nofun (lt_irrefl 0)
  | infinite s => exact iff_of_false (by simp [isPositive]) (lt_irrefl 0)
  | finite s m e =>
    have hunit : (0 : ℚ) < 2 ^ e := by positivity
    have hnonneg : (0 : ℚ) ≤ m * 2 ^ e := by positivity
    cases s with
    | true =>
      refine iff_of_false (by simp [isPositive]) (not_lt_of_ge ?_)
      simp only [value, if_true]
      linarith
    | false => simp [isPositive, value, hunit, Nat.pos_iff_ne_zero]

theorem two_pow_toNat {e : Int} (h : 0 ≤ e) : (2 : ℚ) ^ e.toNat = 2 ^ e := by
  rw [← zpow_natCast, Int.toNat_of_nonneg h]

/-- Scaling a quotient down divides it by the power of two. -/
theorem scaleDown_spec (num : Nat) {den : Nat} (hden : 0 < den) (e : Int) :
    0 < (scaleDown num den e).2 ∧
      ((scaleDown num den e).1 : ℚ) / (scaleDown num den e).2 = num / den / 2 ^ e := by
  unfold scaleDown
  split
  · rename_i h
    refine ⟨Nat.mul_pos hden (Nat.two_pow_pos _), ?_⟩
    rw [Nat.pow_eq, Nat.cast_mul, Nat.cast_pow, Nat.cast_ofNat, two_pow_toNat h, div_div]
  · rename_i h
    refine ⟨hden, ?_⟩
    rw [Nat.pow_eq, Nat.cast_mul, Nat.cast_pow, Nat.cast_ofNat, two_pow_toNat (by omega), zpow_neg]
    field_simp

theorem ratio_spec (m : Nat) (e : Int) :
    0 < (ratio m e).2 ∧ ((ratio m e).1 : ℚ) / (ratio m e).2 = m * 2 ^ e := by
  obtain ⟨hpos, hvalue⟩ := scaleDown_spec m Nat.one_pos (-e)
  refine ⟨hpos, hvalue.trans ?_⟩
  rw [zpow_neg, Nat.cast_one]
  field_simp

/-- A positive quotient lies between two neighbouring powers of two. -/
theorem floorLog_spec {num den : Nat} (hnum : 0 < num) (hden : 0 < den) :
    (2 : ℚ) ^ floorLog num den ≤ num / den ∧ (num : ℚ) / den < 2 ^ (floorLog num den + 1) := by
  have hden' : (0 : ℚ) < den := by exact_mod_cast hden
  have hnumLe : (2 : ℚ) ^ num.log2 ≤ num := by exact_mod_cast Nat.log2_self_le hnum.ne'
  have hnumLt : (num : ℚ) < 2 ^ (num.log2 + 1) := by exact_mod_cast Nat.lt_log2_self
  have hdenLe : (2 : ℚ) ^ den.log2 ≤ den := by exact_mod_cast Nat.log2_self_le hden.ne'
  have hdenLt : (den : ℚ) < 2 ^ (den.log2 + 1) := by exact_mod_cast Nat.lt_log2_self
  have hlow : (2 : ℚ) ^ ((num.log2 : Int) - den.log2 - 1) ≤ num / den := by
    rw [le_div_iff₀ hden']
    calc (2 : ℚ) ^ ((num.log2 : Int) - den.log2 - 1) * den
      _ ≤ 2 ^ ((num.log2 : Int) - den.log2 - 1) * 2 ^ ((den.log2 + 1 : Nat) : Int) := by
          rw [zpow_natCast]
          gcongr
      _ = 2 ^ num.log2 := by
          rw [← zpow_add₀ two_ne_zero, ← zpow_natCast]
          congr 1
          omega
      _ ≤ num := hnumLe
  have hhigh : (num : ℚ) / den < 2 ^ ((num.log2 : Int) - den.log2 + 1) := by
    rw [div_lt_iff₀ hden']
    calc (num : ℚ) < 2 ^ (num.log2 + 1) := hnumLt
      _ = 2 ^ ((num.log2 : Int) - den.log2 + 1) * 2 ^ (den.log2 : Int) := by
          rw [← zpow_add₀ two_ne_zero, ← zpow_natCast]
          congr 1
          omega
      _ ≤ 2 ^ ((num.log2 : Int) - den.log2 + 1) * den := by
          rw [zpow_natCast]
          gcongr
  -- The quotient, scaled down, tells on which side of the power in the middle it lies.
  obtain ⟨hpos, hscaled⟩ := scaleDown_spec num hden ((num.log2 : Int) - den.log2)
  have hmiddle : (scaleDown num den ((num.log2 : Int) - den.log2)).2 ≤
      (scaleDown num den ((num.log2 : Int) - den.log2)).1 ↔
        (2 : ℚ) ^ ((num.log2 : Int) - den.log2) ≤ num / den := by
    rw [← Nat.cast_le (α := ℚ), ← one_le_div (by exact_mod_cast hpos), hscaled,
      one_le_div (by positivity)]
  unfold floorLog
  dsimp only
  split
  · rename_i h
    exact ⟨hmiddle.mp h, hhigh⟩
  · rename_i h
    rw [sub_add_cancel]
    exact ⟨hlow, lt_of_not_ge (mt hmiddle.mpr h)⟩

/-! ### Rounding -/

/-- A positive quotient is rounded to a mantissa and an exponent. -/
structure IsRounding (q : ℚ) (mantissa : Nat) (exponent : Int) : Prop where
  bits : mantissa ≤ 2 ^ 53
  /-- The result is at most half a unit too large. -/
  near : (mantissa : ℚ) * 2 ^ exponent ≤ q + 2 ^ exponent / 2
  /-- A whole number of units that the quotient reaches is reached by the result. -/
  reaches : ∀ k : Nat, (k : ℚ) * 2 ^ exponent ≤ q → k ≤ mantissa
  bounded : q < 2 ^ (exponent + 53)
  /-- The unit is as small as 53 bits allow, but for the smallest one. -/
  normal : exponent = minExponent ∨ minExponent < exponent ∧ 2 ^ (exponent + 52) ≤ q

theorem ofRatio_spec (negative : Bool) {num den : Nat} (hnum : 0 < num) (hden : 0 < den) :
    ∃ m e, IsRounding ((num : ℚ) / den) m e ∧
      (ofRatio negative num den = finite negative m e ∨
        maxExponent ≤ e ∧ ofRatio negative num den = infinite negative) := by
  obtain ⟨hlow, hhigh⟩ := floorLog_spec hnum hden
  obtain ⟨hpos, hscaled⟩ := scaleDown_spec num hden (max (floorLog num den - 52) minExponent)
  generalize he : max (floorLog num den - 52) minExponent = e at hpos hscaled
  have hden' : (0 : ℚ) < (scaleDown num den e).2 := by exact_mod_cast hpos
  have hunit : (0 : ℚ) < 2 ^ e := by positivity
  have hq : (num : ℚ) / den = (scaleDown num den e).1 / (scaleDown num den e).2 * 2 ^ e := by
    rw [hscaled]
    field_simp
  -- Whole numbers of units are compared with the quotient by the scaled numerator.
  have hle (k : Nat) : (k : ℚ) * 2 ^ e ≤ num / den ↔
      k * (scaleDown num den e).2 ≤ (scaleDown num den e).1 := by
    rw [hq, mul_le_mul_iff_left₀ hunit, le_div_iff₀ hden']
    exact_mod_cast Iff.rfl
  have hbounded : (num : ℚ) / den < 2 ^ (e + 53) :=
    hhigh.trans_le (zpow_le_zpow_right₀ one_le_two (by omega))
  refine ⟨roundRatio (scaleDown num den e).1 (scaleDown num den e).2, e, ?_, ?_⟩
  · constructor
    case bits =>
      refine roundRatio_le hpos (Nat.le_of_not_le fun h => ?_)
      have hreached := (hle (2 ^ 53)).mpr h
      rw [Nat.cast_pow, Nat.cast_ofNat, ← zpow_natCast, ← zpow_add₀ two_ne_zero, Nat.cast_ofNat,
        add_comm] at hreached
      exact absurd hbounded (not_lt_of_ge hreached)
    case near =>
      obtain ⟨-, hnear, -⟩ := roundRatio_spec (scaleDown num den e).1 hpos
      have hnear' : (2 : ℚ) * (roundRatio (scaleDown num den e).1 (scaleDown num den e).2 *
          (scaleDown num den e).2) ≤ 2 * (scaleDown num den e).1 + (scaleDown num den e).2 := by
        exact_mod_cast hnear
      have hunits : (roundRatio (scaleDown num den e).1 (scaleDown num den e).2 : ℚ) ≤
          (scaleDown num den e).1 / (scaleDown num den e).2 + 1 / 2 := by
        rw [div_add' _ _ _ hden'.ne', le_div_iff₀ hden']
        linarith
      calc _ ≤ ((scaleDown num den e).1 / (scaleDown num den e).2 + 1 / 2 : ℚ) * 2 ^ e :=
            mul_le_mul_of_nonneg_right hunits hunit.le
        _ = num / den + 2 ^ e / 2 := by rw [hq]; ring
    case reaches =>
      intro k hk
      exact le_roundRatio hpos ((hle k).mp hk)
    case bounded => exact hbounded
    case normal =>
      rcases le_or_gt (floorLog num den - 52) minExponent with hmin | hmin
      · exact Or.inl (by omega)
      · have hexp : e + 52 = floorLog num den := by omega
        exact Or.inr ⟨by omega, hexp ▸ hlow⟩
  · simp only [ofRatio, if_neg hnum.ne', he]
    split
    · rename_i hover
      refine Or.inr ⟨?_, rfl⟩
      rw [Bool.or_eq_true, Bool.and_eq_true, decide_eq_true_eq, decide_eq_true_eq] at hover
      omega
    · exact Or.inl rfl

/-- Rounding does not fall below a power of two. -/
theorem IsRounding.two_pow_le {q : ℚ} {m : Nat} {e k : Int} (h : IsRounding q m e)
    (hmin : minExponent ≤ k) (hk : (2 : ℚ) ^ k ≤ q) : (2 : ℚ) ^ k ≤ m * 2 ^ e := by
  have hunit : (0 : ℚ) < 2 ^ e := by positivity
  by_cases hle : e ≤ k
  · -- The power is a whole number of units.
    have hsplit : (2 : ℚ) ^ k = ((2 ^ (k - e).toNat : Nat) : ℚ) * 2 ^ e := by
      rw [Nat.cast_pow, Nat.cast_ofNat, two_pow_toNat (by omega), ← zpow_add₀ two_ne_zero,
        sub_add_cancel]
    have hreached : 2 ^ (k - e).toNat ≤ m := h.reaches _ (hsplit ▸ hk)
    rw [hsplit]
    gcongr
  · -- One unit is already more, and there is one.
    obtain ⟨-, hnormal⟩ := h.normal.resolve_left (by omega)
    have hone : 1 ≤ m := by
      refine h.reaches 1 (le_trans ?_ hnormal)
      rw [Nat.cast_one, one_mul]
      exact zpow_le_zpow_right₀ one_le_two (by omega)
    calc (2 : ℚ) ^ k ≤ 2 ^ e := zpow_le_zpow_right₀ one_le_two (by omega)
      _ = (1 : Nat) * 2 ^ e := by rw [Nat.cast_one, one_mul]
      _ ≤ m * 2 ^ e := by gcongr

/-! ### Numbers of the format -/

/-- Whether the mantissa has at most 53 bits, or is the next power of two. -/
def Fits : Binary64 → Prop
  | nan => True
  | infinite _ => True
  | finite _ m _ => m ≤ 2 ^ 53

theorem fits_ofRatio (negative : Bool) (num : Nat) {den : Nat} (hden : 0 < den) :
    (ofRatio negative num den).Fits := by
  rcases Nat.eq_zero_or_pos num with rfl | hnum
  · exact Nat.zero_le _
  · obtain ⟨m, e, hround, hfinite | ⟨-, hinfinite⟩⟩ := ofRatio_spec negative hnum hden
    · rw [hfinite]
      exact hround.bits
    · rw [hinfinite]
      trivial

end Binary64

theorem Decimal.fits_toBinary64 (negative : Bool) (d : Decimal) : (d.toBinary64 negative).Fits := by
  unfold Decimal.toBinary64
  dsimp only
  split
  · exact Nat.zero_le _
  · split
    · trivial
    · split
      · exact Nat.zero_le _
      · split
        · exact Binary64.fits_ofRatio _ _ Nat.one_pos
        · exact Binary64.fits_ofRatio _ _ (Nat.pow_pos (by decide))

theorem fits_of_unsignedBinary64? {negative : Bool} {cs : List Char} {x : Binary64}
    (h : unsignedBinary64? negative cs = some x) : x.Fits := by
  unfold unsignedBinary64? at h
  dsimp only at h
  split at h
  · cases h
    trivial
  · split at h
    · cases h
      trivial
    · obtain ⟨d, -, rfl⟩ := Option.map_eq_some_iff.mp h
      exact d.fits_toBinary64 negative

/-- A number that was read from a text is one of the format. -/
theorem fits_of_binary64? {cs : List Char} {x : Binary64} (h : binary64? cs = some x) :
    x.Fits := by
  unfold binary64? at h
  split at h <;> exact fits_of_unsignedBinary64? h

end SaveLint.Number
