import Mathlib.Algebra.Group.Nat.Even
import SaveLint.Llm.Retry

/-!
# The doubling of delays

Without a delay named by the server, the delay before a retry is half a second, doubled from retry
to retry, and never more than eight seconds. The delays are computed with floating-point numbers;
for the default policy all of them are powers of two, which the format holds exactly
(`ofRatio_two_pow`), until the power is infinite, and by then the limit has long been reached.
-/

namespace SaveLint

namespace Number

/-! ### Powers of two -/

/-- A quotient that is a whole number needs no rounding. -/
theorem roundRatio_mul (q : Nat) {d : Nat} (hd : 0 < d) : roundRatio (q * d) d = q := by
  unfold roundRatio
  simp [Nat.mul_div_cancel q hd, hd]

namespace Binary64

theorem scaleDown_two_pow (x y : Nat) (e : Int) :
    scaleDown (2 ^ x) (2 ^ y) e = (2 ^ (x + (-e).toNat), 2 ^ (y + e.toNat)) := by
  unfold scaleDown
  split
  · rename_i h
    have hneg : (-e).toNat = 0 := by omega
    rw [hneg, Nat.add_zero, pow_add 2 y]
    rfl
  · rename_i h
    have hpos : e.toNat = 0 := by omega
    rw [hpos, Nat.add_zero, pow_add 2 x]
    rfl

theorem floorLog_two_pow (x y : Nat) : floorLog (2 ^ x) (2 ^ y) = (x : Int) - y := by
  -- Scaled down by the difference of the exponents the quotient is one.
  have hone : y + ((x : Int) - y).toNat = x + (-((x : Int) - y)).toNat := by omega
  simp only [floorLog, Nat.log2_two_pow, scaleDown_two_pow, hone]
  exact if_pos (Nat.le_refl _)

/-- A power of two that is neither too small nor too large is a number of the format. -/
theorem ofRatio_two_pow {x y : Nat} (hmin : minExponent + 52 ≤ (x : Int) - y)
    (hmax : (x : Int) - y ≤ maxExponent + 52) :
    ofRatio false (2 ^ x) (2 ^ y) = finite false (2 ^ 52) ((x : Int) - y - 52) := by
  have hpos : 2 ^ x ≠ 0 := Nat.pos_iff_ne_zero.mp (Nat.two_pow_pos x)
  have hexp : max ((x : Int) - y - 52) minExponent = (x : Int) - y - 52 := by omega
  have hsplit : x + (-((x : Int) - y - 52)).toNat = 52 + (y + ((x : Int) - y - 52).toNat) := by
    omega
  have hround : roundRatio (2 ^ (x + (-((x : Int) - y - 52)).toNat))
      (2 ^ (y + ((x : Int) - y - 52).toNat)) = 2 ^ 52 := by
    rw [hsplit, pow_add 2 52]
    exact roundRatio_mul _ (Nat.two_pow_pos _)
  simp only [ofRatio, if_neg hpos, floorLog_two_pow, hexp, scaleDown_two_pow, hround]
  rw [if_neg]
  -- The mantissa has 53 bits, so the largest exponent is no overflow either.
  rintro hover
  simp at hover
  omega

theorem ratio_two_pow (e : Int) : ratio (2 ^ 52) e = (2 ^ (52 + e.toNat), 2 ^ (-e).toNat) := by
  have h := scaleDown_two_pow 52 0 (-e)
  rw [Int.neg_neg, Nat.zero_add] at h
  exact h

theorem ofDyadic_two_pow {e : Int} (hmin : minExponent ≤ e) (hmax : e ≤ maxExponent) :
    ofDyadic false (2 ^ 52) e = finite false (2 ^ 52) e := by
  have hdiff : ((52 + e.toNat : Nat) : Int) - ((-e).toNat : Nat) = e + 52 := by omega
  show ofRatio false (ratio (2 ^ 52) e).1 (ratio (2 ^ 52) e).2 = _
  rw [ratio_two_pow, ofRatio_two_pow (by omega) (by omega), hdiff]
  congr 1
  omega

theorem lt_two_pow (e f : Int) :
    lt (finite false (2 ^ 52) e) (finite false (2 ^ 52) f) = decide (e < f) := by
  have hcross : 2 ^ (52 + e.toNat) * 2 ^ (-f).toNat < 2 ^ (52 + f.toNat) * 2 ^ (-e).toNat ↔
      e < f := by
    rw [← pow_add, ← pow_add, Nat.pow_lt_pow_iff_right (by decide)]
    omega
  simp only [lt, ratio_two_pow]
  exact decide_eq_decide.mpr hcross

end Binary64

end Number

open Number

namespace Llm

/-! ### The delays of the default policy -/

theorem toBinary64_half :
    (Duration.ofParts 0 500000000).toBinary64 = .finite false (2 ^ 52) (-53) := by
  have hnanos : Binary64.ofNat (Duration.ofParts 0 500000000).nanos =
      .finite false 8388608000000000 (-24) := rfl
  have hrest : (Binary64.finite false 8388608000000000 (-24)).divNat Duration.perSecond =
      .finite false (2 ^ 52) (-53) := rfl
  rw [Duration.toBinary64, hnanos, hrest]
  rfl

theorem toBinary64_eight : (Duration.ofSeconds 8).toBinary64 = .finite false (2 ^ 52) (-49) := rfl

/-- Half a second, doubled as often as a retry demands. -/
def doubledHalf (n : Nat) : Binary64 :=
  ((Duration.ofParts 0 500000000).toBinary64).mul (Binary64.twoPow n)

theorem doubledHalf_of_lt {n : Nat} (h : n < 1024) :
    doubledHalf n = .finite false (2 ^ 52) (-53 + n) := by
  have hpow : Binary64.twoPow n = .finite false 1 n := by
    unfold Binary64.twoPow
    rw [if_neg (by omega), if_neg (by omega)]
  rw [doubledHalf, toBinary64_half, hpow]
  apply Binary64.ofDyadic_two_pow
  · show (-1074 : Int) ≤ -53 + n
    omega
  · show (-53 + n : Int) ≤ 971
    omega

theorem doubledHalf_of_le {n : Nat} (h : 1024 ≤ n) : doubledHalf n = .infinite false := by
  have hpow : Binary64.twoPow n = .infinite false := by
    unfold Binary64.twoPow
    rw [if_pos (by omega)]
  rw [doubledHalf, toBinary64_half, hpow]
  rfl

/-- From the fifth doubling on the limit is the smaller one. -/
theorem least_doubledHalf {n : Nat} (h : 5 ≤ n) :
    (doubledHalf n).least (Duration.ofSeconds 8).toBinary64 =
      (Duration.ofSeconds 8).toBinary64 := by
  rw [toBinary64_eight]
  by_cases hn : n < 1024
  · have hlt : Binary64.lt (.finite false (2 ^ 52) (-49)) (.finite false (2 ^ 52) (-53 + n)) =
        true := by
      rw [Binary64.lt_two_pow]
      exact decide_eq_true (by omega)
    rw [doubledHalf_of_lt hn]
    simp only [Binary64.least, hlt]
    rfl
  · rw [doubledHalf_of_le (Nat.le_of_not_lt hn)]
    rfl

/-- The delay before a retry for which the server names none. -/
def doubled (n : Nat) : Duration := ⟨min (500000000 * 2 ^ n) 8000000000⟩

/-- The numbers of retries below `2 ^ 31` are not negative as signed numbers. -/
theorem doublings_ofNat {n : Nat} (h : n < 2 ^ 31) : doublings (UInt32.ofNat n) = n := by
  have hn : (UInt32.ofNat n).toNat = n := UInt32.toNat_ofNat_of_lt (Nat.lt_trans h (by decide))
  unfold doublings
  rw [hn]
  exact if_pos h

/-- The delays of the default policy: half a second, doubled, and at most eight seconds. -/
theorem backoff_default (retries : Nat) {n : Nat} (h : n < 2 ^ 31) :
    ({ maxRetries := retries } : RetryPolicy).backoff (UInt32.ofNat n) = .ok (doubled n) := by
  have hdelay : ({ maxRetries := retries } : RetryPolicy).backoff (UInt32.ofNat n) =
      Duration.ofBinary64 ((doubledHalf n).least (Duration.ofSeconds 8).toBinary64) := by
    rw [RetryPolicy.backoff, doublings_ofNat h]
    rfl
  rw [hdelay]
  by_cases hn : 5 ≤ n
  · rw [least_doubledHalf hn, toBinary64_eight]
    have hlong : 2 ^ 5 ≤ 2 ^ n := Nat.pow_le_pow_right (by decide) hn
    have hmin : min (500000000 * 2 ^ n) 8000000000 = 8000000000 := by omega
    rw [doubled, hmin]
    rfl
  · -- The first five delays are below the limit or equal to it.
    have hcases : n = 0 ∨ n = 1 ∨ n = 2 ∨ n = 3 ∨ n = 4 := by omega
    rw [toBinary64_eight, doubledHalf_of_lt (by omega)]
    rcases hcases with rfl | rfl | rfl | rfl | rfl <;> rfl

end Llm

end SaveLint
