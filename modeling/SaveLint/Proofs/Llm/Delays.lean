import SaveLint.Llm.Client
import SaveLint.Proofs.Llm.Backoff
import SaveLint.Proofs.Number.Rounding

/-!
# Delays that no duration holds

A delay in milliseconds is divided by a thousand and made a duration before anyone looks whether it
is shorter than a minute. A number of `2 ^ 64` seconds or more is no duration, and it stops the
program. This is the only way in which the headers of a response can do so
(`delay_fault_iff_tooLong`): the quotient is rounded, but no number of milliseconds below that limit
is rounded up to it (`ofBinary64_thousandth_iff`), and the delays of the policy itself are never
longer than its own limit (`RetryPolicy.exists_backoff`).
-/

namespace SaveLint

open Number

/-! ### Durations of numbers -/

namespace Duration

theorem ofBinary64_fault {x : Binary64} {fault : Fault} (h : ofBinary64 x = .error fault) :
    fault = .delayOutOfRange := by
  unfold ofBinary64 at h
  split at h
  · dsimp only at h
    split at h
    · cases h
    · exact (Except.error.inj h).symm
  · exact (Except.error.inj h).symm

/-- A number of seconds is a duration if it is below `2 ^ 64`; its sign is not looked at. -/
theorem ofBinary64_finite_iff {negative : Bool} {m : Nat} {e : Int} :
    (∃ d, ofBinary64 (.finite negative m e) = .ok d) ↔ (m : ℚ) * 2 ^ e < 2 ^ 64 := by
  obtain ⟨hpos, hratio⟩ := Binary64.ratio_spec m e
  have hpos' : (0 : ℚ) < (Binary64.ratio m e).2 := by exact_mod_cast hpos
  have hlt : (Binary64.ratio m e).1 < Nat.pow 2 64 * (Binary64.ratio m e).2 ↔
      (m : ℚ) * 2 ^ e < 2 ^ 64 := by
    rw [← hratio, div_lt_iff₀ hpos']
    exact_mod_cast Iff.rfl
  rw [← hlt]
  unfold ofBinary64
  dsimp only
  split
  · rename_i h
    exact iff_of_true ⟨_, rfl⟩ h
  · rename_i h
    exact iff_of_false nofun h

end Duration

/-! ### Thousandths -/

namespace Number.Binary64

/--
The thousandth of a number below `1000 * 2 ^ 64` is not rounded up to `2 ^ 64`. Only the last
thousandths before that power of two would be, and a number with 53 bits has no room for them.
-/
theorem IsRounding.lt_of_thousandth {m r : Nat} {f e : Int} (hbits : m ≤ 2 ^ 53)
    (h : IsRounding ((m : ℚ) * 2 ^ f / 1000) r e) (hlt : (m : ℚ) * 2 ^ f < 1000 * 2 ^ 64) :
    (r : ℚ) * 2 ^ e < 2 ^ 64 := by
  by_contra hnot
  have hge : (2 : ℚ) ^ 64 ≤ r * 2 ^ e := not_lt.mp hnot
  have hr : (r : ℚ) ≤ 2 ^ 53 := by exact_mod_cast h.bits
  have hm : (m : ℚ) ≤ 2 ^ 53 := by exact_mod_cast hbits
  -- With 53 bits the unit is at least `2 ^ 11`, and the quotient does not allow a larger one.
  have hlow : 11 ≤ e := by
    by_contra he
    have hsmall : (r : ℚ) * 2 ^ e ≤ 2 ^ 53 * 2 ^ (10 : Int) := by
      gcongr
      · exact one_le_two
      · omega
    norm_num at hsmall hge
    linarith
  have hhigh : e < 12 := by
    obtain ⟨-, hnormal⟩ := h.normal.resolve_left (by simp only [minExponent]; omega)
    have hpow : (2 : ℚ) ^ (e + 52) < 2 ^ (64 : Int) := by
      rw [show (2 : ℚ) ^ (64 : Int) = 2 ^ 64 by norm_num]
      linarith
    have := (zpow_lt_zpow_iff_right₀ one_lt_two).mp hpow
    omega
  obtain rfl : e = 11 := by omega
  have hnear : 1000 * (2 ^ 64 - 2 ^ 10) ≤ (m : ℚ) * 2 ^ f := by
    have := h.near
    norm_num at this hge ⊢
    linarith
  have hf : 21 ≤ f := by
    by_contra hf
    have hsmall : (m : ℚ) * 2 ^ f ≤ 2 ^ 53 * 2 ^ (20 : Int) := by
      gcongr
      · exact one_le_two
      · omega
    norm_num at hsmall hnear
    linarith
  -- So the number is a multiple of `2 ^ 21`, as the limit is, and it cannot come that near.
  have hmultiple : (m : ℚ) * 2 ^ f = ((m * 2 ^ (f - 21).toNat : Nat) : ℚ) * 2 ^ 21 := by
    rw [Nat.cast_mul, Nat.cast_pow, Nat.cast_ofNat, two_pow_toNat (by omega), mul_assoc,
      ← zpow_natCast, ← zpow_add₀ two_ne_zero]
    congr 2
    omega
  rw [hmultiple] at hlt hnear
  have hless : m * 2 ^ (f - 21).toNat < 125 * 2 ^ 46 := by
    rw [← Nat.cast_lt (α := ℚ)]
    norm_num at hlt ⊢
    linarith
  have hless' : ((m * 2 ^ (f - 21).toNat : Nat) : ℚ) + 1 ≤ 125 * 2 ^ 46 := by exact_mod_cast hless
  norm_num at hnear hless'
  linarith

theorem ofBinary64_thousandth_iff {m : Nat} {f : Int} (hbits : m ≤ 2 ^ 53) (hm : m ≠ 0) :
    (∃ d, Duration.ofBinary64 ((finite false m f).divNat 1000) = .ok d) ↔
      (m : ℚ) * 2 ^ f < 1000 * 2 ^ 64 := by
  obtain ⟨hpos, hratio⟩ := ratio_spec m f
  have hvalue : (0 : ℚ) < m * 2 ^ f := by positivity
  have hnum : 0 < (ratio m f).1 := by
    refine Nat.pos_of_ne_zero fun hzero => ?_
    rw [hzero, Nat.cast_zero, zero_div] at hratio
    exact hvalue.ne hratio
  obtain ⟨r, e, hround, hcases⟩ := ofRatio_spec false hnum (Nat.mul_pos hpos (by decide : 0 < 1000))
  rw [Nat.cast_mul, ← div_div, hratio, Nat.cast_ofNat] at hround
  have hdiv : (finite false m f).divNat 1000 =
      ofRatio false (ratio m f).1 ((ratio m f).2 * 1000) := rfl
  have hpower {k : Int} (hk : 64 ≤ k) : (2 : ℚ) ^ 64 ≤ 2 ^ k := by
    rw [← zpow_natCast]
    exact zpow_le_zpow_right₀ one_le_two hk
  rcases hcases with hfinite | ⟨hmax, hinfinite⟩
  · rw [hdiv, hfinite, Duration.ofBinary64_finite_iff]
    refine ⟨fun hlt => ?_, hround.lt_of_thousandth hbits⟩
    by_contra hnot
    have hge : (2 : ℚ) ^ (64 : Int) ≤ m * 2 ^ f / 1000 := by
      norm_num at hnot ⊢
      linarith
    have hreached := hround.two_pow_le (by decide) hge
    norm_num at hreached hlt
    linarith
  · rw [hdiv, hinfinite]
    refine iff_of_false nofun ?_
    have hlarge : maxExponent = 971 := rfl
    obtain ⟨-, hnormal⟩ := hround.normal.resolve_left (by simp only [minExponent]; omega)
    have := hpower (show 64 ≤ e + 52 by omega)
    linarith

/-! ### Numbers without a sign -/

/-- Whether a number has no sign. -/
def IsUnsigned : Binary64 → Prop
  | nan => True
  | infinite negative => negative = false
  | finite negative _ _ => negative = false

theorem isUnsigned_ofRatio (num den : Nat) : (ofRatio false num den).IsUnsigned := by
  unfold ofRatio
  split
  · rfl
  · dsimp only
    split <;> rfl

theorem isUnsigned_addAbs (x y : Binary64) : (x.addAbs y).IsUnsigned := by
  cases x with
  | nan => trivial
  | infinite s => cases y <;> trivial
  | finite s m e =>
      cases y with
      | nan => trivial
      | infinite t => rfl
      | finite t n f => exact isUnsigned_ofRatio _ _

theorem isUnsigned_twoPow (n : Int) : (twoPow n).IsUnsigned := by
  unfold twoPow
  split
  · rfl
  · split <;> rfl

theorem IsUnsigned.mul {x y : Binary64} (hx : x.IsUnsigned) (hy : y.IsUnsigned) :
    (x.mul y).IsUnsigned := by
  cases x with
  | nan => trivial
  | infinite s =>
      obtain rfl : s = false := hx
      cases y with
      | nan => trivial
      | infinite t =>
          obtain rfl : t = false := hy
          rfl
      | finite t n f =>
          obtain rfl : t = false := hy
          show (if n = 0 then nan else infinite (false != false)).IsUnsigned
          split
          · trivial
          · rfl
  | finite s m e =>
      obtain rfl : s = false := hx
      cases y with
      | nan => trivial
      | infinite t =>
          obtain rfl : t = false := hy
          show (if m = 0 then nan else infinite (false != false)).IsUnsigned
          split
          · trivial
          · rfl
      | finite t n f =>
          obtain rfl : t = false := hy
          exact isUnsigned_ofRatio _ _

/-- The smaller one of two numbers is a duration if the second one is. -/
theorem exists_ofBinary64_least {x y : Binary64} (hx : x.IsUnsigned) (hy : y.IsUnsigned)
    (h : ∃ d, Duration.ofBinary64 y = .ok d) : ∃ d, Duration.ofBinary64 (x.least y) = .ok d := by
  cases y with
  | nan => exact absurd h nofun
  | infinite t => exact absurd h nofun
  | finite t n f =>
      obtain rfl : t = false := hy
      cases x with
      | nan => exact h
      | infinite s =>
          obtain rfl : s = false := hx
          exact h
      | finite s m e =>
          obtain rfl : s = false := hx
          have hleast : (finite false m e).least (finite false n f) =
              if (finite false n f).lt (finite false m e) then finite false n f
              else finite false m e := rfl
          rw [hleast]
          split
          · exact h
          · -- The first number is not above the second one, which is below `2 ^ 64`.
            rename_i hnot
            have hle : (ratio m e).1 * (ratio n f).2 ≤ (ratio n f).1 * (ratio m e).2 :=
              Nat.le_of_not_lt (mt decide_eq_true hnot)
            obtain ⟨hposX, hratioX⟩ := ratio_spec m e
            obtain ⟨hposY, hratioY⟩ := ratio_spec n f
            rw [Duration.ofBinary64_finite_iff] at h ⊢
            refine lt_of_le_of_lt ?_ h
            rw [← hratioX, ← hratioY,
              div_le_div_iff₀ (by exact_mod_cast hposX) (by exact_mod_cast hposY)]
            exact_mod_cast hle

end Number.Binary64

namespace Llm

/-! ### Delays named by headers -/

/-- The headers name a delay in milliseconds that comes to `2 ^ 64` seconds or more. -/
def Headers.TooLong (headers : Headers) : Prop :=
  ∃ text ms, headers.text? "retry-after-ms" = some text ∧ binary64? text = some ms ∧
    1000 * 2 ^ 64 ≤ ms.value

theorem delayOfMilliseconds_fault_iff {text : List Char} {fault : Fault} :
    delayOfMilliseconds text = .error fault ↔
      fault = .delayOutOfRange ∧ ∃ ms, binary64? text = some ms ∧ 1000 * 2 ^ 64 ≤ ms.value := by
  unfold delayOfMilliseconds
  cases hms : binary64? text with
  | none => exact iff_of_false nofun nofun
  | some ms =>
      have hfits := fits_of_binary64? hms
      dsimp only
      split
      · rename_i hpositive
        obtain ⟨m, e, rfl, hm⟩ : ∃ m e, ms = .finite false m e ∧ m ≠ 0 := by
          unfold Binary64.isPositive at hpositive
          split at hpositive
          · rename_i m e
            exact ⟨m, e, rfl, by simpa using hpositive⟩
          · cases hpositive
        have hiff := Binary64.ofBinary64_thousandth_iff (f := e) hfits hm
        have hvalue : (Binary64.finite false m e).value = m * 2 ^ e := one_mul _
        cases hd : Duration.ofBinary64 ((Binary64.finite false m e).divNat 1000) with
        | ok d =>
            refine iff_of_false nofun ?_
            rintro ⟨-, _, hsome, hlong⟩
            cases hsome
            rw [hvalue] at hlong
            exact absurd (hiff.mp ⟨d, hd⟩) (not_lt_of_ge hlong)
        | error fault' =>
            obtain rfl := Duration.ofBinary64_fault hd
            have hlong : 1000 * 2 ^ 64 ≤ (Binary64.finite false m e).value := by
              rw [hvalue]
              refine le_of_not_gt fun hlt => ?_
              obtain ⟨d, hok⟩ := hiff.mpr hlt
              cases hd.symm.trans hok
            constructor
            · intro h
              exact ⟨(Except.error.inj h).symm, _, rfl, hlong⟩
            · rintro ⟨rfl, -⟩
              rfl
      · rename_i hpositive
        refine iff_of_false nofun ?_
        rintro ⟨-, _, hsome, hlong⟩
        cases hsome
        have hzero : ms.value ≤ 0 := not_lt.mp (mt Binary64.isPositive_iff.mpr hpositive)
        norm_num at hlong
        linarith

theorem retryAfter_fault_iff {headers : Headers} {fault : Fault} :
    retryAfter headers = .error fault ↔ fault = .delayOutOfRange ∧ headers.TooLong := by
  unfold retryAfter
  cases htext : headers.text? "retry-after-ms" with
  | none =>
      refine iff_of_false nofun ?_
      rintro ⟨-, text, ms, hsome, -⟩
      cases htext.symm.trans hsome
  | some text =>
      have htooLong : headers.TooLong ↔
          ∃ ms, binary64? text = some ms ∧ 1000 * 2 ^ 64 ≤ ms.value := by
        constructor
        · rintro ⟨_, ms, hsome, hms⟩
          cases htext.symm.trans hsome
          exact ⟨ms, hms⟩
        · rintro ⟨ms, hms⟩
          exact ⟨text, ms, htext, hms⟩
      rw [htooLong, ← delayOfMilliseconds_fault_iff]
      dsimp only
      cases delayOfMilliseconds text with
      | error fault' => exact Iff.rfl
      | ok named => cases named <;> exact iff_of_false nofun nofun

/-! ### Delays of the policy -/

/-- The limit of the delays is a duration again after it was made a number. -/
def RetryPolicy.LimitFits (policy : RetryPolicy) : Prop :=
  ∃ d, Duration.ofBinary64 policy.maxDelay.toBinary64 = .ok d

theorem limitFits_default (retries : Nat) :
    ({ maxRetries := retries } : RetryPolicy).LimitFits := by
  refine ⟨⟨8000000000⟩, ?_⟩
  show Duration.ofBinary64 (Duration.ofSeconds 8).toBinary64 = _
  rw [toBinary64_eight]
  rfl

/-- The delays of a policy are as long as its limit at most, whatever the number of the retry. -/
theorem RetryPolicy.exists_backoff {policy : RetryPolicy} (hlimit : policy.LimitFits)
    (step : UInt32) : ∃ d, policy.backoff step = .ok d := by
  have hunsigned (d : Duration) : d.toBinary64.IsUnsigned := Binary64.isUnsigned_addAbs _ _
  have hdoubled := (hunsigned policy.initialDelay).mul (Binary64.isUnsigned_twoPow (doublings step))
  exact Binary64.exists_ofBinary64_least hdoubled (hunsigned policy.maxDelay) hlimit

theorem RetryPolicy.delay_fault_iff {policy : RetryPolicy} (hlimit : policy.LimitFits)
    {step : UInt32} {headers : Headers} {fault : Fault} :
    policy.delay step headers = .error fault ↔ fault = .delayOutOfRange ∧ headers.TooLong := by
  obtain ⟨d, hbackoff⟩ := RetryPolicy.exists_backoff hlimit step
  rw [← retryAfter_fault_iff, RetryPolicy.delay]
  cases retryAfter headers with
  | error fault' =>
      show (Except.error fault' : Except Fault Duration) = _ ↔ _
      rw [Except.error.injEq, Except.error.injEq]
  | ok named =>
      cases named with
      | some d => exact iff_of_false nofun nofun
      | none =>
          refine iff_of_false ?_ nofun
          show policy.backoff step ≠ _
          rw [hbackoff]
          exact nofun

/-! ### Attempts -/

/-- An attempt was answered with headers that name too long a delay. -/
def Attempt.TooLong : Attempt → Prop
  | response _ headers _ => headers.TooLong
  | unreachable => False
  | broken => False

theorem Attempt.delay_fault_iff {policy : RetryPolicy} (hlimit : policy.LimitFits) {step : UInt32}
    {a : Attempt} {fault : Fault} :
    a.delay policy step = .error fault ↔ fault = .delayOutOfRange ∧ a.TooLong := by
  obtain ⟨d, hbackoff⟩ := RetryPolicy.exists_backoff hlimit step
  have hnone : ¬ policy.backoff step = .error fault := by
    rw [hbackoff]
    exact nofun
  cases a with
  | response status headers body => exact RetryPolicy.delay_fault_iff hlimit
  | unreachable => exact iff_of_false hnone And.right
  | broken => exact iff_of_false hnone And.right

/--
The loop is stopped by the first attempt that is retried after too long a delay. By induction on the
retries that are left: a delay that is a duration leads to the next attempt.
-/
theorem tryFrom_fault_iff {policy : RetryPolicy} (hlimit : policy.LimitFits) {server : Server}
    {first left : Nat} (steps : List (Step Nat)) {fault : Fault} :
    tryFrom policy server first steps left = .error fault ↔ fault = .delayOutOfRange ∧
      ∃ last, first ≤ last ∧ last < first + left ∧
        (∀ i, first ≤ i → i ≤ last → (server i).isRetryable = true) ∧ (server last).TooLong := by
  induction left generalizing first steps with
  | zero =>
      refine iff_of_false nofun ?_
      rintro ⟨-, last, hfirst, hlast, -⟩
      omega
  | succ left ih =>
      rw [tryFrom]
      cases hretry : (server first).isRetryable with
      | false =>
          refine iff_of_false nofun ?_
          rintro ⟨-, last, hfirst, -, hall, -⟩
          rw [hall first (Nat.le_refl _) hfirst] at hretry
          cases hretry
      | true =>
          have hiff (fault : Fault) :
              (server first).delay policy (UInt32.ofNat first) = .error fault ↔
                fault = .delayOutOfRange ∧ (server first).TooLong :=
            Attempt.delay_fault_iff hlimit
          cases hdelay : (server first).delay policy (UInt32.ofNat first) with
          | error fault' =>
              obtain ⟨rfl, hlong⟩ := (hiff fault').mp hdelay
              constructor
              · intro h
                refine ⟨(Except.error.inj h).symm, first, Nat.le_refl _, by omega, ?_, hlong⟩
                intro i hfirst hlast
                rwa [Nat.le_antisymm hlast hfirst]
              · rintro ⟨rfl, -⟩
                rfl
          | ok d =>
              have hshort : ¬ (server first).TooLong := by
                intro hlong
                have hfault := (hiff .delayOutOfRange).mpr ⟨rfl, hlong⟩
                cases hdelay.symm.trans hfault
              refine (ih _).trans (and_congr_right fun _ => ?_)
              constructor
              · rintro ⟨last, hfirst, hlast, hall, hlong⟩
                refine ⟨last, by omega, by omega, ?_, hlong⟩
                intro i hi hle
                rcases Nat.eq_or_lt_of_le hi with rfl | hlt
                · exact hretry
                · exact hall i hlt hle
              · rintro ⟨last, hfirst, hlast, hall, hlong⟩
                have hne : first ≠ last := by
                  rintro rfl
                  exact hshort hlong
                exact ⟨last, by omega, by omega, fun i hi => hall i (by omega), hlong⟩

/-! ### Chats -/

theorem Client.chat_fault_iff {c : Client} {server : Server} {messages : List Message}
    {fault : Fault} : c.chat server messages = .error fault ↔
      (∃ url, c.endpoint = .server url) ∧
        tryFrom c.policy server 0 [] c.policy.maxRetries = .error fault := by
  obtain ⟨endpoint, model, policy⟩ := c
  cases endpoint with
  | unusable reason => exact iff_of_false nofun nofun
  | server url =>
      simp only [chat]
      cases tryFrom policy server 0 [] policy.maxRetries with
      | error fault' =>
          show (Except.error fault' : Except Fault Chat) = _ ↔ _
          rw [Except.error.injEq, Except.error.injEq]
          exact (and_iff_right ⟨url, rfl⟩).symm
      | ok tried => exact iff_of_false nofun nofun

/-- The headers of all responses can be read: they name a delay that is a duration, or none. -/
def Server.IsReadable (server : Server) : Prop :=
  ∀ i status headers body, server i = .response status headers body →
    ∃ named, retryAfter headers = .ok named

theorem Server.IsReadable.not_tooLong {server : Server} (h : server.IsReadable) (i : Nat) :
    ¬ (server i).TooLong := by
  intro hlong
  cases hi : server i with
  | response status headers body =>
      rw [hi] at hlong
      obtain ⟨named, hnamed⟩ := h i status headers body hi
      cases hnamed.symm.trans (retryAfter_fault_iff.mpr ⟨rfl, hlong⟩)
  | unreachable => rwa [hi] at hlong
  | broken => rwa [hi] at hlong

/-- Nothing stops a chat with a server whose headers can be read. -/
theorem Client.exists_chat {c : Client} (hlimit : c.policy.LimitFits) {server : Server}
    (hread : server.IsReadable) (messages : List Message) :
    ∃ chat, c.chat server messages = .ok chat := by
  cases hchat : c.chat server messages with
  | ok chat => exact ⟨chat, rfl⟩
  | error fault =>
      obtain ⟨-, hfault⟩ := Client.chat_fault_iff.mp hchat
      obtain ⟨-, last, -, -, -, hlong⟩ := (tryFrom_fault_iff hlimit []).mp hfault
      exact absurd hlong (hread.not_tooLong last)

/-! ### Main statement -/

/--
The headers of a response stop the program exactly if they name a delay of `1000 * 2 ^ 64`
milliseconds or more, as the nearest number of the format, and a policy adds no other way. So a chat
is stopped exactly if one of its attempts is retried, as are all before it, and has such headers.
-/
theorem delay_fault_iff_tooLong {policy : RetryPolicy} (hlimit : policy.LimitFits) :
    (∀ headers fault, retryAfter headers = .error fault ↔
      fault = .delayOutOfRange ∧ headers.TooLong) ∧
    (∀ step, ∃ d, policy.backoff step = .ok d) ∧
    (∀ step headers fault, policy.delay step headers = .error fault ↔
      fault = .delayOutOfRange ∧ headers.TooLong) ∧
    ∀ url model server messages fault,
      ({ endpoint := .server url, model := model, policy := policy } : Client).chat server
        messages = .error fault ↔
      fault = .delayOutOfRange ∧ ∃ last < policy.maxRetries,
        (∀ i ≤ last, (server i).isRetryable = true) ∧ (server last).TooLong := by
  refine ⟨fun headers fault => retryAfter_fault_iff, RetryPolicy.exists_backoff hlimit,
    fun step headers fault => RetryPolicy.delay_fault_iff hlimit, ?_⟩
  intro url model server messages fault
  rw [Client.chat_fault_iff, tryFrom_fault_iff hlimit]
  simp only [Endpoint.server.injEq, exists_eq', true_and, Nat.zero_le, Nat.zero_add, forall_const]

/-- A delay of `1e30` milliseconds is finite and above zero, and it is no duration. -/
theorem retryAfter_of_endless :
    retryAfter [⟨"Retry-After-Ms", [49, 101, 51, 48]⟩] = .error .delayOutOfRange := rfl

/-- The first attempt is retried after such a delay, and it stops the chat. -/
theorem delay_fault_iff_endless : ∃ (url : Url) (server : Server),
    ({ maxRetries := 1 } : RetryPolicy).LimitFits ∧
    ({ endpoint := .server url, model := "m", policy := { maxRetries := 1 } } : Client).chat server
      [⟨.user, "hi"⟩] = .error .delayOutOfRange ∧
    (server 0).TooLong := by
  let url : Url := ⟨['h', 't', 't', 'p'], ['a'], none, ['/'], none, none⟩
  let server : Server := fun _ =>
    .response 503 [⟨"Retry-After-Ms", [49, 101, 51, 48]⟩] ⟨[], true⟩
  have hlimit := limitFits_default 1
  obtain ⟨hheaders, -, -, hchat⟩ := delay_fault_iff_tooLong hlimit
  have hlong : (server 0).TooLong := ((hheaders _ _).mp rfl).2
  refine ⟨url, server, hlimit, ?_, hlong⟩
  refine (hchat url "m" server [⟨.user, "hi"⟩] _).mpr ⟨rfl, 0, by decide, ?_, hlong⟩
  intro i _
  rfl

end Llm

end SaveLint
