import SaveLint.Proofs.Llm.Delays

/-!
# Delays that headers name

Two headers can name a delay, and of each the first one decides. A number of milliseconds counts if
its thousandth, rounded to whole nanoseconds, is more than nothing and less than a minute
(`Headers.NamesMilliseconds`). Otherwise, whatever is wrong with it, a whole number of seconds
counts under the same condition (`Headers.NamesSeconds`). Only a number that is too long for a
duration stops the program instead.

The nearest nanosecond is said by its distance, and there is one (`IsNearest.unique`), so what the
headers name determines the delay. Main statement: `retryAfter_decided_by_first`.
-/

namespace SaveLint

open Number

/-! ### Durations -/

namespace Duration

/-- Longer than nothing and shorter than a minute. -/
def IsShort (d : Duration) : Prop := 0 < d.nanoseconds ∧ d.nanoseconds < 60 * 10 ^ 9

theorem isWithinMinute_iff {d : Duration} : d.isWithinMinute = true ↔ d.IsShort := by
  rw [isWithinMinute, Bool.and_eq_true, decide_eq_true_eq, decide_eq_true_eq]
  exact Iff.rfl

theorem isShort_ofSeconds_iff {n : Nat} : (ofSeconds n).IsShort ↔ 1 ≤ n ∧ n ≤ 59 := by
  simp only [IsShort, ofSeconds, ofParts, perSecond]
  omega

theorem isNearest_of_ofBinary64 {negative : Bool} {m : Nat} {e : Int} {d : Duration}
    (h : ofBinary64 (.finite negative m e) = .ok d) :
    IsNearest ((m : ℚ) * 2 ^ e * 10 ^ 9) d.nanoseconds := by
  obtain ⟨hpos, hratio⟩ := Binary64.ratio_spec m e
  unfold ofBinary64 at h
  dsimp only at h
  split at h
  · obtain rfl := Except.ok.inj h
    have hnear := isNearest_roundRatio ((Binary64.ratio m e).1 * perSecond) hpos
    rw [Nat.cast_mul, mul_div_right_comm, hratio] at hnear
    have hsecond : ((perSecond : Nat) : ℚ) = 10 ^ 9 := by norm_num [perSecond]
    rwa [hsecond] at hnear
  · cases h

/-- A short duration is the one of the number to which it is the nearest. -/
theorem ofBinary64_eq_ok_of_isNearest {m : Nat} {e : Int} {d : Duration} (hshort : d.IsShort)
    (hnear : IsNearest ((m : ℚ) * 2 ^ e * 10 ^ 9) d.nanoseconds) :
    ofBinary64 (.finite false m e) = .ok d := by
  have hfits : (m : ℚ) * 2 ^ e < 2 ^ 64 := by
    have hlt : (d.nanoseconds : ℚ) < 60 * 10 ^ 9 := by exact_mod_cast hshort.2
    have hle := (abs_le.mp hnear.near).2
    linarith
  obtain ⟨d', hd'⟩ : ∃ d', ofBinary64 (.finite false m e) = .ok d' :=
    ofBinary64_finite_iff.mpr hfits
  have hsame : d' = d := by
    cases d'
    cases d
    exact congrArg mk ((isNearest_of_ofBinary64 hd').unique hnear)
  rw [hd', hsame]

end Duration

namespace Llm

/-! ### Milliseconds -/

theorem admitted_eq_some_iff {d named : Duration} :
    admitted d = some named ↔ d = named ∧ named.IsShort := by
  rw [← Duration.isWithinMinute_iff, admitted]
  constructor
  · intro h
    split at h
    · rename_i hshort
      obtain rfl := Option.some.inj h
      exact ⟨rfl, hshort⟩
    · cases h
  · rintro ⟨rfl, hshort⟩
    exact if_pos hshort

/-- What is not finite has the value zero here, and nothing short is the nearest to that. -/
theorem admitted_ofBinary64_eq_some_iff {x : Binary64} (hx : x.IsUnsigned) {d : Duration} :
    (Duration.ofBinary64 x).map admitted = .ok (some d) ↔
      IsNearest (x.value * 10 ^ 9) d.nanoseconds ∧ d.IsShort := by
  have hzero : ¬ (IsNearest (0 * 10 ^ 9) d.nanoseconds ∧ d.IsShort) := by
    rintro ⟨hnear, hpos, -⟩
    have hle := (abs_le.mp hnear.near).1
    have hone : (1 : ℚ) ≤ d.nanoseconds := by exact_mod_cast hpos
    linarith
  cases x with
  | nan => exact iff_of_false nofun hzero
  | infinite s => exact iff_of_false nofun hzero
  | finite s m e =>
    obtain rfl : s = false := hx
    rw [show (Binary64.finite false m e).value = m * 2 ^ e from one_mul _]
    constructor
    · intro h
      cases hd : Duration.ofBinary64 (.finite false m e) with
      | error fault =>
        rw [hd] at h
        cases h
      | ok d' =>
        rw [hd] at h
        obtain ⟨rfl, hshort⟩ := admitted_eq_some_iff.mp (Except.ok.inj h)
        exact ⟨Duration.isNearest_of_ofBinary64 hd, hshort⟩
    · rintro ⟨hnear, hshort⟩
      rw [Duration.ofBinary64_eq_ok_of_isNearest hshort hnear]
      exact congrArg Except.ok (admitted_eq_some_iff.mpr ⟨rfl, hshort⟩)

theorem isUnsigned_divNat_of_isPositive {x : Binary64} (h : x.isPositive = true) (k : Nat) :
    (x.divNat k).IsUnsigned := by
  unfold Binary64.isPositive at h
  split at h
  · exact Binary64.isUnsigned_ofRatio _ _
  · cases h

theorem delayOfMilliseconds_eq_some_iff {text : List Char} {d : Duration} :
    delayOfMilliseconds text = .ok (some d) ↔ ∃ ms, binary64? text = some ms ∧ 0 < ms.value ∧
      IsNearest ((ms.divNat 1000).value * 10 ^ 9) d.nanoseconds ∧ d.IsShort := by
  unfold delayOfMilliseconds
  cases binary64? text with
  | none => exact iff_of_false nofun nofun
  | some ms =>
    simp only [Option.some.injEq, exists_eq_left', ← Binary64.isPositive_iff]
    split
    · rename_i hpositive
      rw [and_iff_right hpositive]
      exact admitted_ofBinary64_eq_some_iff (isUnsigned_divNat_of_isPositive hpositive 1000)
    · rename_i hpositive
      exact iff_of_false nofun fun h => hpositive h.1

/-! ### Seconds -/

theorem delayOfSeconds_eq_some_iff {text : List Char} {d : Duration} :
    delayOfSeconds text = some d ↔
      ∃ n, unsigned64? text = some n ∧ 1 ≤ n ∧ n ≤ 59 ∧ d = .ofSeconds n := by
  simp only [delayOfSeconds, Option.bind_eq_some_iff, admitted_eq_some_iff]
  constructor
  · rintro ⟨n, hn, rfl, hshort⟩
    obtain ⟨hlow, hhigh⟩ := Duration.isShort_ofSeconds_iff.mp hshort
    exact ⟨n, hn, hlow, hhigh, rfl⟩
  · rintro ⟨n, hn, hlow, hhigh, rfl⟩
    exact ⟨n, hn, rfl, Duration.isShort_ofSeconds_iff.mpr ⟨hlow, hhigh⟩⟩

/-! ### Headers -/

namespace Headers

/--
The first header for milliseconds names a short delay: a finite number above zero, of whose
thousandth it is the nearest nanosecond. (What is not finite has the value zero.)
-/
def NamesMilliseconds (headers : Headers) (d : Duration) : Prop :=
  ∃ text ms, headers.text? "retry-after-ms" = some text ∧ binary64? text = some ms ∧
    0 < ms.value ∧ IsNearest ((ms.divNat 1000).value * 10 ^ 9) d.nanoseconds ∧ d.IsShort

/-- The first header for seconds names a number of them that is a short delay. -/
def NamesSeconds (headers : Headers) (n : Nat) : Prop :=
  ∃ text, headers.text? "retry-after" = some text ∧ unsigned64? text = some n ∧ 1 ≤ n ∧ n ≤ 59

theorem bind_delayOfSeconds_eq_some_iff {headers : Headers} {d : Duration} :
    (headers.text? "retry-after").bind delayOfSeconds = some d ↔
      ∃ n, headers.NamesSeconds n ∧ d = .ofSeconds n := by
  simp only [Option.bind_eq_some_iff, delayOfSeconds_eq_some_iff, NamesSeconds]
  grind

end Headers

theorem Header.isNamed_inj {name other : String} {h : Header} (hname : h.isNamed name = true)
    (hother : h.isNamed other = true) : name = other := by
  simp only [isNamed, beq_iff_eq] at hname hother
  exact String.toList_inj.mp (hname.symm.trans hother)

/-- Behind the first header with a name, others with that name are not looked at. -/
theorem Headers.text?_filter {name : String} {front back : Headers} {first : Header}
    (hfirst : first.isNamed name = true) (other : String) :
    Headers.text? (front ++ first :: back.filter fun h => !h.isNamed name) other =
      Headers.text? (front ++ first :: back) other := by
  simp only [text?, List.find?_append, List.find?_cons]
  cases hother : first.isNamed other with
  | true => rfl
  | false =>
    -- the headers with the other name are not among those left out
    have hkept : (back.filter fun h => !h.isNamed name).find? (·.isNamed other) =
        back.find? (·.isNamed other) := by
      rw [List.find?_filter]
      congr 1
      funext h
      rw [Bool.eq_iff_iff, decide_eq_true_iff]
      refine ⟨And.right, fun hh => ⟨?_, hh⟩⟩
      cases hname : h.isNamed name with
      | false => rfl
      | true =>
        rw [Header.isNamed_inj hname hh, hother] at hfirst
        cases hfirst
    rw [hkept]

theorem retryAfter_of_named {headers : Headers} {d : Duration} (h : headers.NamesMilliseconds d) :
    retryAfter headers = .ok (some d) := by
  obtain ⟨text, ms, htext, hms⟩ := h
  unfold retryAfter
  rw [htext]
  dsimp only
  rw [delayOfMilliseconds_eq_some_iff.mpr ⟨ms, hms⟩]
  rfl

theorem retryAfter_of_unnamed {headers : Headers} (hunnamed : ∀ d, ¬ headers.NamesMilliseconds d)
    (hshort : ¬ headers.TooLong) :
    retryAfter headers = .ok ((headers.text? "retry-after").bind delayOfSeconds) := by
  unfold retryAfter
  cases htext : headers.text? "retry-after-ms" with
  | none => rfl
  | some text =>
    dsimp only
    cases hdelay : delayOfMilliseconds text with
    | error fault =>
      obtain ⟨-, ms, hms⟩ := delayOfMilliseconds_fault_iff.mp hdelay
      exact absurd ⟨text, ms, htext, hms⟩ hshort
    | ok named =>
      cases named with
      | some d =>
        obtain ⟨ms, hms⟩ := delayOfMilliseconds_eq_some_iff.mp hdelay
        exact absurd ⟨text, ms, htext, hms⟩ (hunnamed d)
      | none => rfl

/-! ### Main statement -/

/--
Every delay that headers name is short. It is the one of the first header for milliseconds, if that
one names a short delay. If it does not, and is not too long for a duration either, the first header
for seconds decides alone. Headers behind the first one with their name never matter.
-/
theorem retryAfter_decided_by_first (headers : Headers) :
    (∀ d, retryAfter headers = .ok (some d) →
      0 < d.nanoseconds ∧ d.nanoseconds < 60 * 10 ^ 9) ∧
    (∀ d, headers.NamesMilliseconds d → retryAfter headers = .ok (some d)) ∧
    ((∃ fault, retryAfter headers = .error fault) ↔ headers.TooLong) ∧
    ((∀ d, ¬ headers.NamesMilliseconds d) → ¬ headers.TooLong →
      (∀ n, headers.NamesSeconds n → retryAfter headers = .ok (some (.ofSeconds n))) ∧
      ((∀ n, ¬ headers.NamesSeconds n) → retryAfter headers = .ok none)) ∧
    ∀ name front first back, first.isNamed name = true → headers = front ++ first :: back →
      retryAfter (front ++ first :: back.filter fun h => !h.isNamed name) =
        retryAfter headers := by
  refine ⟨fun d hd => ?_, fun d => retryAfter_of_named, ?_, fun hunnamed hshort => ?_, ?_⟩
  · by_cases hnamed : ∃ d, headers.NamesMilliseconds d
    · obtain ⟨d', hd'⟩ := hnamed
      cases hd.symm.trans (retryAfter_of_named hd')
      obtain ⟨-, -, -, -, -, -, hshort⟩ := hd'
      exact hshort
    · have hshort : ¬ headers.TooLong := by
        intro hlong
        cases hd.symm.trans (retryAfter_fault_iff.mpr ⟨rfl, hlong⟩)
      have hseconds := retryAfter_of_unnamed (not_exists.mp hnamed) hshort
      obtain ⟨n, ⟨-, -, -, hn⟩, rfl⟩ := Headers.bind_delayOfSeconds_eq_some_iff.mp
        (Except.ok.inj (hseconds.symm.trans hd))
      exact Duration.isShort_ofSeconds_iff.mpr hn
  · simp only [retryAfter_fault_iff, exists_eq_left]
  · rw [retryAfter_of_unnamed hunnamed hshort]
    constructor
    · intro n hn
      exact congrArg Except.ok (Headers.bind_delayOfSeconds_eq_some_iff.mpr ⟨n, hn, rfl⟩)
    · intro hnone
      refine congrArg Except.ok (Option.eq_none_iff_forall_ne_some.mpr fun d hd => ?_)
      obtain ⟨n, hn, -⟩ := Headers.bind_delayOfSeconds_eq_some_iff.mp hd
      exact hnone n hn
  · rintro name front first back hfirst rfl
    simp only [retryAfter, Headers.text?_filter hfirst]

/-- `1500` and `7` milliseconds, and `5` seconds. -/
def threeDelays : Headers :=
  [⟨"Retry-After-Ms", [49, 53, 48, 48]⟩, ⟨"retry-after-ms", [55]⟩, ⟨"Retry-After", [53]⟩]

/-- `60000` milliseconds, which are too many, and `5` seconds. -/
def minuteThenSeconds : Headers :=
  [⟨"retry-after-ms", [54, 48, 48, 48, 48]⟩, ⟨"Retry-After", [53]⟩]

/-- The first milliseconds count, without the second ones too, and where they do not, the seconds. -/
theorem retryAfter_decided_by_first_of_three :
    threeDelays.NamesMilliseconds ⟨1500000000⟩ ∧
    retryAfter threeDelays = .ok (some ⟨1500000000⟩) ∧
    retryAfter [⟨"Retry-After-Ms", [49, 53, 48, 48]⟩, ⟨"Retry-After", [53]⟩] =
      .ok (some ⟨1500000000⟩) ∧
    (∀ d, ¬ minuteThenSeconds.NamesMilliseconds d) ∧ ¬ minuteThenSeconds.TooLong ∧
    minuteThenSeconds.NamesSeconds 5 ∧
    retryAfter minuteThenSeconds = .ok (some (.ofSeconds 5)) := by
  have hnamed : threeDelays.NamesMilliseconds ⟨1500000000⟩ := by
    have hquotient : (Binary64.finite false 6597069766656000 (-42)).divNat 1000 =
        .finite false 6755399441055744 (-52) := rfl
    refine ⟨['1', '5', '0', '0'], .finite false 6597069766656000 (-42), rfl, rfl, ?_, ?_, ?_⟩
    · norm_num [Binary64.value]
    · rw [hquotient]
      constructor <;> norm_num [Binary64.value]
    · exact Duration.isWithinMinute_iff.mp (by decide)
  have htext : minuteThenSeconds.text? "retry-after-ms" = some ['6', '0', '0', '0', '0'] := by decide
  have hminute : delayOfMilliseconds ['6', '0', '0', '0', '0'] = .ok none := by decide +kernel
  have hunnamed : ∀ d, ¬ minuteThenSeconds.NamesMilliseconds d := by
    rintro d ⟨text, ms, hsome, hms⟩
    obtain rfl := Option.some.inj (htext.symm.trans hsome)
    cases hminute.symm.trans (delayOfMilliseconds_eq_some_iff.mpr ⟨ms, hms⟩)
  have hshort : ¬ minuteThenSeconds.TooLong := by
    rintro ⟨text, ms, hsome, hms⟩
    obtain rfl := Option.some.inj (htext.symm.trans hsome)
    cases hminute.symm.trans (delayOfMilliseconds_fault_iff.mpr ⟨rfl, ms, hms⟩)
  have hseconds : minuteThenSeconds.NamesSeconds 5 := ⟨['5'], by decide, by decide, by decide⟩
  obtain ⟨-, hfirst, -, -, hlater⟩ := retryAfter_decided_by_first threeDelays
  obtain ⟨-, -, -, hrest, -⟩ := retryAfter_decided_by_first minuteThenSeconds
  have hdropped := hlater "retry-after-ms" [] ⟨"Retry-After-Ms", [49, 53, 48, 48]⟩
    [⟨"retry-after-ms", [55]⟩, ⟨"Retry-After", [53]⟩] (by decide) rfl
  refine ⟨hnamed, hfirst _ hnamed, ?_, hunnamed, hshort, hseconds, ?_⟩
  · exact hdropped.trans (hfirst _ hnamed)
  · exact (hrest hunnamed hshort).1 5 hseconds

end Llm

end SaveLint
