import SaveLint.Proofs.Text.Decoding
import Mathlib.Order.Bounds.Defs

/-!
# The largest safe cut

A cut of a byte sequence is safe if reading its two sides one after the other gives the lossy
reading of the whole, whatever bytes are still to come (`IsSafeCut`). The cut before what is
unfinished is safe, and it is the largest one: what is unfinished can still become a character
(`front_eq_cut_iff`), and every later cut would take that character apart (`not_isSafeCut`).

The cut can also be found by checking what is left, again and again, and skipping the broken part
that a check has found (`CutFrom`). Every check comes nearer to the end, so the search ends, and it
ends at the same cut (`cutFrom_iff`).

That a part is broken is known from the byte after it. So what stands before a cut may look
unfinished when it is taken alone, and cutting it once more may give less.
-/

namespace SaveLint.Text

variable {bs : Bytes}

/-! ### Starts of encodings -/

/-- A proper start of the encoding of a character. -/
def IsStart (bs : Bytes) : Prop :=
  bs ≠ [] ∧ ∃ more c, more ≠ [] ∧ bs ++ more = String.utf8EncodeChar c

/-- The lowest second byte that a lead admits is one that it admits. -/
theorem admits_low {b : UInt8} {lead : Lead} (h : lead? b = some lead) :
    ¬(lead.low < lead.low || lead.high < lead.low) := by
  unfold lead? at h
  repeat' split at h
  all_goals cases h
  all_goals decide

/-- What is cut off becomes a character with the lowest bytes that may come after it. -/
theorem exists_completion (h : front bs = .cut) :
    ∃ more c, more ≠ [] ∧ front (bs ++ more) = .char c [] := by
  have hfill : isContinuation 0x80 = true := by decide
  unfold front at h
  repeat' split at h
  all_goals cases h
  · rename_i b _ _ lead hlead _
    have hlow := admits_low hlead
    by_cases hsize₂ : lead.size = 2
    · exact ⟨[lead.low], _, by simp, front_two hlead hlow hsize₂ []⟩
    by_cases hsize₃ : lead.size = 3
    · exact ⟨[lead.low, 0x80], _, by simp, front_three hlead hlow hfill hsize₃ []⟩
    · exact ⟨[lead.low, 0x80, 0x80], _, by simp,
        front_four hlead hlow hfill hfill hsize₂ hsize₃ []⟩
  · rename_i b _ _ lead hlead _ b₂ h₂ hsize₂ _
    by_cases hsize₃ : lead.size = 3
    · exact ⟨[0x80], _, by simp, front_three hlead h₂ hfill hsize₃ []⟩
    · exact ⟨[0x80, 0x80], _, by simp, front_four hlead h₂ hfill hfill hsize₂ hsize₃ []⟩
  · rename_i b _ _ lead hlead _ b₂ h₂ hsize₂ _ b₃ h₃ hsize₃ _
    have h₃' : isContinuation b₃ = true := by simpa using h₃
    exact ⟨[0x80], _, by simp, front_four hlead h₂ h₃' hfill hsize₂ hsize₃ []⟩

theorem front_eq_cut_iff : front bs = .cut ↔ IsStart bs := by
  constructor
  · intro h
    obtain ⟨more, c, hmore, hchar⟩ := exists_completion h
    have hne : bs ≠ [] := by
      rintro rfl
      cases h
    refine ⟨hne, more, c, hmore, ?_⟩
    rw [eq_encode_of_front_char hchar, List.append_nil]
  · rintro ⟨hne, more, c, hmore, h⟩
    exact front_start hne hmore h

theorem unfinished_eq_nil_or_isStart (bs : Bytes) :
    unfinished bs = [] ∨ IsStart (unfinished bs) := by
  rw [← front_eq_cut_iff]
  exact unfinished_eq_nil_or bs

/-- What is unfinished at the end of a sequence is there if any start of an encoding is. -/
theorem unfinished_eq_nil_iff : unfinished bs = [] ↔ ∀ tail, tail <:+ bs → ¬IsStart tail := by
  constructor
  · rintro hnil tail ⟨before, rfl⟩ hstart
    rw [unfinished_eq_of_front_cut before (front_eq_cut_iff.mpr hstart)] at hnil
    exact hstart.1 hnil
  · intro h
    exact (unfinished_eq_nil_or_isStart bs).resolve_right (h _ (unfinished_suffix bs))

/-! ### Safe cuts -/

/-- Whatever comes after it, a sequence is read as the bytes before the cut and then the others. -/
def IsSafeCut (bs : Bytes) (n : Nat) : Prop :=
  ∀ more, lossy (bs ++ more) = lossy (bs.take n) ++ lossy (bs.drop n ++ more)

theorem completeLength_le (bs : Bytes) : completeLength bs ≤ bs.length :=
  Nat.sub_le _ _

theorem length_complete (bs : Bytes) : (complete bs).length = completeLength bs := by
  rw [complete, List.length_take, Nat.min_eq_left (completeLength_le bs)]

theorem isSafeCut_completeLength (bs : Bytes) : IsSafeCut bs (completeLength bs) := by
  intro more
  rw [drop_completeLength]
  exact lossy_append bs more

/-- The start of an encoding at the end is read as one broken part, whatever stands before it. -/
theorem lossy_append_isStart (before : Bytes) {start : Bytes} (h : IsStart start) :
    lossy (before ++ start) = lossy before ++ [replacement] := by
  have hcut := front_eq_cut_iff.mpr h
  have hunfinished := unfinished_eq_of_front_cut before hcut
  have hcomplete : complete (before ++ start) = before := by
    have hwhole := complete_append_unfinished (before ++ start)
    rw [hunfinished] at hwhole
    exact List.append_cancel_right hwhole
  rw [lossy_eq_append, hunfinished, hcomplete, lossy_of_cut hcut]

/-- A character that is taken apart is read as more than that character. -/
theorem lossy_append_ne (before : Bytes) {start rest : Bytes} {c : Char} (hstart : start ≠ [])
    (hrest : rest ≠ []) (h : start ++ rest = String.utf8EncodeChar c) :
    lossy (before ++ start) ++ lossy rest ≠ lossy before ++ [c] := by
  intro heq
  rw [lossy_append_isStart before ⟨hstart, rest, c, hrest, h⟩, List.append_assoc] at heq
  have hcount := congrArg List.length heq
  have hread : 0 < (lossy rest).length := List.length_pos_iff.mpr (mt lossy_eq_nil_iff.mp hrest)
  simp only [List.length_append, List.length_singleton] at hcount
  omega

/-- A cut inside what is unfinished takes a character apart that may still come. -/
theorem not_isSafeCut {n : Nat} (h : completeLength bs < n) (hn : n ≤ bs.length) :
    ¬IsSafeCut bs n := by
  have hwhole := complete_append_unfinished bs
  have hlength := congrArg List.length hwhole
  rw [List.length_append, length_complete] at hlength
  obtain ⟨inside, rfl⟩ : ∃ inside, n = completeLength bs + inside :=
    ⟨n - completeLength bs, by omega⟩
  have hne : unfinished bs ≠ [] := by
    intro hnil
    rw [hnil, List.length_nil] at hlength
    omega
  obtain ⟨-, more, c, hmore, hchar⟩ := (unfinished_eq_nil_or_isStart bs).resolve_left hne
  have htake : bs.take (completeLength bs + inside) =
      complete bs ++ (unfinished bs).take inside := by
    have hsplit : (complete bs ++ unfinished bs).take ((complete bs).length + inside) =
        complete bs ++ (unfinished bs).take inside := List.take_length_add_append inside
    rwa [hwhole, length_complete] at hsplit
  have hdrop : bs.drop (completeLength bs + inside) = (unfinished bs).drop inside := by
    rw [← List.drop_drop, drop_completeLength]
  have hstart : (unfinished bs).take inside ≠ [] := by
    rw [ne_eq, List.take_eq_nil_iff, not_or]
    exact ⟨by omega, hne⟩
  have hsides : (unfinished bs).take inside ++ ((unfinished bs).drop inside ++ more) =
      String.utf8EncodeChar c := by
    rw [← List.append_assoc, List.take_append_drop, hchar]
  have hread : lossy (bs ++ more) = lossy (complete bs) ++ [c] := by
    rw [lossy_append, hchar, ← List.append_nil (String.utf8EncodeChar c),
      lossy_of_char (front_encode c []), lossy_nil]
  intro hsafe
  refine lossy_append_ne (complete bs) hstart (List.append_ne_nil_of_right_ne_nil _ hmore) hsides ?_
  rw [← htake, ← hdrop, ← hsafe more, hread]

/-! ### Finding the cut by checks -/

/--
The cut that is found from a position on. What is left is checked strictly: it is a text, or it is
the start of an encoding after a text, or else the broken part after the text is skipped.
-/
inductive CutFrom (bs : Bytes) : Nat → Nat → Prop where
  | valid {start : Nat} (cs : List Char) (h : bs.drop start = encode cs) :
      CutFrom bs start bs.length
  | truncated {start : Nat} (cs : List Char) {tail : Bytes}
      (h : bs.drop start = encode cs ++ tail) (htail : IsStart tail) :
      CutFrom bs start (start + (encode cs).length)
  | skip {start n : Nat} (cs : List Char) {part rest : Bytes}
      (h : bs.drop start = encode cs ++ (part ++ rest))
      (hpart : front (part ++ rest) = .broken rest)
      (found : CutFrom bs (start + ((encode cs).length + part.length)) n) : CutFrom bs start n

theorem unfinished_encode_append (cs : List Char) (rest : Bytes) :
    unfinished (encode cs ++ rest) = unfinished rest := by
  induction cs with
  | nil => rfl
  | cons c cs ih =>
      rw [encode_cons, List.append_assoc, unfinished_of_char (front_encode c _), ih]

/-- Whatever a search finds, only what is unfinished comes after it. -/
theorem CutFrom.drop_eq {start n : Nat} (h : CutFrom bs start n) :
    bs.drop n = unfinished (bs.drop start) := by
  induction h with
  | valid cs h =>
      have hnone := unfinished_encode_append cs []
      rw [List.append_nil, unfinished_nil] at hnone
      rw [h, hnone, List.drop_length]
  | truncated cs h htail =>
      rw [h, unfinished_encode_append, unfinished_of_cut (front_eq_cut_iff.mpr htail),
        ← List.drop_drop, h, List.drop_left]
  | @skip start n cs part rest h hpart _ ih =>
      have hrest : bs.drop (start + ((encode cs).length + part.length)) = rest := by
        rw [← List.drop_drop, h, ← List.append_assoc, ← List.length_append, List.drop_left]
      rw [ih, h, unfinished_encode_append, unfinished_of_broken hpart, hrest]

theorem CutFrom.le_length {start n : Nat} (h : CutFrom bs start n) (hstart : start ≤ bs.length) :
    n ≤ bs.length := by
  induction h with
  | valid => exact Nat.le_refl _
  | truncated cs h htail =>
      have hlength := congrArg List.length h
      rw [List.length_drop, List.length_append] at hlength
      omega
  | skip cs h hpart _ ih =>
      have hlength := congrArg List.length h
      rw [List.length_drop, List.length_append, List.length_append] at hlength
      exact ih (by omega)

/-- A character in front of what is left belongs to the text that the next check finds. -/
theorem CutFrom.cons {start n : Nat} {c : Char}
    (h : CutFrom bs (start + (String.utf8EncodeChar c).length) n)
    (hstart : bs.drop start =
      String.utf8EncodeChar c ++ bs.drop (start + (String.utf8EncodeChar c).length)) :
    CutFrom bs start n := by
  cases h with
  | valid cs h =>
      refine .valid (c :: cs) ?_
      rw [hstart, h, encode_cons]
  | @truncated _ cs tail h htail =>
      have heq : bs.drop start = encode (c :: cs) ++ tail := by
        rw [hstart, h, encode_cons, List.append_assoc]
      have hfound := CutFrom.truncated (c :: cs) heq htail
      rw [encode_cons, List.length_append, ← Nat.add_assoc] at hfound
      exact hfound
  | @skip _ _ cs part rest h hpart found =>
      have heq : bs.drop start = encode (c :: cs) ++ (part ++ rest) := by
        rw [hstart, h, encode_cons, List.append_assoc]
      refine .skip (c :: cs) heq hpart ?_
      rw [encode_cons, List.length_append, Nat.add_assoc, ← Nat.add_assoc]
      exact found

/-- The search ends: every check leaves less to be checked. -/
theorem exists_cutFrom (bs : Bytes) (start : Nat) : ∃ n, CutFrom bs start n := by
  generalize hleft : bs.drop start = left
  induction left using parts_induction generalizing start with
  | done => exact ⟨_, .valid [] hleft⟩
  | char left c rest h ih =>
      have heq := hleft.trans (eq_encode_of_front_char h)
      have hrest : bs.drop (start + (String.utf8EncodeChar c).length) = rest := by
        rw [← List.drop_drop, heq, List.drop_left]
      obtain ⟨n, hn⟩ := ih _ hrest
      exact ⟨n, hn.cons (by rw [heq, hrest])⟩
  | broken left rest h ih =>
      obtain ⟨part, rfl, -⟩ := front_broken h
      have hrest : bs.drop (start + ((encode []).length + part.length)) = rest := by
        rw [← List.drop_drop, hleft]
        exact List.drop_left' (Nat.zero_add part.length).symm
      obtain ⟨n, hn⟩ := ih _ hrest
      exact ⟨n, .skip [] hleft h hn⟩
  | cut left h => exact ⟨_, .truncated [] hleft (front_eq_cut_iff.mp h)⟩

/-- The search finds what is complete, and nothing else. -/
theorem cutFrom_iff {n : Nat} : CutFrom bs 0 n ↔ n = completeLength bs := by
  have hunique : ∀ m, CutFrom bs 0 m → m = completeLength bs := by
    intro m hm
    have hdrop := congrArg List.length hm.drop_eq
    have hle := hm.le_length (Nat.zero_le _)
    rw [List.drop_zero, List.length_drop] at hdrop
    rw [completeLength]
    omega
  constructor
  · exact hunique n
  · rintro rfl
    obtain ⟨m, hm⟩ := exists_cutFrom bs 0
    exact hunique m hm ▸ hm

/-! ### Main statement -/

/-- What is complete is cut where it ends, unless it looks unfinished when it is taken alone. -/
theorem completeLength_complete_iff :
    completeLength (complete bs) = completeLength bs ↔
      ∀ tail, tail <:+ complete bs → ¬IsStart tail := by
  have hle := (unfinished_suffix (complete bs)).length_le
  rw [← unfinished_eq_nil_iff, ← List.length_eq_zero_iff, completeLength, length_complete]
  rw [length_complete] at hle
  omega

/--
The search for the cut ends for every byte sequence, and it finds the length of what is complete.
This is the largest safe cut. At most three bytes come after it, and if there are any, they are a
proper start of the encoding of a character. What comes before it has its own cut at its end if and
only if no end of it is such a start.
-/
theorem completeLength_isGreatest (bs : Bytes) :
    (∀ n, CutFrom bs 0 n ↔ n = completeLength bs) ∧
    IsGreatest {n | n ≤ bs.length ∧ IsSafeCut bs n} (completeLength bs) ∧
    bs.length - completeLength bs ≤ 3 ∧
    (bs.drop (completeLength bs) = [] ∨ IsStart (bs.drop (completeLength bs))) ∧
    (completeLength (bs.take (completeLength bs)) = completeLength bs ↔
      ∀ tail, tail <:+ bs.take (completeLength bs) → ¬IsStart tail) := by
  refine ⟨fun n => cutFrom_iff, ⟨⟨completeLength_le bs, isSafeCut_completeLength bs⟩, ?_⟩, ?_, ?_,
    completeLength_complete_iff⟩
  · rintro n ⟨hn, hsafe⟩
    exact Nat.le_of_not_lt fun hlt => not_isSafeCut hlt hn hsafe
  · rw [← List.length_drop, drop_completeLength]
    exact length_unfinished_le bs
  · rw [drop_completeLength]
    exact unfinished_eq_nil_or_isStart bs

/-- A letter with the first byte of another one after it, which is left behind. -/
theorem completeLength_isGreatest_letter :
    completeLength [0x61, 0xC3] = 1 ∧ IsStart [0xC3] ∧ completeLength [0x61] = 1 ∧
      ¬IsSafeCut [0x61, 0xC3] 2 := by
  obtain ⟨hfound, ⟨-, hgreatest⟩, -, hstart, hagain⟩ := completeLength_isGreatest [0x61, 0xC3]
  have hchecks : CutFrom [0x61, 0xC3] 0 1 :=
    .truncated ['a'] rfl ⟨by decide, [0xA9], 'é', by decide, by decide⟩
  have hlength := ((hfound 1).mp hchecks).symm
  rw [hlength] at hgreatest hstart hagain
  refine ⟨hlength, hstart.resolve_left (by decide), hagain.mpr ?_, ?_⟩
  · -- The letter alone is a whole encoding, so no end of it starts another one.
    have hletter : unfinished [0x61] = [] := by
      have hfront : front [0x61] = .char 'a' [] := rfl
      rw [unfinished_of_char hfront, unfinished_nil]
    exact unfinished_eq_nil_iff.mp hletter
  · intro hsafe
    have hle := hgreatest ⟨Nat.le_refl 2, hsafe⟩
    omega

/--
Two bytes of the euro sign are broken by the start of another encoding after them, so the cut comes
after them. Taken alone they are the start of an encoding again, and nothing of them is complete.
-/
theorem completeLength_of_truncated :
    completeLength [0xE2, 0x82, 0xC3] = 2 ∧
      completeLength ([0xE2, 0x82, 0xC3].take (completeLength [0xE2, 0x82, 0xC3])) = 0 := by
  have hfirst : completeLength [0xE2, 0x82, 0xC3] = 2 := by
    have hbroken : front ([0xE2, 0x82] ++ [0xC3]) = .broken [0xC3] := rfl
    have hchecks : CutFrom [0xE2, 0x82, 0xC3] 0 2 :=
      .skip [] rfl hbroken (.truncated [] rfl (front_eq_cut_iff.mp rfl))
    exact (cutFrom_iff.mp hchecks).symm
  refine ⟨hfirst, ?_⟩
  rw [hfirst, completeLength, List.take_succ_cons, List.take_succ_cons, List.take_zero,
    unfinished_of_cut rfl]
  rfl

end SaveLint.Text
