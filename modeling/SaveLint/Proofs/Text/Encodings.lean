import SaveLint.Text.Utf8

/-!
# The front of a byte sequence

What stands at the front of a byte sequence is a part of it: a first byte with continuation bytes
after it. Whether the part is a character is known from the part alone (`front_char`), and whether
it is broken is known from the part and the byte after it (`front_broken`). Only the start of an
encoding leaves open what comes next (`front_cut`).

The encoding of a character is read as that character (`front_encode`), so reading is what encoding
undoes, and a proper start of an encoding is always cut off (`front_start`).
-/

namespace SaveLint.Text

/-! ### Leads -/

/-- A lead is above every continuation byte, and the byte after it has to be one. -/
theorem lead?_bounds {b : UInt8} {lead : Lead} (h : lead? b = some lead) :
    0xC2 ≤ b ∧ 0x80 ≤ lead.low ∧ lead.high ≤ 0xBF := by
  unfold lead? at h
  split at h
  · cases h
  · rename_i hb
    refine ⟨UInt8.not_lt.mp hb, ?_⟩
    repeat' split at h
    all_goals cases h
    all_goals decide

section Lead

variable {b b₂ b₃ b₄ : UInt8} {lead : Lead} (h : lead? b = some lead)

include h

theorem not_lt_of_lead? : ¬b < 0x80 := by
  obtain ⟨hb, -, -⟩ := lead?_bounds h
  grind

theorem isContinuation_of_lead? : isContinuation b = false := by
  obtain ⟨hb, -, -⟩ := lead?_bounds h
  simp only [isContinuation, Bool.and_eq_false_iff, decide_eq_false_iff_not]
  grind

variable (h₂ : ¬(b₂ < lead.low || lead.high < b₂))

include h₂

theorem isContinuation_second : isContinuation b₂ = true := by
  obtain ⟨-, hlow, hhigh⟩ := lead?_bounds h
  simp only [isContinuation, Bool.and_eq_true, Bool.or_eq_true, decide_eq_true_eq] at h₂ ⊢
  grind

theorem front_two (hsize : lead.size = 2) (more : Bytes) :
    front (b :: b₂ :: more) = .char (Char.ofNat (b.toNat % 32 * 64 + payload b₂)) more := by
  simp [front, not_lt_of_lead? h, h, h₂, hsize]

theorem front_three (h₃ : isContinuation b₃ = true) (hsize : lead.size = 3) (more : Bytes) :
    front (b :: b₂ :: b₃ :: more) =
      .char (Char.ofNat ((b.toNat % 16 * 64 + payload b₂) * 64 + payload b₃)) more := by
  simp [front, not_lt_of_lead? h, h, h₂, h₃, hsize]

theorem front_four (h₃ : isContinuation b₃ = true) (h₄ : isContinuation b₄ = true)
    (hsize₂ : lead.size ≠ 2) (hsize₃ : lead.size ≠ 3) (more : Bytes) :
    front (b :: b₂ :: b₃ :: b₄ :: more) =
      .char (Char.ofNat
        (((b.toNat % 8 * 64 + payload b₂) * 64 + payload b₃) * 64 + payload b₄)) more := by
  simp [front, not_lt_of_lead? h, h, h₂, h₃, h₄, hsize₂, hsize₃]

end Lead

/-! ### Parts -/

/-- A first byte, and continuation bytes after it. -/
def IsPart (bs : Bytes) : Prop :=
  ∃ first tail, bs = first :: tail ∧ ∀ b ∈ tail, isContinuation b = true

/-- A character at the front is the same whatever comes after it. -/
theorem front_char {bs rest : Bytes} {c : Char} (h : front bs = .char c rest) :
    ∃ part, bs = part ++ rest ∧ IsPart part ∧ ∀ more, front (part ++ more) = .char c more := by
  unfold front at h
  repeat' split at h
  all_goals cases h
  · rename_i b hb
    exact ⟨[b], rfl, ⟨b, [], rfl, by simp⟩, fun more => by simp [front, hb]⟩
  · rename_i b _ _ lead hlead _ b₂ h₂ hsize
    have := isContinuation_second hlead h₂
    exact ⟨[b, b₂], rfl, ⟨b, [b₂], rfl, by simp [this]⟩, front_two hlead h₂ hsize⟩
  · rename_i b _ _ lead hlead _ b₂ h₂ _ _ b₃ h₃ hsize
    have := isContinuation_second hlead h₂
    simp only [Bool.not_eq_true', Bool.not_eq_false] at h₃
    exact ⟨[b, b₂, b₃], rfl, ⟨b, [b₂, b₃], rfl, by simp [this, h₃]⟩,
      front_three hlead h₂ h₃ hsize⟩
  · rename_i b _ _ lead hlead _ b₂ h₂ hsize₂ _ b₃ h₃ hsize₃ _ b₄ h₄
    have := isContinuation_second hlead h₂
    simp only [Bool.not_eq_true', Bool.not_eq_false] at h₃ h₄
    exact ⟨[b, b₂, b₃, b₄], rfl, ⟨b, [b₂, b₃, b₄], rfl, by simp [this, h₃, h₄]⟩,
      front_four hlead h₂ h₃ h₄ hsize₂ hsize₃⟩

/--
A broken part at the front is known by the byte after it. Without that byte it is either broken
still, or it looks like the start of an encoding.
-/
theorem front_broken {bs rest : Bytes} (h : front bs = .broken rest) :
    ∃ part, bs = part ++ rest ∧ IsPart part ∧
      (∀ more, rest = [] ∨ more.head? = rest.head? → front (part ++ more) = .broken more) ∧
      (front part = .broken [] ∨ front part = .cut) := by
  unfold front at h
  repeat' split at h
  all_goals cases h
  · rename_i b hb _ hlead
    exact ⟨[b], rfl, ⟨b, [], rfl, by simp⟩, fun more _ => by simp [front, hb, hlead],
      .inl (by simp [front, hb, hlead])⟩
  · rename_i b hb _ lead hlead _ b₂ rest₂ h₂
    refine ⟨[b], rfl, ⟨b, [], rfl, by simp⟩, fun more hmore => ?_,
      .inr (by simp [front, hb, hlead])⟩
    obtain ⟨more, rfl⟩ := List.head?_eq_some_iff.mp (hmore.resolve_left (List.cons_ne_nil _ _))
    simp [front, hb, hlead, h₂]
  · rename_i b hb _ lead hlead _ b₂ h₂ hsize₂ _ b₃ rest₃ h₃
    have := isContinuation_second hlead h₂
    refine ⟨[b, b₂], rfl, ⟨b, [b₂], rfl, by simp [this]⟩, fun more hmore => ?_,
      .inr (by simp [front, hb, hlead, h₂, hsize₂])⟩
    obtain ⟨more, rfl⟩ := List.head?_eq_some_iff.mp (hmore.resolve_left (List.cons_ne_nil _ _))
    simp [front, hb, hlead, h₂, hsize₂, h₃]
  · rename_i b hb _ lead hlead _ b₂ h₂ hsize₂ _ b₃ h₃ hsize₃ _ b₄ rest₄ h₄
    have := isContinuation_second hlead h₂
    refine ⟨[b, b₂, b₃], rfl, ⟨b, [b₂, b₃], rfl, by simpa [this] using h₃⟩,
      fun more hmore => ?_, .inr (by simp [front, hb, hlead, h₂, hsize₂, h₃, hsize₃])⟩
    obtain ⟨more, rfl⟩ := List.head?_eq_some_iff.mp (hmore.resolve_left (List.cons_ne_nil _ _))
    simp [front, hb, hlead, h₂, hsize₂, h₃, hsize₃, h₄]

/-- The start of an encoding is short, and its first byte is no continuation byte. -/
theorem front_cut {bs : Bytes} (h : front bs = .cut) :
    bs.length ≤ 3 ∧ ∃ first tail, bs = first :: tail ∧ isContinuation first = false ∧
      ∀ b ∈ tail, isContinuation b = true := by
  unfold front at h
  repeat' split at h
  all_goals cases h
  · rename_i b _ _ lead hlead _
    exact ⟨by simp, b, [], rfl, isContinuation_of_lead? hlead, by simp⟩
  · rename_i b _ _ lead hlead _ b₂ h₂ _ _
    have := isContinuation_second hlead h₂
    exact ⟨by simp, b, [b₂], rfl, isContinuation_of_lead? hlead, by simp [this]⟩
  · rename_i b _ _ lead hlead _ b₂ h₂ _ _ b₃ h₃ _ _
    have := isContinuation_second hlead h₂
    exact ⟨by simp, b, [b₂, b₃], rfl, isContinuation_of_lead? hlead, by simpa [this] using h₃⟩

/-! ### Encodings -/

theorem lead?_ofNat {n : Nat} (h : n < 256) : lead? (UInt8.ofNat n) =
    if n < 0xC2 then none
    else if n < 0xE0 then some ⟨2, 0x80, 0xBF⟩
    else if n = 0xE0 then some ⟨3, 0xA0, 0xBF⟩
    else if n = 0xED then some ⟨3, 0x80, 0x9F⟩
    else if n < 0xF0 then some ⟨3, 0x80, 0xBF⟩
    else if n = 0xF0 then some ⟨4, 0x90, 0xBF⟩
    else if n < 0xF4 then some ⟨4, 0x80, 0xBF⟩
    else if n = 0xF4 then some ⟨4, 0x80, 0x8F⟩
    else none := by
  simp only [lead?, UInt8.lt_iff_toNat_lt, ← UInt8.toNat_inj, UInt8.toNat_ofNat_of_lt' h,
    UInt8.reduceToNat]

theorem isContinuation_ofNat (n : Nat) : isContinuation (UInt8.ofNat (n % 64 + 128)) = true := by
  have hn : n % 64 + 128 < 256 := by omega
  simp only [isContinuation, UInt8.le_iff_toNat_le, UInt8.toNat_ofNat_of_lt' hn, UInt8.reduceToNat,
    Bool.and_eq_true, decide_eq_true_eq]
  omega

theorem payload_ofNat (n : Nat) : payload (UInt8.ofNat (n % 64 + 128)) = n % 64 := by
  have hn : n % 64 + 128 < 256 := by omega
  rw [payload, UInt8.toNat_ofNat_of_lt' hn]
  omega

theorem second_ofNat {low high : UInt8} {n : Nat} (hlow : low.toNat ≤ n % 64 + 128)
    (hhigh : n % 64 + 128 ≤ high.toNat) :
    ¬(UInt8.ofNat (n % 64 + 128) < low || high < UInt8.ofNat (n % 64 + 128)) := by
  have hn : n % 64 + 128 < 256 := by omega
  simp only [UInt8.lt_iff_toNat_lt, UInt8.toNat_ofNat_of_lt' hn, Bool.or_eq_true,
    decide_eq_true_eq]
  omega

/-- The lead of an encoding, with the byte after it. -/
def Leads (size first second : Nat) : Prop :=
  ∃ lead, lead? (UInt8.ofNat first) = some lead ∧
    ¬(UInt8.ofNat second < lead.low || lead.high < UInt8.ofNat second) ∧ lead.size = size

theorem leads_two {n : Nat} (h : 0x80 ≤ n) (h' : n < 0x800) :
    Leads 2 (n / 64 % 32 + 192) (n % 64 + 128) := by
  refine ⟨⟨2, 0x80, 0xBF⟩, ?_, second_ofNat (by simp) (by simp; omega), rfl⟩
  rw [lead?_ofNat (by omega), if_neg (by omega), if_pos (by omega)]

theorem leads_three {n : Nat} (h : 0x800 ≤ n) (h' : n < 0x10000)
    (hvalid : n < 0xD800 ∨ 0xDFFF < n) :
    Leads 3 (n / 4096 % 16 + 224) (n / 64 % 64 + 128) := by
  rw [Leads, lead?_ofNat (by omega), if_neg (by omega), if_neg (by omega)]
  by_cases h0 : n / 4096 % 16 + 224 = 0xE0
  · exact ⟨_, if_pos h0, second_ofNat (by simp; omega) (by simp; omega), rfl⟩
  by_cases hd : n / 4096 % 16 + 224 = 0xED
  · rw [if_neg h0, if_pos hd]
    exact ⟨_, rfl, second_ofNat (by simp) (by simp; omega), rfl⟩
  · rw [if_neg h0, if_neg hd, if_pos (by omega)]
    exact ⟨_, rfl, second_ofNat (by simp) (by simp; omega), rfl⟩

theorem leads_four {n : Nat} (h : 0x10000 ≤ n) (h' : n < 0x110000) :
    Leads 4 (n / 262144 % 8 + 240) (n / 4096 % 64 + 128) := by
  rw [Leads, lead?_ofNat (by omega), if_neg (by omega), if_neg (by omega), if_neg (by omega),
    if_neg (by omega), if_neg (by omega)]
  by_cases h0 : n / 262144 % 8 + 240 = 0xF0
  · exact ⟨_, if_pos h0, second_ofNat (by simp; omega) (by simp; omega), rfl⟩
  by_cases h4 : n / 262144 % 8 + 240 = 0xF4
  · rw [if_neg h0, if_neg (by omega), if_pos h4]
    exact ⟨_, rfl, second_ofNat (by simp) (by simp; omega), rfl⟩
  · rw [if_neg h0, if_pos (by omega)]
    exact ⟨_, rfl, second_ofNat (by simp) (by simp; omega), rfl⟩

/-- The encoding of a character is read as that character. -/
theorem front_encode (c : Char) (more : Bytes) :
    front (String.utf8EncodeChar c ++ more) = .char c more := by
  have hvalid : c.val.toNat < 0xD800 ∨ (0xDFFF < c.val.toNat ∧ c.val.toNat < 0x110000) := c.valid
  have hc : Char.ofNat c.val.toNat = c := c.ofNat_toNat
  unfold String.utf8EncodeChar
  generalize c.val.toNat = n at hvalid hc
  subst hc
  dsimp only
  split
  · have hn : n < 256 := by omega
    have hlt : UInt8.ofNat n < 0x80 := by
      simp only [UInt8.lt_iff_toNat_lt, UInt8.toNat_ofNat_of_lt' hn, UInt8.reduceToNat]
      omega
    simp [front, hlt, Nat.mod_eq_of_lt hn]
  split
  · obtain ⟨lead, h, h₂, hsize⟩ := leads_two (n := n) (by omega) (by omega)
    have hn : n / 64 % 32 + 192 < 256 := by omega
    refine (front_two h h₂ hsize more).trans ?_
    rw [payload_ofNat, UInt8.toNat_ofNat_of_lt' hn]
    congr 2
    omega
  split
  · obtain ⟨lead, h, h₂, hsize⟩ := leads_three (n := n) (by omega) (by omega) (by omega)
    have hn : n / 4096 % 16 + 224 < 256 := by omega
    refine (front_three h h₂ (isContinuation_ofNat n) hsize more).trans ?_
    rw [payload_ofNat, payload_ofNat, UInt8.toNat_ofNat_of_lt' hn]
    congr 2
    omega
  · obtain ⟨lead, h, h₂, hsize⟩ := leads_four (n := n) (by omega) (by omega)
    have hn : n / 262144 % 8 + 240 < 256 := by omega
    refine (front_four h h₂ (isContinuation_ofNat _) (isContinuation_ofNat n) (by omega) (by omega)
      more).trans ?_
    rw [payload_ofNat, payload_ofNat, payload_ofNat, UInt8.toNat_ofNat_of_lt' hn]
    congr 2
    omega

theorem eq_nil_of_front_done {bs : Bytes} (h : front bs = .done) : bs = [] := by
  unfold front at h
  repeat' split at h
  all_goals first | rfl | cases h

/-- An encoding is one part. -/
theorem isPart_encode (c : Char) : IsPart (String.utf8EncodeChar c) := by
  obtain ⟨part, hpart, h, -⟩ := front_char (front_encode c [])
  rw [List.append_nil, List.append_nil] at hpart
  exact hpart ▸ h

/-- A proper start of an encoding is cut off. -/
theorem front_start {start more : Bytes} {c : Char} (hstart : start ≠ []) (hmore : more ≠ [])
    (h : start ++ more = String.utf8EncodeChar c) : front start = .cut := by
  have hwhole : front (start ++ more) = .char c [] := by
    rw [h, ← List.append_nil (String.utf8EncodeChar c)]
    exact front_encode c []
  cases hfront : front start with
  | done => exact absurd (eq_nil_of_front_done hfront) hstart
  | cut => rfl
  | char c' rest =>
      obtain ⟨part, rfl, -, hpart⟩ := front_char hfront
      rw [List.append_assoc, hpart] at hwhole
      simp [hmore] at hwhole
  | broken rest =>
      obtain ⟨part, rfl, -, hpart, -⟩ := front_broken hfront
      rw [List.append_assoc, hpart _ (by cases rest <;> simp)] at hwhole
      cases hwhole

end SaveLint.Text
