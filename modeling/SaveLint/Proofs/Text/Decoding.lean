import SaveLint.Proofs.Text.Lossy

/-!
# The strict reading

Reading strictly is the inverse of encoding, in both directions: what is read as a character is the
encoding of that character (`eq_encode_of_front_char`), so a byte sequence that is read as a text is
the encoding of that text and of no other (`stringOf?_eq_some_iff`). Which bytes are a text is thus
known from the encodings alone.
-/

namespace SaveLint

namespace Text

/-! ### Encodings by their size -/

theorem toNat_val_ofNat {n : Nat} (h : n.isValidChar) : (Char.ofNat n).val.toNat = n := by
  rw [Char.ofNat, dif_pos h]
  rfl

theorem encodeChar_one {n : Nat} (h : n < 0x80) :
    String.utf8EncodeChar (Char.ofNat n) = [UInt8.ofNat n] := by
  rw [String.utf8EncodeChar, toNat_val_ofNat (.inl (by omega))]
  exact if_pos (by omega)

theorem encodeChar_two {n : Nat} (h : 0x80 ≤ n) (h' : n < 0x800) :
    String.utf8EncodeChar (Char.ofNat n) =
      [UInt8.ofNat (n / 64 % 32 + 192), UInt8.ofNat (n % 64 + 128)] := by
  rw [String.utf8EncodeChar, toNat_val_ofNat (.inl (by omega))]
  exact (if_neg (by omega)).trans (if_pos (by omega))

theorem encodeChar_three {n : Nat} (h : 0x800 ≤ n) (h' : n < 0x10000) (hvalid : n.isValidChar) :
    String.utf8EncodeChar (Char.ofNat n) = [UInt8.ofNat (n / 4096 % 16 + 224),
      UInt8.ofNat (n / 64 % 64 + 128), UInt8.ofNat (n % 64 + 128)] := by
  rw [String.utf8EncodeChar, toNat_val_ofNat hvalid]
  exact ((if_neg (by omega)).trans (if_neg (by omega))).trans (if_pos (by omega))

theorem encodeChar_four {n : Nat} (h : 0x10000 ≤ n) (h' : n < 0x110000) :
    String.utf8EncodeChar (Char.ofNat n) = [UInt8.ofNat (n / 262144 % 8 + 240),
      UInt8.ofNat (n / 4096 % 64 + 128), UInt8.ofNat (n / 64 % 64 + 128),
      UInt8.ofNat (n % 64 + 128)] := by
  rw [String.utf8EncodeChar, toNat_val_ofNat (.inr ⟨by omega, h'⟩)]
  exact ((if_neg (by omega)).trans (if_neg (by omega))).trans (if_neg (by omega))

/-! ### The numbers of bytes -/

theorem ofNat_eq_of_toNat {b : UInt8} {n : Nat} (h : n = b.toNat) : UInt8.ofNat n = b := by
  rw [h, UInt8.ofNat_toNat]

theorem toNat_of_isContinuation {b : UInt8} (h : isContinuation b = true) :
    0x80 ≤ b.toNat ∧ b.toNat ≤ 0xBF := by
  simpa [isContinuation, UInt8.le_iff_toNat_le] using h

/-- What a lead says about the first two bytes. -/
theorem lead?_numbers {b b₂ : UInt8} {lead : Lead} (h : lead? b = some lead)
    (h₂ : ¬(b₂ < lead.low || lead.high < b₂)) :
    0x80 ≤ b₂.toNat ∧ b₂.toNat ≤ 0xBF ∧
    ((lead.size = 2 ∧ 0xC2 ≤ b.toNat ∧ b.toNat ≤ 0xDF) ∨
      (lead.size = 3 ∧ 0xE0 ≤ b.toNat ∧ b.toNat ≤ 0xEF ∧ (b.toNat = 0xE0 → 0xA0 ≤ b₂.toNat) ∧
        (b.toNat = 0xED → b₂.toNat ≤ 0x9F)) ∨
      (lead.size = 4 ∧ 0xF0 ≤ b.toNat ∧ b.toNat ≤ 0xF4 ∧ (b.toNat = 0xF0 → 0x90 ≤ b₂.toNat) ∧
        (b.toNat = 0xF4 → b₂.toNat ≤ 0x8F))) := by
  rw [← UInt8.ofNat_toNat (x := b), lead?_ofNat b.toNat_lt] at h
  simp only [Bool.or_eq_true, decide_eq_true_eq, UInt8.lt_iff_toNat_lt, not_or, Nat.not_lt] at h₂
  repeat' split at h
  all_goals cases h
  all_goals
    simp only [UInt8.reduceToNat] at h₂
    dsimp only
    omega

/-! ### What is read is what was encoded -/

/-- What is read as a character is its encoding. -/
theorem eq_encode_of_front_char {bs rest : Bytes} {c : Char} (h : front bs = .char c rest) :
    bs = String.utf8EncodeChar c ++ rest := by
  unfold front at h
  repeat' split at h
  all_goals cases h
  · rename_i b hb
    have hn : b.toNat < 0x80 := by simpa [UInt8.lt_iff_toNat_lt] using hb
    rw [encodeChar_one hn, UInt8.ofNat_toNat]
    rfl
  · rename_i b _ _ lead hlead _ b₂ h₂ hsize
    obtain ⟨hlow, hhigh, hb⟩ := lead?_numbers hlead h₂
    unfold payload
    rw [encodeChar_two (by omega) (by omega), ofNat_eq_of_toNat (b := b) (by omega),
      ofNat_eq_of_toNat (b := b₂) (by omega)]
    rfl
  · rename_i b _ _ lead hlead _ b₂ h₂ _ _ b₃ h₃ hsize
    obtain ⟨hlow, hhigh, hb⟩ := lead?_numbers hlead h₂
    obtain ⟨hlow₃, hhigh₃⟩ := toNat_of_isContinuation (by simpa using h₃)
    unfold payload
    rw [encodeChar_three (by omega) (by omega) (by rw [Nat.isValidChar]; omega),
      ofNat_eq_of_toNat (b := b) (by omega), ofNat_eq_of_toNat (b := b₂) (by omega),
      ofNat_eq_of_toNat (b := b₃) (by omega)]
    rfl
  · rename_i b _ _ lead hlead _ b₂ h₂ hsize₂ _ b₃ h₃ hsize₃ _ b₄ h₄
    obtain ⟨hlow, hhigh, hb⟩ := lead?_numbers hlead h₂
    obtain ⟨hlow₃, hhigh₃⟩ := toNat_of_isContinuation (by simpa using h₃)
    obtain ⟨hlow₄, hhigh₄⟩ := toNat_of_isContinuation (by simpa using h₄)
    unfold payload
    rw [encodeChar_four (by omega) (by omega), ofNat_eq_of_toNat (b := b) (by omega),
      ofNat_eq_of_toNat (b := b₂) (by omega), ofNat_eq_of_toNat (b := b₃) (by omega),
      ofNat_eq_of_toNat (b := b₄) (by omega)]
    rfl

theorem eq_encode_of_decodeOnto {read cs : List Char} {bs : Bytes}
    (h : decodeOnto read bs = some cs) : ∃ more, cs = read.reverse ++ more ∧ bs = encode more := by
  fun_induction decodeOnto read bs with
  | case1 read bs hfront =>
      cases h
      exact ⟨[], (List.append_nil _).symm, eq_nil_of_front_done hfront⟩
  | case2 read bs c rest hfront ih =>
      obtain ⟨more, rfl, rfl⟩ := ih h
      refine ⟨c :: more, by simp, ?_⟩
      exact (eq_encode_of_front_char hfront).trans List.flatMap_cons.symm
  | case3 => cases h
  | case4 => cases h

end Text

/-- A byte sequence is read strictly as a text exactly if it is the encoding of that text. -/
theorem stringOf?_eq_some_iff {bs : Bytes} {s : String} :
    stringOf? bs = some s ↔ bs = bytesOf s := by
  constructor
  · intro h
    obtain ⟨cs, hcs, rfl⟩ := Option.map_eq_some_iff.mp h
    obtain ⟨more, rfl, rfl⟩ := Text.eq_encode_of_decodeOnto hcs
    rw [Text.bytesOf_eq_encode, String.toList_ofList]
  · rintro rfl
    exact Text.stringOf?_bytesOf s

end SaveLint
