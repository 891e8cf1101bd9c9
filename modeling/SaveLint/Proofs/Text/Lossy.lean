import SaveLint.Proofs.Text.Encodings

/-!
# The lossy reading and its cut

A byte sequence falls into parts, from its front on, and at its end there may be the start of an
encoding that is not finished. `complete` is what stands before it, and `unfinished` is the start
itself. The cut between them is safe: the lossy reading of the whole is that of the two sides, one
after the other, whatever bytes are still to come (`lossy_append`), and more bytes only ever change
the unfinished side (`unfinished_append`).

That the cut splits no character is said without the reading, by the encodings alone (`Splits`).
-/

namespace SaveLint.Text

/-! ### Reading part after part -/

/-- Induction on the parts of a byte sequence, from its front on. -/
@[elab_as_elim]
theorem parts_induction {motive : Bytes → Prop} (bs : Bytes) (done : motive [])
    (char : ∀ bs c rest, front bs = .char c rest → motive rest → motive bs)
    (broken : ∀ bs rest, front bs = .broken rest → motive rest → motive bs)
    (cut : ∀ bs, front bs = .cut → motive bs) : motive bs := by
  induction hn : bs.length using Nat.strongRecOn generalizing bs with
  | _ n ih =>
    subst hn
    cases h : front bs with
    | done => exact eq_nil_of_front_done h ▸ done
    | char c rest => exact char bs c rest h (ih _ (length_rest_of_front_char h) rest rfl)
    | broken rest => exact broken bs rest h (ih _ (length_rest_of_front_broken h) rest rfl)
    | cut => exact cut bs h

/-- What was read before stays in front. -/
theorem lossyOnto_append (read before : List Char) (bs : Bytes) :
    lossyOnto (read ++ before) bs = before.reverse ++ lossyOnto read bs := by
  fun_induction lossyOnto read bs <;> (rw [lossyOnto]; split <;> simp_all)

theorem lossyOnto_eq (read : List Char) (bs : Bytes) :
    lossyOnto read bs = read.reverse ++ lossy bs :=
  lossyOnto_append [] read bs

section Equations

variable {bs rest : Bytes} {c : Char}

@[simp] theorem lossy_nil : lossy [] = [] := by
  rw [lossy, lossyOnto]; rfl

theorem lossy_of_char (h : front bs = .char c rest) : lossy bs = c :: lossy rest := by
  rw [lossy, lossyOnto]
  split <;> simp_all [lossyOnto_eq]

theorem lossy_of_broken (h : front bs = .broken rest) : lossy bs = replacement :: lossy rest := by
  rw [lossy, lossyOnto]
  split <;> simp_all [lossyOnto_eq]

theorem lossy_of_cut (h : front bs = .cut) : lossy bs = [replacement] := by
  rw [lossy, lossyOnto]
  split <;> simp_all

@[simp] theorem unfinished_nil : unfinished [] = [] := by
  rw [unfinished]; rfl

theorem unfinished_of_char (h : front bs = .char c rest) : unfinished bs = unfinished rest := by
  rw [unfinished]
  split <;> simp_all

theorem unfinished_of_broken (h : front bs = .broken rest) : unfinished bs = unfinished rest := by
  rw [unfinished]
  split <;> simp_all

theorem unfinished_of_cut (h : front bs = .cut) : unfinished bs = bs := by
  rw [unfinished]
  split <;> simp_all

end Equations

theorem lossy_eq_nil_iff {bs : Bytes} : lossy bs = [] ↔ bs = [] := by
  refine ⟨fun h => ?_, fun h => h ▸ lossy_nil⟩
  cases hfront : front bs with
  | done => exact eq_nil_of_front_done hfront
  | char c rest => simp [lossy_of_char hfront] at h
  | broken rest => simp [lossy_of_broken hfront] at h
  | cut => simp [lossy_of_cut hfront] at h

/-! ### The cut -/

/-- What stands before an unfinished encoding at the end. -/
def complete (bs : Bytes) : Bytes := bs.take (completeLength bs)

@[simp] theorem complete_nil : complete [] = [] := List.take_nil

theorem unfinished_suffix (bs : Bytes) : unfinished bs <:+ bs := by
  induction bs using parts_induction with
  | done => simp
  | char bs c rest h ih =>
      obtain ⟨part, rfl, -⟩ := front_char h
      rw [unfinished_of_char h]
      exact ih.trans (List.suffix_append part rest)
  | broken bs rest h ih =>
      obtain ⟨part, rfl, -⟩ := front_broken h
      rw [unfinished_of_broken h]
      exact ih.trans (List.suffix_append part rest)
  | cut bs h => simp only [unfinished_of_cut h, List.suffix_refl]

theorem drop_completeLength (bs : Bytes) : bs.drop (completeLength bs) = unfinished bs := by
  obtain ⟨before, h⟩ := unfinished_suffix bs
  have hlen : completeLength bs = before.length := by
    have := congrArg List.length h
    rw [List.length_append] at this
    rw [completeLength]
    omega
  rw [hlen]
  conv => lhs; rw [← h]
  exact List.drop_left

theorem complete_append_unfinished (bs : Bytes) : complete bs ++ unfinished bs = bs := by
  rw [← drop_completeLength, complete, List.take_append_drop]

theorem complete_eq_nil_iff {bs : Bytes} : complete bs = [] ↔ completeLength bs = 0 := by
  have h := congrArg List.length (complete_append_unfinished bs)
  rw [List.length_append] at h
  rw [← List.length_eq_zero_iff, completeLength]
  omega

/-- Parts before the unfinished encoding are all complete. -/
theorem complete_append {part rest : Bytes} (h : unfinished (part ++ rest) = unfinished rest) :
    complete (part ++ rest) = part ++ complete rest := by
  have hwhole :
      complete (part ++ rest) ++ unfinished rest = part ++ complete rest ++ unfinished rest := by
    rw [List.append_assoc, complete_append_unfinished, ← h, complete_append_unfinished]
  exact List.append_cancel_right hwhole

/-- What is unfinished is nothing, or the start of an encoding. -/
theorem unfinished_eq_nil_or (bs : Bytes) : unfinished bs = [] ∨ front (unfinished bs) = .cut := by
  induction bs using parts_induction with
  | done => exact .inl unfinished_nil
  | char bs c rest h ih => rwa [unfinished_of_char h]
  | broken bs rest h ih => rwa [unfinished_of_broken h]
  | cut bs h => rw [unfinished_of_cut h]; exact .inr h

theorem length_unfinished_le (bs : Bytes) : (unfinished bs).length ≤ 3 := by
  rcases unfinished_eq_nil_or bs with h | h
  · simp [h]
  · exact (front_cut h).1

/-- More bytes only change what was unfinished. -/
theorem unfinished_append (bs more : Bytes) :
    unfinished (bs ++ more) = unfinished (unfinished bs ++ more) := by
  induction bs using parts_induction with
  | done => rw [unfinished_nil]
  | char bs c rest h ih =>
      rw [unfinished_of_char h, ← ih]
      obtain ⟨part, rfl, -, hpart⟩ := front_char h
      rw [List.append_assoc, unfinished_of_char (hpart (rest ++ more))]
  | broken bs rest h ih =>
      rw [unfinished_of_broken h, ← ih]
      obtain ⟨part, rfl, -, hpart, -⟩ := front_broken h
      rw [List.append_assoc, unfinished_of_broken (hpart (rest ++ more) (by cases rest <;> simp))]
  | cut bs h => rw [unfinished_of_cut h]

theorem complete_append_eq (bs more : Bytes) :
    complete (bs ++ more) = complete bs ++ complete (unfinished bs ++ more) := by
  have h := unfinished_append bs more
  conv at h => lhs; rw [← complete_append_unfinished bs, List.append_assoc]
  rw [← complete_append h, ← List.append_assoc, complete_append_unfinished]

/--
The cut is safe: the lossy reading of a sequence with more bytes after it is that of the complete
side, and then that of what is unfinished with these bytes.
-/
theorem lossy_append (bs more : Bytes) :
    lossy (bs ++ more) = lossy (complete bs) ++ lossy (unfinished bs ++ more) := by
  induction bs using parts_induction with
  | done => rw [unfinished_nil, complete_nil, lossy_nil]; rfl
  | char bs c rest h ih =>
      have hunfinished := unfinished_of_char h
      obtain ⟨part, rfl, -, hpart⟩ := front_char h
      rw [List.append_assoc, lossy_of_char (hpart _), ih, hunfinished, complete_append hunfinished,
        lossy_of_char (hpart _), List.cons_append]
  | broken bs rest h ih =>
      have hunfinished := unfinished_of_broken h
      obtain ⟨part, rfl, -, hpart, halone⟩ := front_broken h
      have hmore : lossy (part ++ (rest ++ more)) = replacement :: lossy (rest ++ more) :=
        lossy_of_broken (hpart _ (by cases rest <;> simp))
      -- When nothing complete follows the part, the byte that has shown it broken is missing.
      have hcomplete : lossy (part ++ complete rest) = replacement :: lossy (complete rest) := by
        cases hrest : complete rest with
        | nil =>
            rw [List.append_nil, lossy_nil]
            rcases halone with halone | halone
            · rw [lossy_of_broken halone, lossy_nil]
            · exact lossy_of_cut halone
        | cons b bs =>
            refine lossy_of_broken (hpart _ (.inr ?_))
            rw [← complete_append_unfinished rest, hrest]
            rfl
      rw [List.append_assoc, hmore, ih, hunfinished, complete_append hunfinished, hcomplete,
        List.cons_append]
  | cut bs h =>
      have hcomplete : complete bs = [] :=
        List.append_left_eq_self.mp
          ((congrArg (complete bs ++ ·) (unfinished_of_cut h)).symm.trans
            (complete_append_unfinished bs))
      rw [hcomplete, unfinished_of_cut h, lossy_nil, List.nil_append]

theorem lossy_eq_append (bs : Bytes) : lossy bs = lossy (complete bs) ++ lossy (unfinished bs) := by
  simpa using lossy_append bs []

/-- What is complete of a sequence may be read in two pieces, with more bytes coming in between. -/
theorem lossy_complete_append (bs more : Bytes) :
    lossy (complete (bs ++ more)) =
      lossy (complete bs) ++ lossy (complete (unfinished bs ++ more)) := by
  have h := lossy_append bs more
  rw [lossy_eq_append (bs ++ more), lossy_eq_append (unfinished bs ++ more), ← unfinished_append,
    ← List.append_assoc] at h
  exact List.append_cancel_right h

/-! ### Texts -/

theorem encode_cons (c : Char) (cs : List Char) :
    encode (c :: cs) = String.utf8EncodeChar c ++ encode cs :=
  List.flatMap_cons

/-- Reading undoes encoding. -/
theorem lossy_encode (cs : List Char) : lossy (encode cs) = cs := by
  induction cs with
  | nil => exact lossy_nil
  | cons c cs ih =>
      rw [encode_cons, lossy_of_char (front_encode c _), ih]

theorem byteArray_loop_eq (bytes : ByteArray) (i : Nat) (read : Bytes) :
    ByteArray.toList.loop bytes i read = read.reverse ++ bytes.data.toList.drop i := by
  fun_induction ByteArray.toList.loop bytes i read with
  | case1 i read h ih =>
      have hi : i < bytes.data.toList.length := by simpa using h
      rw [ih, List.drop_eq_getElem_cons hi]
      simp [ByteArray.get!, h]
  | case2 i read h =>
      have hi : bytes.data.toList.length ≤ i := by simpa using h
      rw [List.drop_eq_nil_of_le hi, List.append_nil]

theorem bytesOf_eq_encode (s : String) : bytesOf s = encode s.toList := by
  have hbytes : s.toUTF8 = (encode s.toList).toByteArray := by
    conv => lhs; rw [← String.ofList_toList (s := s)]
    exact String.toByteArray_ofList
  rw [bytesOf, hbytes, ByteArray.toList, byteArray_loop_eq, List.toList_data_toByteArray]
  rfl

theorem lossyString_bytesOf (s : String) : lossyString (bytesOf s) = s := by
  rw [lossyString, bytesOf_eq_encode, lossy_encode, String.ofList_toList]

theorem decodeOnto_encode (read cs : List Char) :
    decodeOnto read (encode cs) = some (read.reverse ++ cs) := by
  induction cs generalizing read with
  | nil =>
      rw [List.append_nil]
      exact decodeOnto.eq_def read []
  | cons c cs ih =>
      rw [encode_cons, decodeOnto.eq_def, front_encode]
      show decodeOnto (c :: read) (encode cs) = _
      rw [ih, List.reverse_cons, List.append_assoc]
      rfl

/-- The strict reading undoes encoding as well. -/
theorem stringOf?_bytesOf (s : String) : stringOf? (bytesOf s) = some s := by
  rw [stringOf?, decode?, bytesOf_eq_encode, decodeOnto_encode]
  exact congrArg some String.ofList_toList

/-! ### Characters across a cut -/

/--
A cut splits a character: some bytes at the end of the first side start an encoding, and the bytes
that follow them, on the second side and after it, go on with that encoding.
-/
def Splits (before after : Bytes) : Prop :=
  ∃ start next more c, start <:+ before ∧ start ≠ [] ∧ next <+: after ++ more ∧ next ≠ [] ∧
    start ++ next = String.utf8EncodeChar c

/-- A cut that more bytes show to split a character has split it before. -/
theorem Splits.of_append {before after more : Bytes} (h : Splits before (after ++ more)) :
    Splits before after := by
  obtain ⟨start, next, rest, c, hbefore, hstart, hafter, hnext, h⟩ := h
  rw [List.append_assoc] at hafter
  exact ⟨start, next, more ++ rest, c, hbefore, hstart, hafter, hnext, h⟩

/-- A part ends before a byte that is no continuation byte, unless it starts with it. -/
theorem IsPart.exists_append {part rest before after : Bytes} {b : UInt8} (h : IsPart part)
    (heq : part ++ rest = before ++ b :: after) (hbefore : before ≠ [])
    (hb : isContinuation b = false) : ∃ between, rest = between ++ b :: after := by
  rcases List.append_eq_append_iff.mp heq with ⟨between, -, hrest⟩ | ⟨inside, hpart, hrest⟩
  · exact ⟨between, hrest⟩
  · cases inside with
    | nil => exact ⟨[], hrest.symm⟩
    | cons b' inside =>
        -- The byte would be one of the continuation bytes of the part.
        obtain ⟨first, tail, rfl, htail⟩ := h
        obtain ⟨first', before, rfl⟩ := List.exists_cons_of_ne_nil hbefore
        obtain ⟨rfl, -⟩ := List.cons.inj hrest
        rw [List.cons_append] at hpart
        have hmem : b ∈ tail := (List.cons.inj hpart).2 ▸ List.mem_append_right _ List.mem_cons_self
        rw [htail b hmem] at hb
        cases hb

/-- A part that is not cut off ends before the start of an encoding. -/
theorem IsPart.exists_append_start {part rest before start : Bytes} (h : IsPart part)
    (heq : before ++ start = part ++ rest) (hstart : front start = .cut)
    (hpart : front (part ++ rest) ≠ .cut) : ∃ between, between ++ start = rest := by
  by_cases hbefore : before = []
  · rw [hbefore, List.nil_append] at heq
    exact absurd hstart (heq ▸ hpart)
  · obtain ⟨-, b, after, rfl, hb, -⟩ := front_cut hstart
    obtain ⟨between, hrest⟩ := h.exists_append heq.symm hbefore hb
    exact ⟨between, hrest.symm⟩

/-- The start of an encoding at the end of a sequence is what is unfinished. -/
theorem unfinished_eq_of_front_cut (before : Bytes) {start : Bytes} (hstart : front start = .cut) :
    unfinished (before ++ start) = start := by
  generalize hbs : before ++ start = bs
  induction bs using parts_induction generalizing before with
  | done => rw [(List.append_eq_nil_iff.mp hbs).2, unfinished_nil]
  | char bs c rest h ih =>
      obtain ⟨part, rfl, hpart, -⟩ := front_char h
      obtain ⟨between, hrest⟩ := hpart.exists_append_start hbs hstart (by rw [h]; nofun)
      rw [unfinished_of_char h, ih between hrest]
  | broken bs rest h ih =>
      obtain ⟨part, rfl, hpart, -⟩ := front_broken h
      obtain ⟨between, hrest⟩ := hpart.exists_append_start hbs hstart (by rw [h]; nofun)
      rw [unfinished_of_broken h, ih between hrest]
  | cut bs h =>
      rw [unfinished_of_cut h]
      by_cases hbefore : before = []
      · rw [← hbs, hbefore, List.nil_append]
      · obtain ⟨-, b, after, hcons, hb, -⟩ := front_cut hstart
        obtain ⟨-, first, tail, rfl, -, htail⟩ := front_cut h
        have hpart : IsPart (first :: tail) := ⟨first, tail, rfl, htail⟩
        rw [hcons, ← List.append_nil (first :: tail)] at hbs
        obtain ⟨between, hrest⟩ := hpart.exists_append hbs.symm hbefore hb
        simp at hrest

/-- The cut before what is unfinished splits no character. -/
theorem not_splits_unfinished (bs : Bytes) : ¬Splits (complete bs) (unfinished bs) := by
  rintro ⟨start, next, more, c, ⟨before, hbefore⟩, hstart, ⟨after, hafter⟩, hnext, h⟩
  rcases unfinished_eq_nil_or bs with hnil | hcut
  · -- Nothing is unfinished, but the bytes at the end start an encoding.
    have hbs := complete_append_unfinished bs
    rw [hnil, List.append_nil, ← hbefore] at hbs
    rw [← hbs, unfinished_eq_of_front_cut before (front_start hstart hnext h)] at hnil
    exact hstart hnil
  · -- What is unfinished starts like an encoding, and not in the middle of one.
    obtain ⟨-, b, tail, hcons, hb, -⟩ := front_cut hcut
    obtain ⟨b', next, rfl⟩ := List.exists_cons_of_ne_nil hnext
    rw [hcons, List.cons_append, List.cons_append] at hafter
    obtain ⟨rfl, -⟩ := List.cons.inj hafter
    obtain ⟨between, hrest⟩ := (isPart_encode c).exists_append
      ((List.append_nil _).trans h.symm) hstart hb
    simp at hrest

end SaveLint.Text
