import Mathlib.Data.List.Forall2
import SaveLint.Json.Printer
import SaveLint.Proofs.Text.Lossy

/-!
# Reading what was written

A written string stands between quotation marks, and no byte of it ends the string or is a control
(`stringEnd?_literalOf`). Its escapes are resolved to the characters they were written for
(`string?_literalOf`). So a reader finds in a written object its members in order, whatever follows
the object (`Reads.object`).
-/

namespace SaveLint.Json

open SaveLint.Text

/-! ### The bytes of a character -/

theorem encode_append (cs ds : List Char) : encode (cs ++ ds) = encode cs ++ encode ds :=
  List.flatMap_append

theorem bytesOf_append (s t : String) : bytesOf (s ++ t) = bytesOf s ++ bytesOf t := by
  rw [bytesOf_eq_encode, bytesOf_eq_encode, bytesOf_eq_encode, String.toList_append, encode_append]

/-- A byte of a character is above ASCII, or it is the character itself. -/
theorem mem_utf8EncodeChar {c : Char} {b : UInt8} (h : b ∈ String.utf8EncodeChar c) :
    0x80 ≤ b.toNat ∨ b.toNat = c.toNat := by
  rw [String.utf8EncodeChar] at h
  have hn : c.toNat = c.val.toNat := rfl
  split at h
  · obtain rfl := List.mem_singleton.mp h
    right
    rw [UInt8.toNat_ofNat', hn]
    omega
  · left
    repeat' split at h
    all_goals
      simp only [List.mem_cons, List.not_mem_nil, or_false] at h
      rcases h with rfl | rfl | rfl | rfl
    all_goals
      rw [UInt8.toNat_ofNat']
      omega

/-! ### Strings -/

/-- A byte that stands for itself in a string. -/
def IsPlain (b : UInt8) : Prop := ¬b < 0x20 ∧ b ≠ 0x22 ∧ b ≠ 0x5C

theorem Tree.stringEnd?_plain {part : Bytes} (h : ∀ b ∈ part, IsPlain b) (read rest : Bytes) :
    stringEnd? read (part ++ rest) = stringEnd? (part.reverse ++ read) rest := by
  induction part generalizing read with
  | nil => rfl
  | cons b part ih =>
      obtain ⟨hcontrol, hquote, hslash⟩ := h b List.mem_cons_self
      rw [List.cons_append, stringEnd?, if_neg (by simp [hcontrol, hslash]),
        ih fun b hb => h b (List.mem_cons_of_mem _ hb), List.reverse_cons, List.append_assoc]
      · rfl
      · exact hquote
      · simp [hslash]
      · simp [hslash]

theorem isPlain_of_mem_encode {c : Char} (hcontrol : ¬c.toNat < 0x20) (hquote : c ≠ '"')
    (hslash : c ≠ '\\') : ∀ b ∈ encode [c], IsPlain b := by
  intro b hb
  rw [encode, List.flatMap_singleton] at hb
  have hne {d : Char} (hd : c ≠ d) : c.toNat ≠ d.toNat := fun h => hd (Char.toNat_inj.mp h)
  have hquote : c.toNat ≠ 0x22 := hne hquote
  have hslash : c.toNat ≠ 0x5C := hne hslash
  simp only [IsPlain, ne_eq, UInt8.lt_iff_toNat_lt, ← UInt8.toNat_inj, UInt8.reduceToNat]
  rcases mem_utf8EncodeChar hb with hb | hb <;> omega

/-- The digits of a control are hexadecimal, and they give its number back. -/
theorem control_spec : ∀ n, n < 0x20 → ∃ a b, twoHexDigits n = [a, b] ∧
    encode [a, b] = [byte a, byte b] ∧ isHexByte (byte a) = true ∧ isHexByte (byte b) = true ∧
    ofHex? ['0', '0', a, b] = some n := by
  intro n hn
  refine ⟨_, _, rfl, ?_⟩
  revert n
  decide

/-- The three forms in which a character can be written. -/
inductive Escape (c : Char) : List Char → Prop where
  | letter {d : Char} (names : escaped? d = some c) (ascii : encode [d] = [byte d])
      (short : Tree.isShortEscape (byte d) = true) : Escape c ['\\', d]
  | control {a b : Char} (small : c.toNat < 0x20) (ascii : encode [a, b] = [byte a, byte b])
      (hexA : isHexByte (byte a) = true) (hexB : isHexByte (byte b) = true)
      (number : ofHex? ['0', '0', a, b] = some c.toNat) : Escape c ['\\', 'u', '0', '0', a, b]
  | plain (large : ¬c.toNat < 0x20) (quote : c ≠ '"') (slash : c ≠ '\\') : Escape c [c]

theorem escape_escape (c : Char) : Escape c (escape c) := by
  unfold escape
  split
  case h_8 hquote hslash _ _ _ _ _ =>
    split
    · rename_i hsmall
      obtain ⟨a, b, hdigits, hascii, ha, hb, hnumber⟩ := control_spec _ hsmall
      rw [hdigits]
      exact .control hsmall hascii ha hb hnumber
    · rename_i hlarge
      exact .plain hlarge hquote hslash
  all_goals exact .letter rfl rfl rfl

/-- A written character is passed as a whole. -/
theorem Tree.stringEnd?_escape (c : Char) (read rest : Bytes) :
    stringEnd? read (encode (escape c) ++ rest) =
      stringEnd? ((encode (escape c)).reverse ++ read) rest := by
  have h := escape_escape c
  generalize escape c = cs at h
  cases h with
  | @letter d _ ascii short =>
      have hencode : encode ['\\', d] = [0x5C, byte d] := congrArg (0x5C :: ·) ascii
      have hne : byte d ≠ 0x75 := by
        intro h
        rw [h] at short
        cases short
      rw [hencode]
      show stringEnd? read (0x5C :: byte d :: rest) = _
      rw [stringEnd?, if_pos short]
      · rfl
      · simp [hne]
  | @control a b _ ascii hexA hexB =>
      have hencode : encode ['\\', 'u', '0', '0', a, b] =
          [0x5C, 0x75, byte '0', byte '0', byte a, byte b] :=
        congrArg ([0x5C, 0x75, byte '0', byte '0'] ++ ·) ascii
      have hall : [byte '0', byte '0', byte a, byte b].all isHexByte = true := by
        simp only [List.all_cons, hexA, hexB, List.all_nil]
        decide
      rw [hencode]
      exact if_pos hall
  | plain large quote slash =>
      exact stringEnd?_plain (isPlain_of_mem_encode large quote slash) read rest

/-- A written character is read as the character that it was written for. -/
theorem char?_escape (c : Char) (rest : List Char) : char? (escape c ++ rest) = some (c, rest) := by
  have h := escape_escape c
  generalize escape c = cs at h
  cases h with
  | @letter d names =>
      have hne : d ≠ 'u' := by
        rintro rfl
        cases names
      show char? ('\\' :: d :: rest) = _
      rw [char?, names]
      · rfl
      · simp [hne]
  | @control a b small _ _ _ number =>
      have hunit : unit? ('0' :: '0' :: a :: b :: rest) = some (c.toNat, rest) := by
        rw [unit?, number]
        rfl
      have hlow : isLowHalf c.toNat = false := by
        simp only [isLowHalf, Bool.and_eq_false_iff, decide_eq_false_iff_not]
        omega
      have hhigh : isHighHalf c.toNat = false := by
        simp only [isHighHalf, Bool.and_eq_false_iff, decide_eq_false_iff_not]
        omega
      show char? ('\\' :: 'u' :: '0' :: '0' :: a :: b :: rest) = _
      simp [char?, hunit, hlow, hhigh]
  | plain _ _ slash =>
      show char? (c :: rest) = _
      rw [char?]
      · simp [slash]
      · simp [slash]
      · simp [slash]

/-- What stands between the quotation marks of a written string. -/
def literalOf (s : String) : Bytes := encode (s.toList.flatMap escape)

theorem bytesOf_writtenString (s : String) :
    bytesOf (writtenString s) = 0x22 :: (literalOf s ++ [0x22]) := by
  rw [bytesOf_eq_encode, writtenString, String.toList_ofList, List.cons_append, encode_cons,
    encode_append]
  rfl

theorem Tree.stringEnd?_literalOf (s : String) (rest : Bytes) :
    stringEnd? [] (literalOf s ++ 0x22 :: rest) = some (literalOf s, rest) := by
  have hescapes (cs : List Char) (read : Bytes) :
      stringEnd? read (encode (cs.flatMap escape) ++ 0x22 :: rest) =
        some (read.reverse ++ encode (cs.flatMap escape), rest) := by
    induction cs generalizing read with
    | nil => simp [encode, stringEnd?]
    | cons c cs ih =>
        rw [List.flatMap_cons, encode_append, List.append_assoc, stringEnd?_escape, ih]
        simp
  exact hescapes s.toList []

theorem unescape?_escape (read cs : List Char) :
    unescape? read (cs.flatMap escape) = some (read.reverse ++ cs) := by
  induction cs generalizing read with
  | nil => rw [List.flatMap_nil, unescape?, if_pos rfl, List.append_nil]
  | cons c cs ih =>
      have hne : escape c ++ cs.flatMap escape ≠ [] := by
        intro h
        have hchar := char?_escape c (cs.flatMap escape)
        rw [h] at hchar
        cases hchar
      rw [List.flatMap_cons, unescape?, if_neg hne]
      split
      · rename_i hnone
        rw [char?_escape] at hnone
        cases hnone
      · rename_i hsome
        rw [char?_escape] at hsome
        cases hsome
        rw [ih, List.reverse_cons, List.append_assoc]
        rfl

@[simp] theorem string?_literalOf (s : String) : string? (literalOf s) = some s := by
  rw [string?, decode?, literalOf, decodeOnto_encode, Option.bind_some, List.reverse_nil,
    List.nil_append, unescape?_escape]
  exact congrArg some String.ofList_toList

/-! ### Objects -/

/-- The text is read as the tree whatever follows it, and no more fuel is needed than its length. -/
def Reads (text : Bytes) (tree : Tree) : Prop :=
  ∀ fuel rest, text.length ≤ fuel → Tree.value? fuel (text ++ rest) = some (tree, rest)

theorem Reads.ofBytes? {text : Bytes} {tree : Tree} (h : Reads text tree) :
    Tree.ofBytes? text = some tree := by
  have hvalue := h (2 * text.length + 2) [] (by omega)
  rw [List.append_nil] at hvalue
  rw [Tree.ofBytes?, hvalue]
  rfl

theorem Reads.string (s : String) : Reads (bytesOf (writtenString s)) (.string (literalOf s)) := by
  intro fuel rest hfuel
  rw [bytesOf_writtenString] at hfuel ⊢
  obtain _ | fuel := fuel
  · cases hfuel
  · have hend := Tree.stringEnd?_literalOf s rest
    show (Tree.stringEnd? [] (literalOf s ++ [0x22] ++ rest)).map _ = _
    rw [List.append_assoc, List.singleton_append, hend]
    rfl

/-- A member is read with its name as it is written. -/
def ReadsMember (member : String × Json) (read : Bytes × Tree) : Prop :=
  read.1 = literalOf member.1 ∧ Reads (bytesOf member.2.written) read.2

/-- The text of a member. -/
def memberText (member : String × Json) : Bytes :=
  0x22 :: (literalOf member.1 ++ 0x22 :: 0x3A :: bytesOf member.2.written)

/-- The text of the members, with commas between them. -/
def membersText (members : List (String × Json)) : Bytes :=
  bytesOf (",".intercalate (writtenMembers members))

theorem bytesOf_writtenMember (name : String) (v : Json) :
    bytesOf (writtenString name ++ ":" ++ v.written) = memberText (name, v) := by
  have hcolon : bytesOf ":" = [0x3A] := by decide +kernel
  rw [bytesOf_append, bytesOf_append, bytesOf_writtenString, hcolon, memberText]
  simp

theorem membersText_nil : membersText [] = [] := by
  decide +kernel

theorem membersText_singleton (member : String × Json) :
    membersText [member] = memberText member := by
  rw [membersText, writtenMembers, writtenMembers, String.intercalate_singleton,
    bytesOf_writtenMember]

theorem membersText_cons_cons (member next : String × Json) (members : List (String × Json)) :
    membersText (member :: next :: members) =
      memberText member ++ 0x2C :: membersText (next :: members) := by
  have hcomma : bytesOf "," = [0x2C] := by decide +kernel
  rw [membersText, writtenMembers, writtenMembers, String.intercalate_cons_cons, bytesOf_append,
    bytesOf_append, bytesOf_writtenMember, hcomma, List.append_assoc, List.singleton_append]
  rfl

theorem bytesOf_object (members : List (String × Json)) :
    bytesOf (Json.object members).written = 0x7B :: (membersText members ++ [0x7D]) := by
  have hopen : bytesOf "\x7b" = [0x7B] := by decide +kernel
  have hclose : bytesOf "\x7d" = [0x7D] := by decide +kernel
  rw [written, bytesOf_append, bytesOf_append, hopen, hclose]
  rfl

section Members

variable {member : String × Json} {read : Bytes × Tree} (h : ReadsMember member read) {fuel : Nat}
  (hfuel : (memberText member).length ≤ fuel) (before : List (Bytes × Tree)) (rest : Bytes)

include h hfuel

theorem ReadsMember.value? :
    Tree.value? fuel (bytesOf member.2.written ++ rest) = some (read.2, rest) := by
  refine h.2 fuel rest (Nat.le_trans ?_ hfuel)
  simp only [memberText, List.length_cons, List.length_append]
  omega

/-- A member is read, and what stands behind it decides whether another one comes. -/
theorem ReadsMember.members? :
    Tree.members? (fuel + 1) before (memberText member ++ 0x2C :: rest) =
        Tree.members? fuel (read :: before) rest ∧
      Tree.members? (fuel + 1) before (memberText member ++ 0x7D :: rest) =
        some ((read :: before).reverse, rest) := by
  have htext (bs : Bytes) : memberText member ++ bs =
      0x22 :: (literalOf member.1 ++ 0x22 :: 0x3A :: (bytesOf member.2.written ++ bs)) := by
    simp [memberText]
  have hname (bs : Bytes) := Tree.stringEnd?_literalOf member.1 (0x3A :: bs)
  have hvalue (bs : Bytes) := h.value? hfuel bs
  have hquote (bs : Bytes) : skipSpace (0x22 :: bs) = 0x22 :: bs := rfl
  have hcolon (bs : Bytes) : skipSpace (0x3A :: bs) = 0x3A :: bs := rfl
  have hcomma (bs : Bytes) : skipSpace (0x2C :: bs) = 0x2C :: bs := rfl
  have hbrace (bs : Bytes) : skipSpace (0x7D :: bs) = 0x7D :: bs := rfl
  obtain ⟨name, tree⟩ := read
  obtain rfl : name = literalOf member.1 := h.1
  constructor
  all_goals
    rw [htext, Tree.members?]
    simp only [hquote, hname, hcolon, hvalue, hcomma, hbrace]

end Members

/-- By induction on the members: each of them is read, and the last one is followed by the brace. -/
theorem members?_membersText {members : List (String × Json)} {trees : List (Bytes × Tree)}
    (h : List.Forall₂ ReadsMember members trees) (hne : members ≠ []) {fuel : Nat}
    (hfuel : (membersText members).length < fuel) (before : List (Bytes × Tree)) (rest : Bytes) :
    Tree.members? fuel before (membersText members ++ 0x7D :: rest) =
      some (before.reverse ++ trees, rest) := by
  induction h generalizing fuel before with
  | nil => cases hne rfl
  | @cons member read members trees hmember hmembers ih =>
      obtain _ | fuel := fuel
      · cases hfuel
      · cases hmembers with
        | nil =>
            rw [membersText_singleton] at hfuel ⊢
            rw [(hmember.members? (Nat.le_of_lt_succ hfuel) before rest).2, List.reverse_cons]
        | @cons next nextRead members trees hnext hmembers =>
            rw [membersText_cons_cons, List.length_append, List.length_cons] at hfuel
            rw [membersText_cons_cons, List.append_assoc, List.cons_append,
              (hmember.members? (by omega) before _).1, ih (List.cons_ne_nil _ _) (by omega),
              List.reverse_cons, List.append_assoc]
            rfl

/-- The text of some members begins with a quotation mark, so it is not taken for the end. -/
theorem exists_membersText_eq {members : List (String × Json)} (hne : members ≠ []) :
    ∃ tail, membersText members = 0x22 :: tail := by
  cases members with
  | nil => cases hne rfl
  | cons member members =>
      cases members with
      | nil => exact ⟨_, membersText_singleton member⟩
      | cons next members => exact ⟨_, membersText_cons_cons member next members⟩

/-- An object is read as its members, if each of them is read. -/
theorem Reads.object {members : List (String × Json)} {trees : List (Bytes × Tree)}
    (h : List.Forall₂ ReadsMember members trees) :
    Reads (bytesOf (Json.object members).written) (.object trees) := by
  intro fuel rest hfuel
  rw [bytesOf_object] at hfuel ⊢
  simp only [List.length_cons, List.length_append, List.length_nil] at hfuel
  obtain _ | fuel := fuel
  · cases hfuel
  · rw [List.cons_append, List.append_assoc, List.singleton_append]
    by_cases hne : members = []
    · subst hne
      cases h
      rw [membersText_nil]
      rfl
    · have hlt : (membersText members).length < fuel := by omega
      have hmembers := members?_membersText h hne hlt [] rest
      obtain ⟨tail, htail⟩ := exists_membersText_eq hne
      rw [htail] at hmembers ⊢
      show (Tree.members? fuel [] (0x22 :: tail ++ 0x7D :: rest)).map _ = _
      rw [hmembers]
      rfl

end SaveLint.Json
