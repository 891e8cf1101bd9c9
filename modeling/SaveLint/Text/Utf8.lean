/-!
# UTF-8

A byte sequence is read from the front: `front` says whether it starts with the encoding of a
character, with a broken part that is the start of none, or whether it is cut off inside an
encoding. Three readings are built on it: the strict one (`decode?`), the lossy one (`lossy`), which
puts a replacement character for every broken part, and the cut (`completeLength`), which is where
the last encoding that is not yet finished begins.
-/

namespace SaveLint

abbrev Bytes := List UInt8

namespace Text

/-! ### The front of a byte sequence -/

/-- What a byte sequence starts with. -/
inductive Front where
  | done
  /-- The encoding of a character, and the bytes after it. -/
  | char (c : Char) (rest : Bytes)
  /-- A longest part that starts no encoding which could be finished, and the bytes after it. -/
  | broken (rest : Bytes)
  /-- All the bytes together are the start of an encoding that needs more of them. -/
  | cut

/-- A first byte above ASCII announces the size of the encoding and bounds its second byte. -/
structure Lead where
  size : Nat
  low : UInt8
  high : UInt8

/--
The lead that a byte announces. The bounds of the second byte keep out the encodings that are longer
than needed, the surrogates, and the numbers above the last code point.
-/
def lead? (b : UInt8) : Option Lead :=
  if b < 0xC2 then none
  else if b < 0xE0 then some ⟨2, 0x80, 0xBF⟩
  else if b = 0xE0 then some ⟨3, 0xA0, 0xBF⟩
  else if b = 0xED then some ⟨3, 0x80, 0x9F⟩
  else if b < 0xF0 then some ⟨3, 0x80, 0xBF⟩
  else if b = 0xF0 then some ⟨4, 0x90, 0xBF⟩
  else if b < 0xF4 then some ⟨4, 0x80, 0xBF⟩
  else if b = 0xF4 then some ⟨4, 0x80, 0x8F⟩
  else none

def isContinuation (b : UInt8) : Bool := 0x80 ≤ b && b ≤ 0xBF

/-- The six low bits of a continuation byte. -/
def payload (b : UInt8) : Nat := b.toNat % 64

def front : Bytes → Front
  | [] => .done
  | b :: rest =>
    if b < 0x80 then .char (Char.ofNat b.toNat) rest
    else
      match lead? b with
      | none => .broken rest
      | some lead =>
        match rest with
        | [] => .cut
        | b₂ :: rest₂ =>
          if b₂ < lead.low || lead.high < b₂ then .broken rest
          else if lead.size = 2 then
            .char (Char.ofNat (b.toNat % 32 * 64 + payload b₂)) rest₂
          else
            match rest₂ with
            | [] => .cut
            | b₃ :: rest₃ =>
              if !isContinuation b₃ then .broken rest₂
              else if lead.size = 3 then
                .char (Char.ofNat ((b.toNat % 16 * 64 + payload b₂) * 64 + payload b₃)) rest₃
              else
                match rest₃ with
                | [] => .cut
                | b₄ :: rest₄ =>
                  if !isContinuation b₄ then .broken rest₃
                  else
                    .char (Char.ofNat
                      (((b.toNat % 8 * 64 + payload b₂) * 64 + payload b₃) * 64 + payload b₄)) rest₄

theorem length_rest_of_front_char {bs rest : Bytes} {c : Char} (h : front bs = .char c rest) :
    rest.length < bs.length := by
  unfold front at h
  split at h
  · cases h
  · split at h
    · cases h; simp
    · repeat' (split at h)
      all_goals first | (cases h; done) | (cases h; simp; try omega)

theorem length_rest_of_front_broken {bs rest : Bytes} (h : front bs = .broken rest) :
    rest.length < bs.length := by
  unfold front at h
  split at h
  · cases h
  · split at h
    · cases h
    · repeat' (split at h)
      all_goals first | (cases h; done) | (cases h; simp; try omega)

/-! ### The readings -/

/-- The character that stands for a broken part. -/
def replacement : Char := '\uFFFD'

/-- The lossy reading, put after the characters already read, which are given in reverse. -/
def lossyOnto (read : List Char) (bs : Bytes) : List Char :=
  match _h : front bs with
  | .done => read.reverse
  | .char c rest => lossyOnto (c :: read) rest
  | .broken rest => lossyOnto (replacement :: read) rest
  | .cut => (replacement :: read).reverse
termination_by bs.length
decreasing_by
  · exact length_rest_of_front_char _h
  · exact length_rest_of_front_broken _h

/-- The characters of a byte sequence, with one replacement for every broken or cut-off part. -/
def lossy (bs : Bytes) : List Char := lossyOnto [] bs

/-- The strict reading, put after the characters already read, which are given in reverse. -/
def decodeOnto (read : List Char) (bs : Bytes) : Option (List Char) :=
  match _h : front bs with
  | .done => some read.reverse
  | .char c rest => decodeOnto (c :: read) rest
  | .broken _ => none
  | .cut => none
termination_by bs.length
decreasing_by exact length_rest_of_front_char _h

/-- The characters of a byte sequence, if it is the encoding of a text. -/
def decode? (bs : Bytes) : Option (List Char) := decodeOnto [] bs

/-- The bytes from where the last, unfinished encoding begins; none if there is no such encoding. -/
def unfinished (bs : Bytes) : Bytes :=
  match _h : front bs with
  | .done => []
  | .char _ rest => unfinished rest
  | .broken rest => unfinished rest
  | .cut => bs
termination_by bs.length
decreasing_by
  · exact length_rest_of_front_char _h
  · exact length_rest_of_front_broken _h

/-- How many bytes come before an unfinished encoding at the end. -/
def completeLength (bs : Bytes) : Nat := bs.length - (unfinished bs).length

def encode (cs : List Char) : Bytes := cs.flatMap String.utf8EncodeChar

end Text

def bytesOf (s : String) : Bytes := s.toUTF8.toList

/-- The string of a byte sequence, with one replacement for every broken or cut-off part. -/
def lossyString (bs : Bytes) : String := String.ofList (Text.lossy bs)

def stringOf? (bs : Bytes) : Option String := (Text.decode? bs).map String.ofList

end SaveLint
