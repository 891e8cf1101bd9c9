import SaveLint.Analyzer.Stderr
import SaveLint.Proofs.Text.Lossy

/-!
# Forwarding does not depend on the reads

What was forwarded after some reads is determined by the bytes they have brought, however these were
cut into reads: `Forwarding.Covers` says what has been sent and what is held back, `Covers.receive`
is the step for one read, and `covers_received` the statement for any number of them. The chunks
depend on the reads; that no chunk ends inside a character does not, and it is part of the invariant
for all bytes that follow the chunk.

A read without bytes is the end of the stream, so the reads here have bytes.
-/

namespace SaveLint.Analyzer.Forwarding

variable {f : Forwarding} {bs : Bytes}

/-! ### One read -/

/-- What has been sent and what is held back for the bytes that were read. -/
structure Covers (f : Forwarding) (bs : Bytes) : Prop where
  held : f.held = Text.unfinished bs
  sent : f.sent.flatten = Text.complete bs
  /-- The chunks are read one by one as their bytes would be read in one piece. -/
  text : f.sent.flatMap Text.lossy = Text.lossy (Text.complete bs)
  ne_nil : [] ∉ f.sent
  /-- The bytes after a chunk, sent or held back, do not go on with a character of the chunk. -/
  uncut : ∀ before chunk after, f.sent = before ++ chunk :: after →
    ¬Text.Splits chunk (after.flatten ++ f.held)

theorem covers_start : ({} : Forwarding).Covers [] where
  held := Text.unfinished_nil.symm
  sent := Text.complete_nil.symm
  text := by rw [Text.complete_nil, Text.lossy_nil]; rfl
  ne_nil := List.not_mem_nil
  uncut := by
    intro before chunk after h
    exact absurd h.symm (List.append_ne_nil_of_right_ne_nil before (List.cons_ne_nil chunk after))

theorem receive_held (f : Forwarding) (read : Bytes) :
    (f.receive read).held = Text.unfinished (f.held ++ read) :=
  Text.drop_completeLength (f.held ++ read)

/-- A chunk is sent if there is something complete. -/
theorem receive_sent (f : Forwarding) (read : Bytes) :
    (Text.complete (f.held ++ read) = [] ∧ (f.receive read).sent = f.sent) ∨
    (Text.complete (f.held ++ read) ≠ [] ∧
      (f.receive read).sent = f.sent ++ [Text.complete (f.held ++ read)]) := by
  by_cases h : Text.completeLength (f.held ++ read) = 0
  · exact .inl ⟨Text.complete_eq_nil_iff.mpr h, if_pos h⟩
  · exact .inr ⟨mt Text.complete_eq_nil_iff.mp h, if_neg h⟩

theorem Covers.receive_uncut (h : f.Covers bs) {read : Bytes} {before after : List Bytes}
    {chunk : Bytes} (hsent : (f.receive read).sent = before ++ chunk :: after) :
    ¬Text.Splits chunk (after.flatten ++ (f.receive read).held) := by
  have hcut := Text.complete_append_unfinished (f.held ++ read)
  rw [receive_held]
  rcases receive_sent f read with ⟨hnil, heq⟩ | ⟨-, heq⟩
  · intro hsplits
    rw [hnil, List.nil_append] at hcut
    rw [hcut, ← List.append_assoc] at hsplits
    exact h.uncut before chunk after (heq.symm.trans hsent) hsplits.of_append
  · rw [heq] at hsent
    rcases List.eq_nil_or_concat after with rfl | ⟨later, last, rfl⟩
    · -- This is the chunk that is sent for the read.
      obtain ⟨-, hchunk⟩ := List.append_inj' hsent rfl
      rw [← List.singleton_inj.mp hchunk]
      exact Text.not_splits_unfinished (f.held ++ read)
    · -- The chunk was sent before, and the read comes after what was held back.
      intro hsplits
      rw [List.concat_eq_append, ← List.cons_append, ← List.append_assoc] at hsent
      obtain ⟨hbefore, hlast⟩ := List.append_inj' hsent rfl
      rw [List.concat_eq_append, List.flatten_concat, ← List.singleton_inj.mp hlast,
        List.append_assoc, hcut, ← List.append_assoc] at hsplits
      exact h.uncut before chunk later hbefore hsplits.of_append

/-- One more read: the chunks and what is held back are those for the bytes with the read. -/
theorem Covers.receive (h : f.Covers bs) (read : Bytes) : (f.receive read).Covers (bs ++ read) := by
  have hcomplete := Text.complete_append_eq bs read
  have hlossy := Text.lossy_complete_append bs read
  rw [← h.held] at hcomplete hlossy
  constructor
  case held => rw [receive_held, h.held, ← Text.unfinished_append]
  case uncut => exact fun before chunk after => h.receive_uncut
  all_goals rcases receive_sent f read with ⟨hnil, heq⟩ | ⟨hne, heq⟩
  case sent.inl => rw [heq, h.sent, hcomplete, hnil, List.append_nil]
  case sent.inr => rw [heq, List.flatten_concat, h.sent, hcomplete]
  case text.inl => rw [heq, h.text, hlossy, hnil, Text.lossy_nil, List.append_nil]
  case text.inr => rw [heq, List.flatMap_append, h.text, hlossy, List.flatMap_singleton]
  case ne_nil.inl => rw [heq]; exact h.ne_nil
  case ne_nil.inr =>
    rw [heq, List.mem_append, not_or, List.mem_singleton]
    exact ⟨h.ne_nil, hne.symm⟩

/-! ### Any number of reads -/

/-- How far the forwarding has come after some reads. -/
def received (reads : List Bytes) : Forwarding := reads.foldl receive {}

theorem covers_received (reads : List Bytes) : (received reads).Covers reads.flatten := by
  unfold received
  have hrun : ∀ (f : Forwarding) (bs : Bytes), f.Covers bs →
      (reads.foldl receive f).Covers (bs ++ reads.flatten) := by
    induction reads with
    | nil => simp
    | cons read reads ih =>
        intro f bs h
        rw [List.foldl_cons, List.flatten_cons, ← List.append_assoc]
        exact ih (f.receive read) (bs ++ read) (h.receive read)
  exact hrun {} [] covers_start

/-- Reads with bytes are all received, and the stream ends as it is said to. -/
theorem follow_of_reads (f : Forwarding) (ending : StreamEnd) {reads : List Bytes}
    (h : [] ∉ reads) :
    f.follow ending reads = (reads.foldl receive f).follow ending [] := by
  induction reads generalizing f with
  | nil => rfl
  | cons read reads ih =>
      rw [List.mem_cons, not_or] at h
      obtain ⟨b, bs, rfl⟩ := List.exists_cons_of_ne_nil (Ne.symm h.1)
      exact ih (f.receive (b :: bs)) h.2

/-! ### The chunks that were sent -/

/-- No byte is lost: what was not sent is held back. -/
theorem Covers.bytes (h : f.Covers bs) : f.sent.flatten ++ f.held = bs := by
  rw [h.sent, h.held, Text.complete_append_unfinished]

theorem close_sent (f : Forwarding) :
    (f.held = [] ∧ f.close.sent = f.sent) ∨
    (f.held ≠ [] ∧ f.close.sent = f.sent ++ [f.held]) := by
  by_cases h : f.held = []
  · exact .inl ⟨h, by rw [close, if_pos h]⟩
  · exact .inr ⟨h, by rw [close, if_neg h]⟩

theorem join_chunks (f : Forwarding) :
    String.join f.chunks = String.ofList (f.sent.flatMap Text.lossy) := by
  apply String.toList_injective
  rw [String.toList_join, String.toList_ofList, chunks, List.flatMap_map]
  congr 1
  funext bs
  exact String.toList_ofList

theorem Covers.join_chunks (h : f.Covers bs) :
    String.join f.chunks = lossyString (Text.complete bs) := by
  rw [f.join_chunks, h.text, lossyString]

theorem Covers.join_close (h : f.Covers bs) : String.join f.close.chunks = lossyString bs := by
  rw [f.close.join_chunks, lossyString, Text.lossy_eq_append, ← h.text, ← h.held]
  congr 1
  rcases f.close_sent with ⟨hnil, heq⟩ | ⟨-, heq⟩
  · rw [heq, hnil, Text.lossy_nil, List.append_nil]
  · rw [heq, List.flatMap_append, List.flatMap_singleton]

theorem Covers.close_ne_nil (h : f.Covers bs) : [] ∉ f.close.sent := by
  rcases f.close_sent with ⟨-, heq⟩ | ⟨hne, heq⟩
  · rw [heq]; exact h.ne_nil
  · rw [heq, List.mem_append, not_or, List.mem_singleton]
    exact ⟨h.ne_nil, hne.symm⟩

/-- Chunks that have bytes have a text. -/
theorem empty_not_mem_chunks (h : [] ∉ f.sent) : "" ∉ f.chunks := by
  intro hmem
  obtain ⟨bytes, hbytes, heq⟩ := List.mem_map.mp hmem
  have hlossy : Text.lossy bytes = [] := by
    rw [← String.toList_ofList (l := Text.lossy bytes)]
    exact congrArg String.toList heq
  exact h (Text.lossy_eq_nil_iff.mp hlossy ▸ hbytes)

/-! ### Main statement -/

/--
However a stream is cut into reads, the chunks together are its lossy reading, so they are the text
itself if the bytes encode one; when reading fails, they are the reading of what is complete. No
chunk is empty. After each of the reads what is complete of the bytes so far has been sent, and the
rest, at most three bytes, is held back.
No chunk but the one sent at the end of the stream ends inside a character: no encoding begins in
the chunk and goes on in the bytes that follow it, those of the stream and those that might come.
-/
theorem forward_independent_of_reads {reads : List Bytes} (h : [] ∉ reads) :
    String.join (forward reads .closed) = lossyString reads.flatten ∧
    (∀ text, reads.flatten = bytesOf text → String.join (forward reads .closed) = text) ∧
    String.join (forward reads .failed) =
      lossyString (reads.flatten.take (Text.completeLength reads.flatten)) ∧
    (∀ ending, "" ∉ forward reads ending) ∧
    (∀ first, first <+: reads → (received first).held.length ≤ 3 ∧
      (received first).sent.flatten = Text.complete first.flatten ∧
      (received first).sent.flatten ++ (received first).held = first.flatten) ∧
    ({} : Forwarding).follow .closed reads = ((received reads).close, .closed) ∧
    ({} : Forwarding).follow .failed reads = (received reads, .failed) ∧
    ∀ before chunk after, (received reads).sent = before ++ chunk :: after →
      ¬Text.Splits chunk (after.flatten ++ (received reads).held) := by
  have hc := covers_received reads
  have hclosed : ({} : Forwarding).follow .closed reads = ((received reads).close, .closed) :=
    follow_of_reads {} .closed h
  have hfailed : ({} : Forwarding).follow .failed reads = (received reads, .failed) :=
    follow_of_reads {} .failed h
  have hjoin : String.join (forward reads .closed) = lossyString reads.flatten := by
    rw [forward, hclosed]
    exact hc.join_close
  refine ⟨hjoin, ?_, ?_, ?_, ?_, hclosed, hfailed, hc.uncut⟩
  · intro text htext
    rw [hjoin, htext, Text.lossyString_bytesOf]
  · rw [forward, hfailed]
    exact hc.join_chunks
  · intro ending
    cases ending with
    | closed =>
        rw [forward, hclosed]
        exact empty_not_mem_chunks hc.close_ne_nil
    | failed =>
        rw [forward, hfailed]
        exact empty_not_mem_chunks hc.ne_nil
  · intro first _
    have hfirst := covers_received first
    refine ⟨?_, hfirst.sent, hfirst.bytes⟩
    rw [hfirst.held]
    exact Text.length_unfinished_le first.flatten

/-- The two bytes of a character come with two reads, and are sent in one chunk. -/
theorem forward_independent_of_reads_accent :
    ([] : Bytes) ∉ [[0xC3], [0xA9, 0x78]] ∧
    String.join (forward [[0xC3], [0xA9, 0x78]] .closed) = "éx" ∧
    (received [[0xC3]]).held.length ≤ 3 := by
  have h : ([] : Bytes) ∉ [[0xC3], [0xA9, 0x78]] := by decide
  obtain ⟨-, htext, -, -, hheld, -⟩ := forward_independent_of_reads h
  refine ⟨h, htext "éx" ?_, (hheld [[0xC3]] ⟨[[0xA9, 0x78]], rfl⟩).1⟩
  rw [Text.bytesOf_eq_encode]
  rfl

/--
A sequence that the next byte shows to be truncated counts as complete: a chunk may end with it,
although these bytes alone are the start of an encoding, here of the euro sign.
-/
theorem sent_truncated_sequence :
    (received [[0xE2, 0x82, 0xC3]]).sent = [[0xE2, 0x82]] ∧
    ({} : Forwarding).follow .closed [[0xE2, 0x82, 0xC3]] =
      ({ sent := [[0xE2, 0x82], [0xC3]] }, .closed) ∧
    Text.unfinished [0xE2, 0x82] = [0xE2, 0x82] ∧
    Text.Splits [0xE2, 0x82] [] := by
  have hbroken : Text.front [0xE2, 0x82, 0xC3] = .broken [0xC3] := rfl
  have hlast : Text.front [0xC3] = .cut := rfl
  have hunfinished : Text.unfinished [0xE2, 0x82, 0xC3] = [0xC3] := by
    rw [Text.unfinished_of_broken hbroken, Text.unfinished_of_cut hlast]
  have hlength : Text.completeLength [0xE2, 0x82, 0xC3] = 2 := by
    rw [Text.completeLength, hunfinished]
    rfl
  have hreceived :
      received [[0xE2, 0x82, 0xC3]] = { sent := [[0xE2, 0x82]], held := [0xC3] } := by
    show receive {} [0xE2, 0x82, 0xC3] = _
    rw [receive, List.nil_append, hlength]
    rfl
  refine ⟨by rw [hreceived], ?_, Text.unfinished_of_cut rfl, ?_⟩
  · rw [follow_of_reads {} .closed (by decide)]
    show ((received [[0xE2, 0x82, 0xC3]]).close, StreamEnd.closed) = _
    rw [hreceived]
    rfl
  · exact ⟨[0xE2, 0x82], [0xAC], [0xAC], '€', List.suffix_refl _, by decide, List.prefix_refl _,
      by decide, by decide⟩

end SaveLint.Analyzer.Forwarding
