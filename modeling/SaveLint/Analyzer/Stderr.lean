import SaveLint.Text.Utf8

/-!
# Forwarding the standard error of an analyzer

What the analyzer writes to its standard error is shown while it runs, chunk by chunk. A read can
end in the middle of a character; the bytes of an unfinished character are held back until the next
read brings the rest of it. At the end of the stream they are sent as they are, and when reading
fails they are lost.
-/

namespace SaveLint.Analyzer

def readSize : Nat := 8192

/-- How reading a stream ends. -/
inductive StreamEnd where
  | closed
  | failed
  deriving DecidableEq, Repr

/-- How far the forwarding of a stream has come. -/
structure Forwarding where
  /-- The chunks that were sent, as bytes. -/
  sent : List Bytes := []
  /-- The bytes of an unfinished character, held back. -/
  held : Bytes := []
  deriving DecidableEq, Repr

namespace Forwarding

/-- What is held back, together with what a read brings, is sent up to an unfinished character. -/
def receive (f : Forwarding) (read : Bytes) : Forwarding :=
  let bytes := f.held ++ read
  let complete := Text.completeLength bytes
  { sent := if complete = 0 then f.sent else f.sent ++ [bytes.take complete]
    held := bytes.drop complete }

/-- At the end of the stream what is held back is sent as it is. -/
def close (f : Forwarding) : Forwarding :=
  if f.held = [] then f else { sent := f.sent ++ [f.held] }

/--
Forwards what the reads of a stream bring, and says how reading has ended: a read without bytes is
the end of the stream, and after the last read it is closed or reading fails.
-/
def follow (f : Forwarding) (ending : StreamEnd) : List Bytes → Forwarding × StreamEnd
  | [] =>
    match ending with
    | .closed => (f.close, .closed)
    | .failed => (f, .failed)
  | [] :: _ => (f.close, .closed)
  | (b :: bs) :: reads => (f.receive (b :: bs)).follow ending reads

/-- The texts of the chunks that were sent. -/
def chunks (f : Forwarding) : List String := f.sent.map lossyString

end Forwarding

/-- The chunks sent for the reads of a stream. -/
def forward (reads : List Bytes) (ending : StreamEnd) : List String :=
  (({} : Forwarding).follow ending reads).1.chunks

/-- What a stream holds, cut into reads of full size. -/
def readsOf (bs : Bytes) : List Bytes :=
  if _h : bs = [] then [] else bs.take readSize :: readsOf (bs.drop readSize)
termination_by bs.length
decreasing_by
  have : 0 < bs.length := List.length_pos_iff.mpr _h
  simp [readSize]; omega

/--
The reads that a sequence of deliveries makes: each delivery is read in parts of at most the read
size, and an empty delivery is the end of the stream.
-/
def readsOfDeliveries : List Bytes → List Bytes
  | [] => []
  | [] :: _ => []
  | bs :: rest => readsOf bs ++ readsOfDeliveries rest

/-- Whether the deliveries end the stream before they are all read. -/
def endsEarly (deliveries : List Bytes) : Bool := deliveries.any (· = [])

end SaveLint.Analyzer
