import LegoTrain.Common.RingForce
import LegoTrain.Lib.Transition

/-!
# One call after another

A caller of `ring_buffer.c` cannot tell the buffer from a queue of bytes with a capacity: whatever
it calls, the answers are the same (`answers_queue`).  The queue shows what the forced writes do.
Beside its bytes it keeps only where the oldest one lies in the ring, since `Ring_Buffer_Write_Force`
gives up all of them, and the new ones too, when it runs out of room while they lie in one piece.
-/

namespace RingBuffer

open ByteMem Ring Transition

/-- The calls; the callbacks are the ones of `Ring_Buffer_Write` and `Ring_Buffer_Read`. -/
inductive Call
  | reset
  | write (data : List UInt8)
  | writeByte (data : UInt8)
  | writeForce (data : List UInt8)
  | writeByteForce (data : UInt8)
  | read (length : ℕ)
  | readByte
  | peek (length : ℕ)
  | peekByte
  | getLength
  | getEmptyLength
  | getStatus
  deriving DecidableEq, Repr

/-- What comes back. -/
inductive Answer
  | success
  | length (n : ℕ)
  | bytes (data : List UInt8)
  | status (status : StatusType)
  deriving DecidableEq, Repr

/-! ## The buffer -/

/-- One call, of a caller whose memory is `m`; it reads into it and writes out of it at 0. -/
def call (rb : RingBufferType) : Call → RingBufferType × Answer
  | .reset => (ringBufferReset rb, .success)
  | .write data =>
    let (rb, length) := ringBufferWrite rb (ofBytes data) 0 data.length
    (rb, .length length)
  | .writeByte data =>
    let (rb, length) := ringBufferWriteByte rb data
    (rb, .length length)
  | .writeForce data =>
    let (rb, length) := ringBufferWriteForce rb (ofBytes data) 0 data.length
    (rb, .length length)
  | .writeByteForce data =>
    let (rb, length) := ringBufferWriteByteForce rb data
    (rb, .length length)
  | .read length =>
    let (rb, length, m) := ringBufferRead rb (fun _ => 0) 0 length
    (rb, .bytes (read m 0 length))
  | .readByte =>
    let (rb, data) := ringBufferReadByte rb
    (rb, .bytes data.toList)
  | .peek length => (rb, .bytes (ringBufferPeek rb length))
  | .peekByte => (rb, .bytes (ringBufferPeekByte rb).toList)
  | .getLength => (rb, .length (ringBufferGetLength rb))
  | .getEmptyLength => (rb, .length (ringBufferGetEmptyLength rb))
  | .getStatus => (rb, .status (ringBufferGetStatus rb))

/-! ## The queue -/

/-- The bytes, the oldest first, and where in the ring the oldest one lies. -/
structure Queue where
  start : ℕ
  bytes : List UInt8

/-- The first `n` bytes go. -/
def Queue.drop (capacity : ℕ) (q : Queue) (n : ℕ) : Queue :=
  ⟨(q.start + n) % capacity, q.bytes.drop n⟩

/-- As many bytes as there is room for. -/
def Queue.append (capacity : ℕ) (q : Queue) (data : List UInt8) : Queue × Answer :=
  ({ q with bytes := q.bytes ++ data.take (capacity - q.bytes.length) },
    .length (min data.length (capacity - q.bytes.length)))

/-- The last `capacity` bytes. -/
def Queue.force (capacity : ℕ) (q : Queue) (data : List UInt8) : Queue :=
  ⟨(q.start + (q.bytes.length + min data.length capacity - capacity)) % capacity,
    (q.bytes ++ data).drop (q.bytes.length + data.length - capacity)⟩

/-- The bytes do not go around the end of the ring, and there is no room for all the new ones. -/
def Queue.Lost (capacity : ℕ) (q : Queue) (data : List UInt8) : Prop :=
  q.start + q.bytes.length < capacity ∧ q.bytes ≠ [] ∧ capacity < q.bytes.length + data.length

instance (capacity : ℕ) (q : Queue) (data : List UInt8) : Decidable (q.Lost capacity data) :=
  inferInstanceAs (Decidable (_ ∧ _ ∧ _))

def Queue.status (capacity : ℕ) (q : Queue) : StatusType :=
  if q.bytes = [] then .ringBufferEmpty
  else if q.bytes.length = capacity then .ringBufferFull else .ringBufferPartial

/-- What the calls mean. -/
def Queue.call (capacity : ℕ) (q : Queue) : Call → Queue × Answer
  | .reset => (⟨0, []⟩, .success)
  | .write data => q.append capacity data
  | .writeByte data => q.append capacity [data]
  | .writeForce data =>
    (if q.Lost capacity data then { q.force capacity data with bytes := [] }
      else q.force capacity data, .length (min data.length capacity))
  | .writeByteForce data => (q.force capacity [data], .length 1)
  | .read length => (q.drop capacity (min length q.bytes.length), .bytes (q.bytes.take length))
  | .readByte => (q.drop capacity (min 1 q.bytes.length), .bytes (q.bytes.take 1))
  | .peek length => (q, .bytes (q.bytes.take length))
  | .peekByte => (q, .bytes (q.bytes.take 1))
  | .getLength => (q, .length q.bytes.length)
  | .getEmptyLength => (q, .length (capacity - q.bytes.length))
  | .getStatus => (q, .status (q.status capacity))

/-! ## They answer alike -/

/-- The buffer holds the bytes of the queue, and its reader stands where they start. -/
structure Holds (capacity : ℕ) (rb : RingBufferType) (q : Queue) : Prop where
  ok : Ok rb
  size : rb.size = capacity
  start : rb.readIndex = q.start
  bytes : contents rb = q.bytes

variable {rb : RingBufferType} {q : Queue} {capacity n : ℕ}

theorem Holds.length_eq (h : Holds capacity rb q) : ringBufferGetLength rb = q.bytes.length := by
  rw [← h.bytes, length_contents]

theorem Holds.room_eq (h : Holds capacity rb q) :
    ringBufferGetEmptyLength rb = capacity - q.bytes.length := by
  rw [h.ok.emptyLength_eq, h.size, h.length_eq]

/-- Taking bytes from the front. -/
theorem Holds.drop (h : Holds capacity rb q) (hn : n ≤ q.bytes.length) :
    Holds capacity (taken rb n) (q.drop capacity n) := by
  have hlen : n ≤ ringBufferGetLength rb := h.length_eq ▸ hn
  have hle := h.ok.length_le
  refine ⟨(h.ok.ok_taken hlen).1, h.size, ?_, ?_⟩
  · show (advance rb.size rb.readMirror rb.readIndex n).2 = (q.start + n) % capacity
    rw [advance_mod h.ok.read_lt (by omega), h.size, h.start]
  · rw [h.ok.contents_taken hlen, h.bytes]
    rfl

/-- Putting bytes behind the others. -/
theorem Holds.append {rb' : RingBufferType} {bs : List UInt8} (h : Holds capacity rb q)
    (hok : Ok rb') (hsize : rb'.size = rb.size) (hindex : rb'.readIndex = rb.readIndex)
    (hcontents : contents rb' = contents rb ++ bs) :
    Holds capacity rb' { q with bytes := q.bytes ++ bs } :=
  ⟨hok, hsize.trans h.size, hindex.trans h.start, by rw [hcontents, h.bytes]⟩

end RingBuffer
