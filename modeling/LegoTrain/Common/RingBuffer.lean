import LegoTrain.Lib.ByteMem
import LegoTrain.Lib.Ring

/-!
# The ring buffer

`ring_buffer.c`, between the interrupts and the main loop of the UART and USB interfaces.  The
indices of the reader and the writer go around the buffer; a mirror turns over whenever its index
comes back to 0, so that a full buffer is not taken for an empty one.

The part of a function between `lock` and `unlock` is one step: the callbacks of the interfaces
turn the interrupts off and on, and they nest.  A function that looks at the length before that
step has what it does in it as a definition of its own, with the length as it saw it.
-/

namespace RingBuffer

open ByteMem Ring

/-! ## The code -/

/-- `uint32_t` arithmetic. -/
def u32Add (a b : ℕ) : ℕ := (a + b) % 2 ^ 32

def u32Sub (a b : ℕ) : ℕ := (a + (2 ^ 32 - b)) % 2 ^ 32

/-- `Ring_Buffer_Type`. -/
structure RingBufferType where
  pointer : Mem
  readMirror : UInt8
  readIndex : ℕ
  writeMirror : UInt8
  writeIndex : ℕ
  size : ℕ

inductive StatusType
  | ringBufferEmpty
  | ringBufferPartial
  | ringBufferFull
  deriving DecidableEq, Repr

/-- `Ring_Buffer_Init`. -/
def ringBufferInit (buffer : Mem) (size : ℕ) : RingBufferType := ⟨buffer, 0, 0, 0, 0, size⟩

/-- `Ring_Buffer_Reset`. -/
def ringBufferReset (rb : RingBufferType) : RingBufferType :=
  { rb with readMirror := 0, readIndex := 0, writeMirror := 0, writeIndex := 0 }

/-- `Ring_Buffer_Get_Length`. -/
def ringBufferGetLength (rb : RingBufferType) : ℕ :=
  if rb.readMirror = rb.writeMirror then u32Sub rb.writeIndex rb.readIndex
  else u32Sub rb.size (u32Sub rb.readIndex rb.writeIndex)

/-- `Ring_Buffer_Get_Empty_Length`. -/
def ringBufferGetEmptyLength (rb : RingBufferType) : ℕ := u32Sub rb.size (ringBufferGetLength rb)

/-- `Ring_Buffer_Get_Status`. -/
def ringBufferGetStatus (rb : RingBufferType) : StatusType :=
  if rb.readIndex = rb.writeIndex then
    if rb.readMirror = rb.writeMirror then .ringBufferEmpty else .ringBufferFull
  else .ringBufferPartial

/-- A `ringBuffer_Write_Callback`: it fills as many bytes as it is asked for. -/
structure WriteCallback (σ : Type*) where
  fill : σ → ℕ → List UInt8 × σ
  length_fill : ∀ parameter length, (fill parameter length).1.length = length

/-- `Ring_Buffer_Write_Callback` between `lock` and `unlock`; `sizeRemained` is the empty length
before that. -/
def writeSection {σ : Type*} (rb : RingBufferType) (sizeRemained length : ℕ)
    (writeCb : WriteCallback σ) (parameter : σ) : RingBufferType × ℕ × σ :=
  if sizeRemained = 0 then (rb, 0, parameter)
  else
    let length := if length > sizeRemained then sizeRemained else length
    let sizeRemained := u32Sub rb.size rb.writeIndex
    if sizeRemained > length then
      let (bs, parameter) := writeCb.fill parameter length
      ({ rb with
          pointer := write rb.pointer rb.writeIndex bs
          writeIndex := u32Add rb.writeIndex length }, length, parameter)
    else
      let (bs, parameter) := writeCb.fill parameter sizeRemained
      let (bs', parameter) := writeCb.fill parameter (u32Sub length sizeRemained)
      ({ rb with
          pointer := write (write rb.pointer rb.writeIndex bs) 0 bs'
          writeIndex := u32Sub length sizeRemained
          writeMirror := ~~~rb.writeMirror }, length, parameter)

/-- `Ring_Buffer_Write_Callback`; `none` is `NULL`. -/
def ringBufferWriteCallback {σ : Type*} (rb : RingBufferType) (length : ℕ) :
    Option (WriteCallback σ) → σ → RingBufferType × ℕ × σ
  | none, parameter => (rb, 0, parameter)
  | some writeCb, parameter =>
    writeSection rb (ringBufferGetEmptyLength rb) length writeCb parameter

/-- `Ring_Buffer_Write_Copy`, out of a memory. -/
def ringBufferWriteCopy (m : Mem) : WriteCallback ℕ where
  fill src length := (read m src length, src + length)
  length_fill _ _ := length_read _ _ _

/-- `Ring_Buffer_Write` of the bytes at `data`. -/
def ringBufferWrite (rb : RingBufferType) (m : Mem) (data length : ℕ) : RingBufferType × ℕ :=
  let (rb, length, _) := ringBufferWriteCallback rb length (some (ringBufferWriteCopy m)) data
  (rb, length)

/-- `Ring_Buffer_Write_Byte`. -/
def ringBufferWriteByte (rb : RingBufferType) (data : UInt8) : RingBufferType × ℕ :=
  if ringBufferGetEmptyLength rb = 0 then (rb, 0)
  else
    let rb := { rb with pointer := write rb.pointer rb.writeIndex [data] }
    if rb.writeIndex ≠ u32Sub rb.size 1 then
      ({ rb with writeIndex := u32Add rb.writeIndex 1 }, 1)
    else ({ rb with writeIndex := 0, writeMirror := ~~~rb.writeMirror }, 1)

/-- `Ring_Buffer_Write_Force` of the bytes at `data` between `lock` and `unlock`; `sizeRemained`
is the empty length before that. -/
def forceSection (rb : RingBufferType) (sizeRemained : ℕ) (m : Mem) (data length : ℕ) :
    RingBufferType × ℕ :=
  let indexRemained := u32Sub rb.size rb.writeIndex
  let (data, length) :=
    if length > rb.size then (data + (length - rb.size), rb.size) else (data, length)
  if indexRemained > length then
    let rb := { rb with
      pointer := write rb.pointer rb.writeIndex (read m data length)
      writeIndex := u32Add rb.writeIndex length }
    (if length > sizeRemained then { rb with readIndex := rb.writeIndex } else rb, length)
  else
    let rb := { rb with
      pointer := write (write rb.pointer rb.writeIndex (read m data indexRemained)) 0
        (read m (data + indexRemained) (u32Sub length indexRemained))
      writeIndex := u32Sub length indexRemained
      writeMirror := ~~~rb.writeMirror }
    (if length > sizeRemained then
      { rb with readIndex := rb.writeIndex, readMirror := ~~~rb.readMirror }
    else rb, length)

/-- `Ring_Buffer_Write_Force`. -/
def ringBufferWriteForce (rb : RingBufferType) (m : Mem) (data length : ℕ) : RingBufferType × ℕ :=
  forceSection rb (ringBufferGetEmptyLength rb) m data length

/-- `Ring_Buffer_Write_Byte_Force`. -/
def ringBufferWriteByteForce (rb : RingBufferType) (data : UInt8) : RingBufferType × ℕ :=
  let status := ringBufferGetStatus rb
  let rb := { rb with pointer := write rb.pointer rb.writeIndex [data] }
  if rb.writeIndex = u32Sub rb.size 1 then
    let rb := { rb with writeIndex := 0, writeMirror := ~~~rb.writeMirror }
    (if status = .ringBufferFull then
      { rb with readIndex := rb.writeIndex, readMirror := ~~~rb.readMirror }
    else rb, 1)
  else
    let rb := { rb with writeIndex := u32Add rb.writeIndex 1 }
    (if status = .ringBufferFull then { rb with readIndex := rb.writeIndex } else rb, 1)

/-- A `ringBuffer_Read_Callback`. -/
abbrev ReadCallback (σ : Type*) : Type _ := σ → List UInt8 → σ

/-- `Ring_Buffer_Read_Callback` between `lock` and `unlock`; `size` is the length before that. -/
def readSection {σ : Type*} (rb : RingBufferType) (size length : ℕ) (readCb : ReadCallback σ)
    (parameter : σ) : RingBufferType × ℕ × σ :=
  if size = 0 then (rb, 0, parameter)
  else
    let length := if size < length then size else length
    let size := u32Sub rb.size rb.readIndex
    if size > length then
      ({ rb with readIndex := u32Add rb.readIndex length }, length,
        readCb parameter (read rb.pointer rb.readIndex length))
    else
      let parameter := readCb parameter (read rb.pointer rb.readIndex size)
      ({ rb with readIndex := u32Sub length size, readMirror := ~~~rb.readMirror }, length,
        readCb parameter (read rb.pointer 0 (u32Sub length size)))

/-- `Ring_Buffer_Read_Callback`; `none` is `NULL`. -/
def ringBufferReadCallback {σ : Type*} (rb : RingBufferType) (length : ℕ) :
    Option (ReadCallback σ) → σ → RingBufferType × ℕ × σ
  | none, parameter => (rb, 0, parameter)
  | some readCb, parameter => readSection rb (ringBufferGetLength rb) length readCb parameter

/-- `Ring_Buffer_Read_Copy`, into a memory. -/
def ringBufferReadCopy : ReadCallback (Mem × ℕ) := fun (m, dest) data =>
  (write m dest data, dest + data.length)

/-- `Ring_Buffer_Read` into the memory at `data`. -/
def ringBufferRead (rb : RingBufferType) (m : Mem) (data length : ℕ) : RingBufferType × ℕ × Mem :=
  let (rb, length, (m, _)) := ringBufferReadCallback rb length (some ringBufferReadCopy) (m, data)
  (rb, length, m)

/-- `Ring_Buffer_Read_Byte`, with the byte. -/
def ringBufferReadByte (rb : RingBufferType) : RingBufferType × Option UInt8 :=
  if ringBufferGetLength rb = 0 then (rb, none)
  else
    let data := rb.pointer rb.readIndex
    if rb.readIndex = u32Sub rb.size 1 then
      ({ rb with readIndex := 0, readMirror := ~~~rb.readMirror }, some data)
    else ({ rb with readIndex := u32Add rb.readIndex 1 }, some data)

/-- `Ring_Buffer_Peek` between `lock` and `unlock`, with the bytes; `size` is the length before
that. -/
def peekSection (rb : RingBufferType) (size length : ℕ) : List UInt8 :=
  if size = 0 then []
  else
    let length := if size < length then size else length
    let size := u32Sub rb.size rb.readIndex
    if size > length then read rb.pointer rb.readIndex length
    else read rb.pointer rb.readIndex size ++ read rb.pointer 0 (u32Sub length size)

/-- `Ring_Buffer_Peek`. -/
def ringBufferPeek (rb : RingBufferType) (length : ℕ) : List UInt8 :=
  peekSection rb (ringBufferGetLength rb) length

/-- `Ring_Buffer_Peek_Byte`. -/
def ringBufferPeekByte (rb : RingBufferType) : Option UInt8 :=
  if ringBufferGetLength rb = 0 then none else some (rb.pointer rb.readIndex)

end RingBuffer
