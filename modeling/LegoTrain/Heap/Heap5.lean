import LegoTrain.Lib.ByteMem

/-!
# The heap

`heap_5.c`, the allocator under all three firmwares: the buffers of the loader, the read buffer
of the bootloader and the buffers of the BLE stack come from `pvPortMalloc`.  The free blocks
are linked through their own headers, in the order of their addresses, from `xStart` (a
variable outside the heap, at the address `xStart`) to `pxEnd`.

A call that does not return is `none`: an assertion that fails and
`vApplicationMallocFailedHook` both end in `while (1)`, and so does the walk along a list that
goes round in circles.
-/

namespace Heap5

open ByteMem

/-! ## Words and headers -/

/-- `size_t` arithmetic, and that of pointers. -/
def word (n : ℕ) : ℕ := n % 2 ^ 32

/-- `a - b` in a `size_t`. -/
def sub (a b : ℕ) : ℕ := word (a + (2 ^ 32 - b))

/-- `a & ~b` in a `size_t`. -/
def andNot (a b : ℕ) : ℕ := a &&& (2 ^ 32 - 1 - b)

/-- `portBYTE_ALIGNMENT`. -/
def portByteAlignment : ℕ := 16

/-- `portBYTE_ALIGNMENT_MASK`. -/
def portByteAlignmentMask : ℕ := 0x000f

/-- A `BlockLink_t` is two words; its size is rounded up to the alignment. -/
def xHeapStructSize : ℕ := andNot (8 + (portByteAlignment - 1)) portByteAlignmentMask

/-- `heapMINIMUM_BLOCK_SIZE`. -/
def heapMinimumBlockSize : ℕ := xHeapStructSize <<< 1

/-- `pxNextFreeBlock` of the header at `p`. -/
def nextFreeBlock (m : Mem) (p : ℕ) : ℕ := le m p 4

/-- `xBlockSize` of the header at `p`. -/
def blockSize (m : Mem) (p : ℕ) : ℕ := le m (p + 4) 4

def setNextFreeBlock (m : Mem) (p n : ℕ) : Mem := write m p (leBytes 4 n)

def setBlockSize (m : Mem) (p n : ℕ) : Mem := write m (p + 4) (leBytes 4 n)

/-- The number of addresses: a walk of more steps never ends. -/
def addresses : ℕ := 2 ^ 32

/-- The memory and the static variables of `heap_5.c`. -/
structure HeapState where
  mem : Mem
  /-- `pxEnd`, 0 for `NULL` -/
  pxEnd : ℕ
  xFreeBytesRemaining : ℕ
  xMinimumEverFreeBytesRemaining : ℕ
  xNumberOfSuccessfulAllocations : ℕ
  xNumberOfSuccessfulFrees : ℕ
  xBlockAllocatedBit : ℕ

/-- Before `vPortDefineHeapRegions`. -/
def HeapState.reset (mem : Mem) : HeapState := ⟨mem, 0, 0, 0, 0, 0, 0⟩

/-! ## The list of the free blocks -/

/-- The loop of `prvInsertBlockIntoFreeList`: the last entry before the block. -/
def insertionPoint (m : Mem) (pxBlockToInsert : ℕ) : ℕ → ℕ → Option ℕ
  | 0, _ => none
  | fuel + 1, pxIterator =>
    if nextFreeBlock m pxIterator < pxBlockToInsert then
      insertionPoint m pxBlockToInsert fuel (nextFreeBlock m pxIterator)
    else some pxIterator

/-- Join the block with the entry before it, if that ends where the block begins. -/
def joinPrevious (m : Mem) (pxIterator pxBlockToInsert : ℕ) : Mem × ℕ :=
  if word (pxIterator + blockSize m pxIterator) = pxBlockToInsert then
    (setBlockSize m pxIterator (blockSize m pxIterator + blockSize m pxBlockToInsert), pxIterator)
  else (m, pxBlockToInsert)

/-- Join the block with the entry after it, if that begins where the block ends, and link it. -/
def joinNext (pxEnd : ℕ) (m : Mem) (pxIterator pxBlockToInsert : ℕ) : Mem :=
  if word (pxBlockToInsert + blockSize m pxBlockToInsert) = nextFreeBlock m pxIterator then
    if nextFreeBlock m pxIterator ≠ pxEnd then
      let m := setBlockSize m pxBlockToInsert
        (blockSize m pxBlockToInsert + blockSize m (nextFreeBlock m pxIterator))
      setNextFreeBlock m pxBlockToInsert (nextFreeBlock m (nextFreeBlock m pxIterator))
    else setNextFreeBlock m pxBlockToInsert pxEnd
  else setNextFreeBlock m pxBlockToInsert (nextFreeBlock m pxIterator)

/-- The part of `prvInsertBlockIntoFreeList` behind its loop. -/
def insertAfter (pxEnd : ℕ) (m : Mem) (pxIterator pxBlockToInsert : ℕ) : Mem :=
  let (m, pxBlockToInsert) := joinPrevious m pxIterator pxBlockToInsert
  let m := joinNext pxEnd m pxIterator pxBlockToInsert
  if pxIterator ≠ pxBlockToInsert then setNextFreeBlock m pxIterator pxBlockToInsert else m

/-- `prvInsertBlockIntoFreeList`. -/
def prvInsertBlockIntoFreeList (xStart pxEnd : ℕ) (m : Mem) (pxBlockToInsert : ℕ) : Option Mem :=
  (insertionPoint m pxBlockToInsert addresses xStart).map fun pxIterator =>
    insertAfter pxEnd m pxIterator pxBlockToInsert

/-! ## Allocation -/

/-- `xWantedSize` with the header, in whole units of the alignment. -/
def wantedSize (xWantedSize : ℕ) : ℕ :=
  if xWantedSize > 0 then
    let xWantedSize := word (xWantedSize + xHeapStructSize)
    if xWantedSize &&& portByteAlignmentMask ≠ 0 then
      word (xWantedSize + (portByteAlignment - (xWantedSize &&& portByteAlignmentMask)))
    else xWantedSize
  else xWantedSize

/-- The walk of `pvPortMalloc`: the first entry of the size, or the last one, with the entry
before it. -/
def findBlock (m : Mem) (xWantedSize : ℕ) : ℕ → ℕ → ℕ → Option (ℕ × ℕ)
  | 0, _, _ => none
  | fuel + 1, pxPreviousBlock, pxBlock =>
    if blockSize m pxBlock < xWantedSize ∧ nextFreeBlock m pxBlock ≠ 0 then
      findBlock m xWantedSize fuel pxBlock (nextFreeBlock m pxBlock)
    else some (pxPreviousBlock, pxBlock)

/-- Cut what is not wanted off the block, if it is enough for another one. -/
def splitBlock (xStart pxEnd : ℕ) (m : Mem) (pxBlock xWantedSize : ℕ) : Option Mem :=
  if sub (blockSize m pxBlock) xWantedSize > heapMinimumBlockSize then
    let pxNewBlockLink := word (pxBlock + xWantedSize)
    let m := setBlockSize m pxNewBlockLink (sub (blockSize m pxBlock) xWantedSize)
    let m := setBlockSize m pxBlock xWantedSize
    prvInsertBlockIntoFreeList xStart pxEnd m pxNewBlockLink
  else some m

/-- Hand out the block that was found. -/
def takeBlock (xStart : ℕ) (h : HeapState) (pxPreviousBlock pxBlock xWantedSize : ℕ) :
    Option (ℕ × HeapState) :=
  let pvReturn := word (nextFreeBlock h.mem pxPreviousBlock + xHeapStructSize)
  let m := setNextFreeBlock h.mem pxPreviousBlock (nextFreeBlock h.mem pxBlock)
  (splitBlock xStart h.pxEnd m pxBlock xWantedSize).map fun m =>
    let xFreeBytesRemaining := sub h.xFreeBytesRemaining (blockSize m pxBlock)
    let m' := setBlockSize m pxBlock (blockSize m pxBlock ||| h.xBlockAllocatedBit)
    (pvReturn,
      { h with
        mem := setNextFreeBlock m' pxBlock 0
        xFreeBytesRemaining := xFreeBytesRemaining
        xMinimumEverFreeBytesRemaining :=
          if xFreeBytesRemaining < h.xMinimumEverFreeBytesRemaining then xFreeBytesRemaining
          else h.xMinimumEverFreeBytesRemaining
        xNumberOfSuccessfulAllocations := word (h.xNumberOfSuccessfulAllocations + 1) })

/-- `pvPortMalloc` while the scheduler is suspended; `NULL` is 0. -/
def allocate (xStart : ℕ) (h : HeapState) (xWantedSize : ℕ) : Option (ℕ × HeapState) :=
  if xWantedSize &&& h.xBlockAllocatedBit = 0 then
    let xWantedSize := wantedSize xWantedSize
    if xWantedSize > 0 ∧ xWantedSize ≤ h.xFreeBytesRemaining then
      (findBlock h.mem xWantedSize addresses xStart (nextFreeBlock h.mem xStart)).bind
        fun (pxPreviousBlock, pxBlock) =>
          if pxBlock ≠ h.pxEnd then takeBlock xStart h pxPreviousBlock pxBlock xWantedSize
          else some (0, h)
    else some (0, h)
  else some (0, h)

/-- `pvPortMalloc`: `vApplicationMallocFailedHook` does not return. -/
def pvPortMalloc (xStart : ℕ) (h : HeapState) (xWantedSize : ℕ) : Option (ℕ × HeapState) :=
  if h.pxEnd = 0 then none
  else
    match allocate xStart h xWantedSize with
    | some (pvReturn, h) => if pvReturn = 0 then none else some (pvReturn, h)
    | none => none

/-! ## Giving back -/

/-- `vPortFree`. -/
def vPortFree (xStart : ℕ) (h : HeapState) (pv : ℕ) : Option HeapState :=
  if pv = 0 then some h
  else
    let pxLink := sub pv xHeapStructSize
    if blockSize h.mem pxLink &&& h.xBlockAllocatedBit = 0 ∨ nextFreeBlock h.mem pxLink ≠ 0 then none
    else
      let m := setBlockSize h.mem pxLink (andNot (blockSize h.mem pxLink) h.xBlockAllocatedBit)
      (prvInsertBlockIntoFreeList xStart h.pxEnd m pxLink).map fun m' =>
        { h with
          mem := m'
          xFreeBytesRemaining := word (h.xFreeBytesRemaining + blockSize m pxLink)
          xNumberOfSuccessfulFrees := word (h.xNumberOfSuccessfulFrees + 1) }

/-! ## The regions -/

/-- What `vPortDefineHeapRegions` keeps from one region to the next. -/
structure Defined where
  mem : Mem
  pxEnd : ℕ
  xTotalHeapSize : ℕ
  xDefinedRegions : ℕ

/-- The aligned start of a region, and the bytes from there on. -/
def alignRegion (pucStartAddress xSizeInBytes : ℕ) : ℕ × ℕ :=
  if pucStartAddress &&& portByteAlignmentMask ≠ 0 then
    let xAddress := andNot (word (pucStartAddress + (portByteAlignment - 1))) portByteAlignmentMask
    (xAddress, sub xSizeInBytes (sub xAddress pucStartAddress))
  else (pucStartAddress, xSizeInBytes)

/-- One turn of the loop: an end mark at the end of the region and one free block before it. -/
def defineRegion (xStart : ℕ) (s : Defined) (region : ℕ × ℕ) : Option Defined :=
  let (xAlignedHeap, xTotalRegionSize) := alignRegion region.1 region.2
  if s.xDefinedRegions ≠ 0 ∧ (s.pxEnd = 0 ∨ xAlignedHeap ≤ s.pxEnd) then none
  else
    let m :=
      if s.xDefinedRegions = 0 then
        setBlockSize (setNextFreeBlock s.mem xStart xAlignedHeap) xStart 0
      else s.mem
    let pxEnd := andNot (sub (word (xAlignedHeap + xTotalRegionSize)) xHeapStructSize)
      portByteAlignmentMask
    let m := setNextFreeBlock (setBlockSize m pxEnd 0) pxEnd 0
    let m := setNextFreeBlock (setBlockSize m xAlignedHeap (sub pxEnd xAlignedHeap)) xAlignedHeap
      pxEnd
    let m := if s.pxEnd ≠ 0 then setNextFreeBlock m s.pxEnd xAlignedHeap else m
    some ⟨m, pxEnd, word (s.xTotalHeapSize + blockSize m xAlignedHeap), s.xDefinedRegions + 1⟩

/-- The loop, which ends at a region of no bytes. -/
def defineRegions (xStart : ℕ) (s : Defined) : List (ℕ × ℕ) → Option Defined
  | [] => some s
  | region :: regions =>
    if region.2 > 0 then (defineRegion xStart s region).bind fun s => defineRegions xStart s regions
    else some s

/-- `vPortDefineHeapRegions`. -/
def vPortDefineHeapRegions (xStart : ℕ) (h : HeapState) (pxHeapRegions : List (ℕ × ℕ)) :
    Option HeapState :=
  if h.pxEnd ≠ 0 then none
  else
    (defineRegions xStart ⟨h.mem, h.pxEnd, 0, 0⟩ pxHeapRegions).bind fun s =>
      if s.xTotalHeapSize = 0 then none
      else
        some { h with
          mem := s.mem
          pxEnd := s.pxEnd
          xFreeBytesRemaining := s.xTotalHeapSize
          xMinimumEverFreeBytesRemaining := s.xTotalHeapSize
          xBlockAllocatedBit := 1 <<< (4 * 8 - 1) }

end Heap5
