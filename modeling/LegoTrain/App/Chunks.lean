import LegoTrain.App.Payload

/-!
# The cursors of the app

`BleFirmwareData.kt` hands out the firmware page by page, and `RobotData.kt` a frame,
behind its length in two bytes, packet by packet.

* `BleFirmwareData.getNextChunk_eq_some`, `RobotData.getNextChunk_eq_some` : what is handed
  out is the next part, and never empty;
* `BleFirmwareData.At` : the cursor stands behind the first `n` bytes of an image, or at its
  end.
-/

namespace App

open ByteMem

/-- `ByteArray.copyOfRange`. -/
def copyOfRange (bs : List UInt8) (fromIndex toIndex : ℕ) : List UInt8 :=
  (bs.drop fromIndex).take (toIndex - fromIndex)

theorem length_copyOfRange {bs : List UInt8} {i j : ℕ} (h : j ≤ bs.length) :
    (copyOfRange bs i j).length = j - i := by
  rw [copyOfRange, List.length_take, List.length_drop]
  omega

theorem getD_copyOfRange {bs : List UInt8} {i j k : ℕ} (h : k < j - i) (d : UInt8) :
    (copyOfRange bs i j).getD k d = bs.getD (i + k) d := by
  simp [copyOfRange, List.getD_eq_getElem?_getD, h]

/-! ## The firmware -/

/-- `BleFirmwareData`. -/
structure BleFirmwareData where
  firmwareData : List UInt8
  bytesRead : ℕ
  nextPageIndex : ℕ

namespace BleFirmwareData

/-- `program_size`. -/
def programSize : ℕ := 4096

/-- `totalBytes`. -/
def totalBytes (d : BleFirmwareData) : ℕ := d.firmwareData.length

/-- The constructor. -/
def ofImage (firmwareData : List UInt8) : BleFirmwareData := ⟨firmwareData, 0, 0⟩

def reset (d : BleFirmwareData) : BleFirmwareData := { d with bytesRead := 0, nextPageIndex := 0 }

/-- `endIndex` of `getNextChunk`. -/
def endIndex (d : BleFirmwareData) : ℕ :=
  if d.nextPageIndex + programSize > d.totalBytes then d.totalBytes
  else d.nextPageIndex + programSize

def getNextChunk (d : BleFirmwareData) : Option (List UInt8 × BleFirmwareData) :=
  if d.nextPageIndex ≥ d.totalBytes then none
  else
    some (copyOfRange d.firmwareData d.nextPageIndex d.endIndex,
      { d with
        bytesRead := d.bytesRead + (copyOfRange d.firmwareData d.nextPageIndex d.endIndex).length
        nextPageIndex := d.nextPageIndex + programSize })

/-- The cursor stands behind the first `n` bytes of `image`; behind the last page it may
have passed the end. -/
structure At (image : List UInt8) (n : ℕ) (d : BleFirmwareData) : Prop where
  data : d.firmwareData = image
  le : n ≤ image.length
  next : d.nextPageIndex = n ∨ n = image.length ∧ image.length ≤ d.nextPageIndex

theorem at_reset {image : List UInt8} {d : BleFirmwareData} (h : d.firmwareData = image) :
    At image 0 d.reset :=
  ⟨h, Nat.zero_le _, .inl rfl⟩

/-- At the end nothing is handed out. -/
theorem At.getNextChunk_eq_none {image : List UInt8} {d : BleFirmwareData}
    (h : At image image.length d) : d.getNextChunk = none := by
  have hle : d.nextPageIndex ≥ d.totalBytes := by
    rw [totalBytes, h.data]
    rcases h.next with hn | hn
    · exact Nat.le_of_eq hn.symm
    · exact hn.2
  rw [getNextChunk, if_pos hle]

/-- Before the end the next page is handed out, which is not empty. -/
theorem At.getNextChunk_eq_some {image : List UInt8} {n : ℕ} {d : BleFirmwareData}
    (h : At image n d) (hn : n < image.length) :
    ∃ k d', d.getNextChunk = some (copyOfRange image n k, d') ∧ n < k ∧ k ≤ image.length ∧
      k ≤ n + programSize ∧ (k = image.length ∨ k = n + programSize) ∧ At image k d' := by
  obtain ⟨hdata, -, hnext⟩ := h
  have hi : d.nextPageIndex = n := by omega
  have hlt : ¬ d.nextPageIndex ≥ d.totalBytes := by
    rw [totalBytes, hdata, hi]
    omega
  refine ⟨d.endIndex, _, by rw [getNextChunk, if_neg hlt, hdata, hi], ?_⟩
  unfold endIndex
  rw [totalBytes, hdata, hi]
  split
  · rename_i hend
    exact ⟨hn, Nat.le_refl _, Nat.le_of_lt hend, .inl rfl, rfl, Nat.le_refl _,
      .inr ⟨rfl, Nat.le_of_lt hend⟩⟩
  · rename_i hend
    refine ⟨?_, by omega, Nat.le_refl _, .inr rfl, rfl, by omega, .inl rfl⟩
    exact Nat.lt_add_of_pos_right (by decide)

end BleFirmwareData

/-! ## The packets of a frame -/

/-- `RobotData`.  Its `reset` touches two fields that `getNextChunk` does not read. -/
structure RobotData where
  robotData : List UInt8
  bytesProcessed : ℕ
  deriving DecidableEq

namespace RobotData

/-- `defaultPacketSizeBytes`. -/
def defaultPacketSizeBytes : ℕ := 240

/-- The constructor. -/
def ofData (data : List UInt8) : RobotData := ⟨toBytes data.length 2 ++ data, 0⟩

/-- `remainingBytes`, as `getNextChunk` computes it. -/
def remainingBytes (d : RobotData) : ℕ := d.robotData.length - d.bytesProcessed

/-- `bytesToProcess` of `getNextChunk`. -/
def bytesToProcess (d : RobotData) : ℕ :=
  if d.remainingBytes < defaultPacketSizeBytes then d.remainingBytes else defaultPacketSizeBytes

def getNextChunk (d : RobotData) : Option (List UInt8 × RobotData) :=
  if d.remainingBytes = 0 then none
  else
    some (copyOfRange d.robotData d.bytesProcessed (d.bytesProcessed + d.bytesToProcess),
      { d with bytesProcessed := d.bytesProcessed + d.bytesToProcess })

theorem getNextChunk_eq_none {d : RobotData} (h : d.bytesProcessed = d.robotData.length) :
    d.getNextChunk = none := by
  rw [getNextChunk, if_pos (by rw [remainingBytes]; omega)]

/-- Before the end a packet is handed out: the whole rest, or 240 bytes of it. -/
theorem getNextChunk_eq_some {d : RobotData} (h : d.bytesProcessed < d.robotData.length) :
    ∃ k, d.getNextChunk
        = some (copyOfRange d.robotData d.bytesProcessed k, { d with bytesProcessed := k }) ∧
      d.bytesProcessed < k ∧ k ≤ d.robotData.length ∧
      (k = d.robotData.length ∨ k = d.bytesProcessed + defaultPacketSizeBytes) := by
  refine ⟨d.bytesProcessed + d.bytesToProcess, ?_⟩
  rw [getNextChunk, if_neg (by rw [remainingBytes]; omega)]
  refine ⟨rfl, ?_⟩
  unfold bytesToProcess remainingBytes defaultPacketSizeBytes
  split <;> omega

end RobotData

end App
