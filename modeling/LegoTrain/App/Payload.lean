import Mathlib.Data.Int.Notation
import LegoTrain.Lib.ByteMem

/-!
# The frames of the app

`BleCommandPayload.kt`: a frame is the command, a checksum, the length of its data in two
bytes, and the data.  The checksum is summed over signed bytes, since a `ByteArray` holds
those.

* `createPayload` and the frames of the commands that the app sends;
* `checksum_emod` : the signed sum is, modulo 256, the unsigned one.
-/

namespace App

open ByteMem

def bflbEflashLoaderCmdReset : ℕ := 0x21
def bflbEflashLoaderCmdReadJedec : ℕ := 0x36
def bflbEflashLoaderCmdFlashErase : ℕ := 0x30
def bflbEflashLoaderCmdFlashWrite : ℕ := 0x31

/-- `FLASH_START_ADDRESS` of `BleCommandPayload.kt`. -/
def payloadFlashStartAddress : ℕ := 0x3F000

/-- `Int.toBytes`. -/
def toBytes (n numberOfBytes : ℕ) : List UInt8 := leBytes numberOfBytes n

@[simp] theorem length_toBytes (n k : ℕ) : (toBytes n k).length = k := length_leBytes k n

/-- The checksum of `createPayload`: the data as signed bytes, and the two bytes of its
size. -/
def payloadChecksum (data : List UInt8) : ℕ :=
  (((data.map fun item => item.toInt8.toInt).sum + (data.length % 256 : ℕ)
    + (data.length / 256 % 256 : ℕ)) % 256).toNat

def createPayload (command : ℕ) (data : List UInt8) : List UInt8 :=
  toBytes command 1 ++ toBytes (payloadChecksum data) 1 ++ toBytes data.length 2 ++ data

/-- `EraseFlashCommandPayload`. -/
def eraseFlashCommandPayload (size : ℕ) : List UInt8 :=
  createPayload bflbEflashLoaderCmdFlashErase
    (toBytes payloadFlashStartAddress 4 ++ toBytes (size + payloadFlashStartAddress) 4)

/-- `ProgramOnePageCommandPayload`. -/
def programOnePageCommandPayload (flashaddr : ℕ) (byteArray : List UInt8) : List UInt8 :=
  createPayload bflbEflashLoaderCmdFlashWrite (toBytes flashaddr 4 ++ byteArray)

/-- `SystemResetCommandPayload`. -/
def systemResetCommandPayload : List UInt8 :=
  createPayload bflbEflashLoaderCmdReset (toBytes 0 1)

/-- `ReadJedecCommandPayload`. -/
def readJedecCommandPayload : List UInt8 :=
  createPayload bflbEflashLoaderCmdReadJedec (toBytes 0 1)

@[simp] theorem length_createPayload (command : ℕ) (data : List UInt8) :
    (createPayload command data).length = 4 + data.length := by
  simp only [createPayload, List.length_append, length_toBytes]

/-! ## The checksum -/

theorem toInt8_emod (b : UInt8) : b.toInt8.toInt % 256 = (b.toNat : ℤ) % 256 := by
  have h : b.toInt8.toInt = (b.toNat : ℤ).bmod 256 := BitVec.toInt_eq_toNat_bmod _
  rw [h]
  exact Int.bmod_emod

theorem sum_toInt8_emod (data : List UInt8) :
    (data.map fun item => item.toInt8.toInt).sum % 256
      = ((data.map UInt8.toNat).sum : ℤ) % 256 := by
  induction data with
  | nil => rfl
  | cons b data ih =>
    have hb := toInt8_emod b
    simp only [List.map_cons, List.sum_cons]
    omega

/-- The checksum is that of unsigned bytes. -/
theorem payloadChecksum_eq (data : List UInt8) :
    payloadChecksum data
      = (data.length % 256 + data.length / 256 % 256 + (data.map UInt8.toNat).sum) % 256 := by
  have h := sum_toInt8_emod data
  unfold payloadChecksum
  omega

theorem payloadChecksum_lt (data : List UInt8) : payloadChecksum data < 256 := by
  rw [payloadChecksum_eq]
  exact Nat.mod_lt _ (by decide)

end App
