import LegoTrain.Lib.ByteMem

/-!
# The software CRC-32

`BFLB_Soft_CRC32` of `softcrc.c`, which protects the partition table and the boot
headers: the reflected CRC-32 with polynomial `0x04C11DB7`, computed bit by bit.
-/

namespace SoftCrc

/-- One pass of the inner loop: shift one bit out, and reduce when it was set. -/
def crcBit (crc : UInt32) : UInt32 :=
  if crc &&& 1 = 1 then (crc >>> 1) ^^^ 0xEDB88320 else crc >>> 1

/-- One pass of the outer loop: take in one byte, eight bits. -/
def crcByte (crc : UInt32) (b : UInt8) : UInt32 :=
  let crc := crc ^^^ b.toUInt32
  crcBit <| crcBit <| crcBit <| crcBit <| crcBit <| crcBit <| crcBit <| crcBit crc

/-- `BFLB_Soft_CRC32_Ex`: the CRC of `dataIn` continued from `initial`. -/
def bflbSoftCrc32Ex (initial : UInt32) (dataIn : List UInt8) : UInt32 :=
  ~~~ dataIn.foldl crcByte (~~~ initial)

/-- `BFLB_Soft_CRC32`. -/
def bflbSoftCrc32 (dataIn : List UInt8) : ℕ := (bflbSoftCrc32Ex 0 dataIn).toNat

/-- A CRC computed piece by piece is the CRC of the whole. -/
theorem bflbSoftCrc32Ex_append (initial : UInt32) (a b : List UInt8) :
    bflbSoftCrc32Ex initial (a ++ b) = bflbSoftCrc32Ex (bflbSoftCrc32Ex initial a) b := by
  simp only [bflbSoftCrc32Ex, List.foldl_append, UInt32.not_not]

theorem bflbSoftCrc32_lt (dataIn : List UInt8) : bflbSoftCrc32 dataIn < 256 ^ 4 :=
  (bflbSoftCrc32Ex 0 dataIn).toNat_lt

/-- The check value of this CRC, over the digits `123456789`. -/
example : bflbSoftCrc32 [0x31, 0x32, 0x33, 0x34, 0x35, 0x36, 0x37, 0x38, 0x39] = 0xCBF43926 := by
  decide +kernel

end SoftCrc
