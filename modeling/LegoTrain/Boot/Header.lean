import LegoTrain.Flash.Device
import LegoTrain.Common.SoftCrc

/-!
# The boot header

The packed structures of `blsp_bootinfo.h` that the bootloader lays over the first bytes
of a firmware slot: the boot header of 176 bytes, and after it, for a signed image, the
public key and the signature record, and for an encrypted one the AES IV.

A field is a read at its offset, a bit-field a part of such a number.
-/

namespace Boot

open ByteMem Flash SoftCrc

/-- The `n` bits of `w` from bit `lo` on: a bit-field of a 32-bit word. -/
def bitField (w lo n : ℕ) : ℕ := w / 2 ^ lo % 2 ^ n

theorem bitField_lt (w lo n : ℕ) : bitField w lo n < 2 ^ n := Nat.mod_lt _ (Nat.two_pow_pos n)

theorem bitField_or (a b lo n : ℕ) :
    bitField (a ||| b) lo n = bitField a lo n ||| bitField b lo n := by
  rw [bitField, Nat.or_div_two_pow, Nat.or_mod_two_pow]
  rfl

/-- What was shifted into a bit-field is found there. -/
theorem bitField_shiftLeft {x lo n : ℕ} (h : x < 2 ^ n) : bitField (x <<< lo) lo n = x := by
  rw [bitField, Nat.shiftLeft_eq, Nat.mul_div_cancel _ (Nat.two_pow_pos lo), Nat.mod_eq_of_lt h]

/-- What was shifted above a bit-field is not seen there. -/
theorem bitField_of_le {x l lo n : ℕ} (h : lo + n ≤ l) : bitField (x <<< l) lo n = 0 := by
  obtain ⟨k, rfl⟩ := Nat.exists_eq_add_of_le h
  have hsplit : x * 2 ^ (lo + n + k) = x * 2 ^ k * 2 ^ n * 2 ^ lo := by
    rw [Nat.pow_add, Nat.pow_add]
    ac_rfl
  rw [bitField, Nat.shiftLeft_eq, hsplit, Nat.mul_div_cancel _ (Nat.two_pow_pos lo),
    Nat.mul_mod_left]

/-- What was shifted below a bit-field is not seen there. -/
theorem bitField_of_lt {x b l lo n : ℕ} (h : x < 2 ^ b) (hlo : l + b ≤ lo) :
    bitField (x <<< l) lo n = 0 := by
  have hlt : x <<< l < 2 ^ lo := by
    rw [Nat.shiftLeft_eq]
    calc x * 2 ^ l < 2 ^ b * 2 ^ l := Nat.mul_lt_mul_of_pos_right h (Nat.two_pow_pos l)
      _ = 2 ^ (l + b) := by rw [← Nat.pow_add, Nat.add_comm]
      _ ≤ 2 ^ lo := Nat.pow_le_pow_right (by decide) hlo
  rw [bitField, Nat.div_eq_of_lt hlt, Nat.zero_mod]

/-- The low bits of a bit-field. -/
theorem bitField_of_width_le {w lo n k : ℕ} (h : n ≤ k) : bitField w lo n = bitField w lo k % 2 ^ n :=
  (Nat.mod_mod_of_dvd _ (Nat.pow_dvd_pow 2 h)).symm

/-- A bit-field of the low bits. -/
theorem bitField_mod {w lo n k : ℕ} (h : lo + n ≤ k) : bitField (w % 2 ^ k) lo n = bitField w lo n := by
  obtain ⟨j, rfl⟩ := Nat.exists_eq_add_of_le h
  rw [bitField, bitField, Nat.pow_add, Nat.pow_add, Nat.mul_assoc, Nat.mod_mul_right_div_self,
    Nat.mod_mul_right_mod]

/-- `BFLB_BOOT2_CPU0_MAGIC`, `"BFNP"`. -/
def bflbBoot2Cpu0Magic : List UInt8 := [0x42, 0x46, 0x4E, 0x50]

/-- `BFLB_BOOT2_CPU1_MAGIC`, `"BFAP"`. -/
def bflbBoot2Cpu1Magic : List UInt8 := [0x42, 0x46, 0x41, 0x50]

/-- `BFLB_BOOT2_DEADBEEF_VAL`. -/
def bflbBoot2DeadbeefVal : ℕ := 0xdeadbeef

/-- `BFLB_BOOT2_READBUF_SIZE`: what stands after `//` in its definition is a comment. -/
def bflbBoot2ReadbufSize : ℕ := 256

/-- `BFLB_FW_IMG_OFFSET_AFTER_HEADER`. -/
def bflbFwImgOffsetAfterHeader : ℕ := 4 * 1024

/-- `BFLB_BOOT2_CPU_MAX`. -/
def bflbBoot2CpuMax : ℕ := 2

/-- `BFLB_BOOT2_HASH_SIZE` and `BFLB_BOOT2_PK_HASH_SIZE`. -/
def bflbBoot2HashSize : ℕ := 256 / 8

/-- `BFLB_BOOT2_ECC_KEYXSIZE` and `BFLB_BOOT2_ECC_KEYYSIZE`. -/
def bflbBoot2EccKeysize : ℕ := 256 / 8

/-- `BFLB_BOOT2_SIGN_MAXSIZE`. -/
def bflbBoot2SignMaxsize : ℕ := 2048 / 8

/-- `sizeof(boot_header_config)`. -/
def bootHeaderConfigSize : ℕ := 176

/-- `sizeof(boot_pk_config)`. -/
def bootPkConfigSize : ℕ := 68

/-- `sizeof(boot_aes_config)`. -/
def bootAesConfigSize : ℕ := 20

/-! ## `boot_header_config` -/

/-- A buffer with a `boot_header_config` at its start. -/
abbrev BootHeader := Mem

namespace BootHeader

variable (h : BootHeader)

/-- `magicCode`, its bytes. -/
def magicCode : List UInt8 := read h 0 4

/-- `bootCfg.wval`. -/
def bootCfg : ℕ := le h 116 4

/-- `bootCfg.bval.sign`. -/
def sign : ℕ := bitField (bootCfg h) 0 2

/-- `bootCfg.bval.encrypt_type`. -/
def encryptType : ℕ := bitField (bootCfg h) 2 2

/-- `bootCfg.bval.key_sel`. -/
def keySel : ℕ := bitField (bootCfg h) 4 2

/-- `bootCfg.bval.no_segment`. -/
def noSegment : ℕ := bitField (bootCfg h) 8 1

/-- `bootCfg.bval.cache_enable`. -/
def cacheEnable : ℕ := bitField (bootCfg h) 9 1

/-- `bootCfg.bval.notLoadInBoot`. -/
def notLoadInBoot : ℕ := bitField (bootCfg h) 10 1

/-- `bootCfg.bval.aes_region_lock`. -/
def aesRegionLock : ℕ := bitField (bootCfg h) 11 1

/-- `bootCfg.bval.cache_way_disable`. -/
def cacheWayDisable : ℕ := bitField (bootCfg h) 12 4

/-- `bootCfg.bval.crcIgnore`. -/
def crcIgnore : ℕ := bitField (bootCfg h) 16 1

/-- `bootCfg.bval.hash_ignore`. -/
def hashIgnore : ℕ := bitField (bootCfg h) 17 1

/-- `bootCfg.bval.halt_cpu1`. -/
def haltCpu1 : ℕ := bitField (bootCfg h) 18 1

/-- `img_segment_info.img_len`. -/
def imgLen : ℕ := le h 120 4

/-- `bootEntry`. -/
def bootEntry : ℕ := le h 124 4

/-- `img_start.flash_offset`. -/
def flashOffset : ℕ := le h 128 4

/-- `hash`. -/
def hash : List UInt8 := read h 132 bflbBoot2HashSize

/-- The first word of `hash`. -/
def hashWord : ℕ := le h 132 4

/-- `crc32`. -/
def crc32 : ℕ := le h 172 4

end BootHeader

open BootHeader

/-- The test of the header's CRC: `crc_pass`. -/
def crcPass (header : BootHeader) : Bool :=
  if crcIgnore header = 1 ∧ crc32 header = bflbBoot2DeadbeefVal then true
  else decide (crc32 header = bflbSoftCrc32 (read header 0 (bootHeaderConfigSize - 4)))

/-- The loop over the CPUs: the index at which the magic code is found.  The test does not
depend on the index. -/
def cpuIndex (header : BootHeader) : Option ℕ :=
  (List.range bflbBoot2CpuMax).find? fun _ =>
    magicCode header = bflbBoot2Cpu0Magic ∨ magicCode header = bflbBoot2Cpu1Magic

/-- Every image that has a magic code is taken for an image of CPU 0. -/
theorem cpuIndex_eq (header : BootHeader) :
    cpuIndex header = if magicCode header = bflbBoot2Cpu0Magic ∨
      magicCode header = bflbBoot2Cpu1Magic then some 0 else none := by
  have hrange : List.range bflbBoot2CpuMax = [0, 1] := rfl
  rw [cpuIndex, hrange]
  split
  · rename_i hm
    simp [hm]
  · rename_i hm
    simp [hm]

/-! ## The records after the header -/

namespace BootPk

variable (cfg : Mem)

/-- `eckye_x`. -/
def eckyeX : List UInt8 := read cfg 0 bflbBoot2EccKeysize

/-- `eckey_y`. -/
def eckeyY : List UInt8 := read cfg bflbBoot2EccKeysize bflbBoot2EccKeysize

/-- Both coordinates. -/
def key : List UInt8 := read cfg 0 (bflbBoot2EccKeysize + bflbBoot2EccKeysize)

/-- `crc32`. -/
def crc32 : ℕ := le cfg 64 4

end BootPk

namespace BootSign

variable (cfg : Mem)

/-- `sig_len`. -/
def sigLen : ℕ := le cfg 0 4

/-- The first `sig_len` bytes of `signature`. -/
def signature : List UInt8 := read cfg 4 (sigLen cfg)

/-- The CRC after the signature. -/
def crc32 : List UInt8 := read cfg (4 + sigLen cfg) 4

end BootSign

namespace BootAes

variable (cfg : Mem)

/-- `aes_iv` and the CRC after it, as they are copied. -/
def block : List UInt8 := read cfg 0 bootAesConfigSize

/-- `aes_iv`. -/
def aesIv : List UInt8 := read cfg 0 16

/-- `crc32`. -/
def crc32 : ℕ := le cfg 16 4

end BootAes

end Boot
