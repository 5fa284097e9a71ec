import LegoTrain.Firmware.Config
import LegoTrain.Lib.Layout
import LegoTrain.Common.SoftCrc

/-!
# The firmware creator of the app

`FinalFirmwareCreator.kt`: it pads a firmware to 16 bytes, puts a boot header of `0x1000`
bytes before it and pads the whole to 256 bytes.  An `Int` of the source has 32 bits.  The
SHA-256 is a parameter, and `java.util.zip.CRC32` is the CRC-32 that the bootloader computes.

* `integerDecode` and `getInt` : the number parsers;
* `getBootHeader` : `none` when a hexadecimal text cannot be decoded;
* `getBootHeader_eq` : the header of a configuration whose texts denote numbers.
-/

namespace Firmware

open ByteMem SoftCrc Layout

/-! ## Numbers -/

/-- The sign before a number, and what follows it. -/
def splitSign : List Char → Bool × List Char
  | '-' :: cs => (true, cs)
  | '+' :: cs => (false, cs)
  | cs => (false, cs)

/-- The radix that a prefix asks for, and what follows it. -/
def splitRadix : List Char → ℕ × List Char
  | '0' :: 'x' :: cs => (16, cs)
  | '0' :: 'X' :: cs => (16, cs)
  | '#' :: cs => (16, cs)
  | '0' :: c :: cs => (8, c :: cs)
  | cs => (10, cs)

/-- The `Int` with the given sign and absolute value, when there is one. -/
def ofSignAbs (negative : Bool) (n : ℕ) : Option (BitVec 32) :=
  if negative then if n ≤ 2 ^ 31 then some (-BitVec.ofNat 32 n) else none
  else if n < 2 ^ 31 then some (BitVec.ofNat 32 n) else none

/-- `Integer.decode`: `none` for a `NumberFormatException`. -/
def integerDecode (nm : List Char) : Option (BitVec 32) :=
  (parseDigits (splitRadix (splitSign nm).2).1 (splitRadix (splitSign nm).2).2).bind
    (ofSignAbs (splitSign nm).1)

/-- `toIntOrNull`. -/
def toIntOrNull (s : List Char) : Option (BitVec 32) :=
  (parseDigits 10 (splitSign s).2).bind (ofSignAbs (splitSign s).1)

/-- `ConfigParser.getInt`. -/
def getInt (config : Config) (key : Key) : BitVec 32 := (toIntOrNull (config key)).getD 0

/-- `Int.toBytes`. -/
def intToBytes (x : BitVec 32) (numberOfBytes : ℕ) : List UInt8 :=
  (List.range numberOfBytes).map fun i => UInt8.ofNat (x.sshiftRight (i * 8)).toNat

/-- `getCRC32(byteArray).toBytes(4)`. -/
def getCrc32 (byteArray : List UInt8) : List UInt8 := leBytes 4 (bflbSoftCrc32 byteArray)

/-! ## The header -/

/-- A field of the header. -/
def ktField (config : Config) (f : Field) : Option (List UInt8) :=
  match f.radix with
  | .hex => (integerDecode (config f.key)).map fun x => intToBytes x f.width
  | .dec => some (intToBytes (getInt config f.key) f.width)

/-- The start of the header. -/
def ktHeaderFields : List Field := [⟨.magicCode, .hex, 4⟩, ⟨.revision, .hex, 4⟩]

/-- The flash configuration. -/
def ktFlashFields : List Field :=
  [⟨.ioMode, .hex, 1⟩, ⟨.contReadSupport, .dec, 1⟩, ⟨.sfctrlClkDelay, .dec, 1⟩,
   ⟨.sfctrlClkInvert, .hex, 1⟩, ⟨.resetEnCmd, .hex, 1⟩, ⟨.resetCmd, .hex, 1⟩,
   ⟨.exitContreadCmd, .hex, 1⟩, ⟨.exitContreadCmdSize, .dec, 1⟩, ⟨.jedecidCmd, .hex, 1⟩,
   ⟨.jedecidCmdDmyClk, .dec, 1⟩, ⟨.qpiJedecidCmd, .hex, 1⟩, ⟨.qpiJedecidDmyClk, .dec, 1⟩,
   ⟨.sectorSize, .dec, 1⟩, ⟨.mfgId, .hex, 1⟩, ⟨.pageSize, .dec, 2⟩, ⟨.chipEraseCmd, .hex, 1⟩,
   ⟨.sectorEraseCmd, .hex, 1⟩, ⟨.blk32kEraseCmd, .hex, 1⟩, ⟨.blk64kEraseCmd, .hex, 1⟩,
   ⟨.writeEnableCmd, .hex, 1⟩, ⟨.pageProgCmd, .hex, 1⟩, ⟨.qpageProgCmd, .hex, 1⟩,
   ⟨.qualPageProgAddrMode, .dec, 1⟩, ⟨.fastReadCmd, .hex, 1⟩, ⟨.fastReadDmyClk, .dec, 1⟩,
   ⟨.qpiFastReadCmd, .hex, 1⟩, ⟨.qpiFastReadDmyClk, .dec, 1⟩, ⟨.fastReadDoCmd, .hex, 1⟩,
   ⟨.fastReadDoDmyClk, .dec, 1⟩, ⟨.fastReadDioCmd, .hex, 1⟩, ⟨.fastReadDioDmyClk, .dec, 1⟩,
   ⟨.fastReadQoCmd, .hex, 1⟩, ⟨.fastReadQoDmyClk, .dec, 1⟩, ⟨.fastReadQioCmd, .hex, 1⟩,
   ⟨.fastReadQioDmyClk, .dec, 1⟩, ⟨.qpiFastReadQioCmd, .hex, 1⟩, ⟨.qpiFastReadQioDmyClk, .dec, 1⟩,
   ⟨.qpiPageProgCmd, .hex, 1⟩, ⟨.writeVregEnableCmd, .hex, 1⟩, ⟨.welRegIndex, .dec, 1⟩,
   ⟨.qeRegIndex, .dec, 1⟩, ⟨.busyRegIndex, .dec, 1⟩, ⟨.welBitPos, .dec, 1⟩, ⟨.qeBitPos, .dec, 1⟩,
   ⟨.busyBitPos, .dec, 1⟩, ⟨.welRegWriteLen, .dec, 1⟩, ⟨.welRegReadLen, .dec, 1⟩,
   ⟨.qeRegWriteLen, .dec, 1⟩, ⟨.qeRegReadLen, .dec, 1⟩, ⟨.releasePowerDown, .hex, 1⟩,
   ⟨.busyRegReadLen, .dec, 1⟩, ⟨.regReadCmd0, .hex, 2⟩, ⟨.regReadCmd1, .hex, 2⟩,
   ⟨.regWriteCmd0, .hex, 2⟩, ⟨.regWriteCmd1, .hex, 2⟩, ⟨.enterQpiCmd, .hex, 1⟩,
   ⟨.exitQpiCmd, .hex, 1⟩, ⟨.contReadCode, .hex, 1⟩, ⟨.contReadExitCode, .hex, 1⟩,
   ⟨.burstWrapCmd, .hex, 1⟩, ⟨.burstWrapDmyClk, .hex, 1⟩, ⟨.burstWrapDataMode, .dec, 1⟩,
   ⟨.burstWrapCode, .hex, 1⟩, ⟨.deBurstWrapCmd, .hex, 1⟩, ⟨.deBurstWrapCmdDmyClk, .hex, 1⟩,
   ⟨.deBurstWrapCodeMode, .dec, 1⟩, ⟨.deBurstWrapCode, .hex, 1⟩, ⟨.sectorEraseTime, .dec, 2⟩,
   ⟨.blk32kEraseTime, .dec, 2⟩, ⟨.blk64kEraseTime, .dec, 2⟩, ⟨.pageProgTime, .dec, 2⟩,
   ⟨.chipEraseTime, .dec, 2⟩, ⟨.powerDownDelay, .dec, 2⟩]

/-- The clock configuration. -/
def ktClockFields : List Field :=
  [⟨.xtalType, .dec, 1⟩, ⟨.pllClk, .dec, 1⟩, ⟨.hclkDiv, .dec, 1⟩, ⟨.bclkDiv, .dec, 1⟩,
   ⟨.flashClkType, .dec, 2⟩, ⟨.flashClkDiv, .dec, 2⟩]

/-- The fields of the image configuration before the hash. -/
def ktImageFields : List Field := [⟨.bootentry, .dec, 4⟩, ⟨.imgStart, .hex, 4⟩]

/-- The fields of the image configuration after the hash. -/
def ktPtFields : List Field := [⟨.boot2PtTable0, .hex, 4⟩, ⟨.boot2PtTable1, .hex, 4⟩]

/-- `shl`. -/
def shl (x : BitVec 32) (bitCount : ℕ) : BitVec 32 := x <<< bitCount

/-- The boot configuration.  `or` and `shl` are infix functions of one precedence, so that
`sign` is shifted together with `encrypt_type`. -/
def ktBootCfg (config : Config) : Option (BitVec 32) :=
  (integerDecode (config .cacheWayDisable)).map fun cacheWayDisable =>
    shl (getInt config .sign ||| getInt config .encryptType) 2 |||
      shl (getInt config .keySel) 4 ||| shl (getInt config .noSegment) 8 |||
      shl (getInt config .cacheEnable) 9 ||| shl (getInt config .notloadInBootrom) 10 |||
      shl (getInt config .aesRegionLock) 11 ||| shl cacheWayDisable 12 |||
      shl (getInt config .crcIgnore) 16 ||| shl (getInt config .hashIgnore) 17 |||
      shl (getInt config .boot2Enable) 19

/-! ## The functions of the source -/

section

variable (sha256 : List UInt8 → List UInt8)

/-- A configuration between its magic code and its CRC. -/
def ktSeal (magic cfg : List UInt8) : List UInt8 := magic ++ cfg ++ getCrc32 cfg

/-- The header from the bytes of its parts. -/
def ktAssemble (header flashMagic flashCfg clkMagic clockCfg bootCfg image pt data : List UInt8) :
    List UInt8 :=
  header ++ (ktSeal flashMagic flashCfg ++ ktSeal clkMagic clockCfg ++ bootCfg ++
    (intToBytes (BitVec.ofNat 32 data.length) 4 ++ image ++ sha256 data ++ pt))

/-- `getBootHeader`. -/
def getBootHeader (data : List UInt8) (config : Config) : Option (List UInt8) := do
  let header ← emit (ktField config) ktHeaderFields
  let flashCfg ← emit (ktField config) ktFlashFields
  let flashMagic ← ktField config ⟨.flashcfgMagicCode, .hex, 4⟩
  let clockCfg ← emit (ktField config) ktClockFields
  let clkMagic ← ktField config ⟨.clkcfgMagicCode, .hex, 4⟩
  let bootCfg ← ktBootCfg config
  let image ← emit (ktField config) ktImageFields
  let pt ← emit (ktField config) ktPtFields
  let header := ktAssemble sha256 header flashMagic flashCfg clkMagic clockCfg
    (intToBytes bootCfg 4) image pt data
  return padTo 0x1000 0xFF (header ++ getCrc32 header)

/-- `FLASH_TOTAL_SIZE`. -/
def flashTotalSize : ℕ := 0xca000

/-- What `create` comes to. -/
inductive CreateResult
  /-- a `NumberFormatException` -/
  | threw
  /-- `false`: the firmware is too big -/
  | tooBig
  /-- `true`, with the content of `firmwarewbootheader.bin` -/
  | created (output : List UInt8)
  deriving DecidableEq, Repr

/-- The content of the file. -/
def output (header data : List UInt8) : List UInt8 := padMod 0x100 0xFF (header ++ data)

/-- `create`, with the configuration that has been read. -/
def create (firmwareData : List UInt8) (config : Config) : CreateResult :=
  match getBootHeader sha256 (padMod 0x10 0 firmwareData) config with
  | none => .threw
  | some header =>
    if (output header (padMod 0x10 0 firmwareData)).length > flashTotalSize then .tooBig
    else .created (output header (padMod 0x10 0 firmwareData))

end

/-! ## Configurations whose texts denote numbers -/

theorem sshiftRight_byte {x : BitVec 32} {k : ℕ} (h : k + 8 ≤ 32) :
    (x.sshiftRight k).toNat % 256 = x.toNat / 2 ^ k % 256 := by
  have hbits : (x.sshiftRight k).setWidth 8 = (x >>> k).setWidth 8 := by
    refine BitVec.eq_of_getLsbD_eq fun i hi => ?_
    rw [BitVec.getLsbD_setWidth, BitVec.getLsbD_setWidth, BitVec.getLsbD_sshiftRight,
      BitVec.getLsbD_ushiftRight]
    have h1 : ¬ 32 ≤ i := by omega
    have h2 : k + i < 32 := by omega
    simp [h1, h2]
  have h := congrArg BitVec.toNat hbits
  rwa [BitVec.toNat_setWidth, BitVec.toNat_setWidth, BitVec.toNat_ushiftRight,
    Nat.shiftRight_eq_div_pow] at h

/-- `Int.toBytes` is little-endian, also for a negative number. -/
theorem intToBytes_eq {n : ℕ} (h : n ≤ 4) (x : BitVec 32) : intToBytes x n = leBytes n x.toNat := by
  rw [intToBytes, leBytes_eq_map]
  refine List.map_congr_left fun i hi => ?_
  have hi : i < n := List.mem_range.1 hi
  refine UInt8.toNat_inj.1 ?_
  rw [UInt8.toNat_ofNat', UInt8.toNat_ofNat', show (2 : ℕ) ^ 8 = 256 from rfl,
    sshiftRight_byte (by omega), show (256 : ℕ) = 2 ^ 8 from rfl, ← Nat.pow_mul, Nat.mul_comm 8 i]

theorem intToBytes_ofNat {n : ℕ} (h : n ≤ 4) (x : ℕ) :
    intToBytes (BitVec.ofNat 32 x) n = leBytes n x := by
  obtain ⟨k, hk⟩ : ∃ k, 2 ^ 32 = 256 ^ n * k := by
    have hpow := Nat.pow_add 256 n (4 - n)
    rw [Nat.add_sub_cancel' h] at hpow
    exact ⟨256 ^ (4 - n), hpow⟩
  rw [intToBytes_eq h, BitVec.toNat_ofNat, ← leBytes_mod, hk, Nat.mod_mul_right_mod, leBytes_mod]

theorem splitSign_of_parseDigits {radix v : ℕ} {s : List Char}
    (h : parseDigits radix s = some v) : splitSign s = (false, s) := by
  unfold splitSign
  split
  · exact absurd rfl (ne_of_parseDigits h List.mem_cons_self (b := '-') rfl)
  · exact absurd rfl (ne_of_parseDigits h List.mem_cons_self (b := '+') rfl)
  · rfl

/-- The parser of the hexadecimal texts. -/
theorem integerDecode_hex {s : List Char} {v : ℕ} (h : HexText s v) :
    integerDecode s = if v < 2 ^ 31 then some (BitVec.ofNat 32 v) else none := by
  obtain ⟨ds, rfl, hds⟩ := h
  show (parseDigits 16 ds).bind (ofSignAbs false) = _
  rw [hds]
  rfl

theorem toIntOrNull_dec {s : List Char} {v : ℕ} (h : DecText s v) :
    toIntOrNull s = if v < 2 ^ 31 then some (BitVec.ofNat 32 v) else none := by
  rw [toIntOrNull, splitSign_of_parseDigits h, h]
  rfl

/-- What `getInt` makes of a decimal number: 0 when it is no `Int`. -/
def intValue (v : ℕ) : ℕ := if v < 2 ^ 31 then v else 0

theorem intValue_of_lt {v : ℕ} (h : v < 2 ^ 31) : intValue v = v := if_pos h

theorem getInt_dec {config : Config} {v : Key → ℕ} (h : Denotes config v) {k : Key}
    (hk : radixOf k = .dec) : getInt config k = BitVec.ofNat 32 (intValue (v k)) := by
  rw [getInt, toIntOrNull_dec (h.dec hk), intValue]
  split <;> rfl

/-- The numbers that the app takes a configuration for. -/
def ktValues (v : Key → ℕ) (k : Key) : ℕ :=
  match radixOf k with
  | .hex => v k
  | .dec => intValue (v k)

theorem ktValues_eq_self {v : Key → ℕ} (h : ∀ k, radixOf k = .dec → v k < 2 ^ 31) :
    ktValues v = v := by
  funext k
  unfold ktValues
  cases hk : radixOf k with
  | hex => rfl
  | dec => exact intValue_of_lt (h k hk)

/-- A field is written in its width when its text is below `2 ^ 31`. -/
theorem ktField_eq {config : Config} {v : Key → ℕ} (h : Denotes config v) {f : Field}
    (hr : f.radix = radixOf f.key) (hw : f.width ≤ 4) (hhex : radixOf f.key = .hex → v f.key < 2 ^ 31) :
    ktField config f = some (fieldBytes (ktValues v) f) := by
  unfold ktField fieldBytes ktValues
  rw [hr]
  cases hk : radixOf f.key with
  | hex =>
    dsimp only
    rw [integerDecode_hex (h.hex hk), if_pos (hhex hk), Option.map_some, intToBytes_ofNat hw]
  | dec =>
    dsimp only
    rw [getInt_dec h hk, intToBytes_ofNat hw]

/-- A hexadecimal text from `2 ^ 31` on is no `Int`. -/
theorem ktField_eq_none {config : Config} {v : Key → ℕ} (h : Denotes config v) {f : Field}
    (hr : f.radix = radixOf f.key) (hk : radixOf f.key = .hex) (hbig : ¬ v f.key < 2 ^ 31) :
    ktField config f = none := by
  unfold ktField
  rw [hr, hk]
  dsimp only
  rw [integerDecode_hex (h.hex hk), if_neg hbig, Option.map_none]

/-- The boot configuration of the app, as a number. -/
def ktWord (v : Key → ℕ) : ℕ :=
  (v .sign ||| v .encryptType) <<< 2 ||| v .keySel <<< 4 ||| v .noSegment <<< 8 |||
    v .cacheEnable <<< 9 ||| v .notloadInBootrom <<< 10 ||| v .aesRegionLock <<< 11 |||
    v .cacheWayDisable <<< 12 ||| v .crcIgnore <<< 16 ||| v .hashIgnore <<< 17 |||
    v .boot2Enable <<< 19

theorem shl_ofNat (x n : ℕ) : shl (BitVec.ofNat 32 x) n = BitVec.ofNat 32 (x <<< n) := by
  refine BitVec.eq_of_toNat_eq ?_
  rw [shl, BitVec.toNat_shiftLeft, BitVec.toNat_ofNat, BitVec.toNat_ofNat, Nat.shiftLeft_eq,
    Nat.shiftLeft_eq, Nat.mod_mul_mod]

theorem ofNat_or (x y : ℕ) :
    BitVec.ofNat 32 x ||| BitVec.ofNat 32 y = BitVec.ofNat 32 (x ||| y) := by
  refine BitVec.eq_of_toNat_eq ?_
  rw [BitVec.toNat_or, BitVec.toNat_ofNat, BitVec.toNat_ofNat, BitVec.toNat_ofNat,
    Nat.or_mod_two_pow]

theorem ktBootCfg_eq {config : Config} {v : Key → ℕ} (h : Denotes config v)
    (hhex : v .cacheWayDisable < 2 ^ 31) :
    ktBootCfg config = some (BitVec.ofNat 32 (ktWord (ktValues v))) := by
  have hint : ∀ k, radixOf k = .dec → getInt config k = BitVec.ofNat 32 (ktValues v k) := by
    intro k hk
    rw [getInt_dec h hk, ktValues, hk]
  have hcache : ktValues v .cacheWayDisable = v .cacheWayDisable := rfl
  rw [ktBootCfg, integerDecode_hex (h.hex rfl), if_pos hhex, Option.map_some, hint .sign rfl,
    hint .encryptType rfl, hint .keySel rfl, hint .noSegment rfl, hint .cacheEnable rfl,
    hint .notloadInBootrom rfl, hint .aesRegionLock rfl, hint .crcIgnore rfl,
    hint .hashIgnore rfl, hint .boot2Enable rfl, ← hcache]
  simp only [shl_ofNat, ofNat_or]
  rfl

section

variable (sha256 : List UInt8 → List UInt8)

/-- The header for the given numbers and boot configuration. -/
def headerOf (word : ℕ) (v : Key → ℕ) (data : List UInt8) : List UInt8 :=
  ktAssemble sha256 (ktHeaderFields.flatMap (fieldBytes v))
    (fieldBytes v ⟨.flashcfgMagicCode, .hex, 4⟩) (ktFlashFields.flatMap (fieldBytes v))
    (fieldBytes v ⟨.clkcfgMagicCode, .hex, 4⟩) (ktClockFields.flatMap (fieldBytes v))
    (leBytes 4 word) (ktImageFields.flatMap (fieldBytes v)) (ktPtFields.flatMap (fieldBytes v)) data

/-- The header with its CRC, padded. -/
def sealedHeader (word : ℕ) (v : Key → ℕ) (data : List UInt8) : List UInt8 :=
  padTo 0x1000 0xFF (headerOf sha256 word v data ++ getCrc32 (headerOf sha256 word v data))

/-- All fields that stand in the header with a width of their own. -/
def ktFields : List Field :=
  ktHeaderFields ++ (ktFlashFields ++ (⟨.flashcfgMagicCode, .hex, 4⟩ ::
    (ktClockFields ++ (⟨.clkcfgMagicCode, .hex, 4⟩ :: (ktImageFields ++ ktPtFields)))))

theorem ktFields_spec : ∀ f ∈ ktFields, f.radix = radixOf f.key ∧ f.width ≤ 4 := by
  decide +kernel

/-- Every key has a field or a part of the boot configuration. -/
theorem hex_key_cases : ∀ k, radixOf k = .hex → k = .cacheWayDisable ∨ ∃ f ∈ ktFields, f.key = k := by
  decide +kernel

/-- **The header of the app**, when all hexadecimal numbers are below `2 ^ 31`. -/
theorem getBootHeader_eq {config : Config} {v : Key → ℕ} (h : Denotes config v)
    (hhex : ∀ k, radixOf k = .hex → v k < 2 ^ 31) (data : List UInt8) :
    getBootHeader sha256 data config =
      some (sealedHeader sha256 (ktWord (ktValues v)) (ktValues v) data) := by
  have hfield : ∀ f ∈ ktFields, ktField config f = some (fieldBytes (ktValues v) f) := by
    intro f hf
    obtain ⟨hr, hw⟩ := ktFields_spec f hf
    exact ktField_eq h hr hw (hhex f.key)
  have hemit : ∀ l : List Field, (∀ f ∈ l, f ∈ ktFields) →
      emit (ktField config) l = some (l.flatMap (fieldBytes (ktValues v))) :=
    fun l hl => emit_eq_some fun f hf => hfield f (hl f hf)
  unfold getBootHeader
  rw [hemit ktHeaderFields (by decide +kernel), hemit ktFlashFields (by decide +kernel),
    hfield ⟨.flashcfgMagicCode, .hex, 4⟩ (by decide +kernel),
    hemit ktClockFields (by decide +kernel),
    hfield ⟨.clkcfgMagicCode, .hex, 4⟩ (by decide +kernel), ktBootCfg_eq h (hhex _ rfl),
    hemit ktImageFields (by decide +kernel), hemit ktPtFields (by decide +kernel)]
  simp only [Option.bind_eq_bind, Option.bind_some]
  rw [intToBytes_ofNat (Nat.le_refl 4)]
  rfl

/-- When there is a header, every field could be written. -/
theorem getBootHeader_isSome {config : Config} {data header : List UInt8}
    (h : getBootHeader sha256 data config = some header) :
    (∀ f ∈ ktFields, ktField config f ≠ none) ∧ ktBootCfg config ≠ none := by
  unfold getBootHeader at h
  simp only [Option.bind_eq_bind, Option.bind_eq_some_iff] at h
  obtain ⟨b1, h1, b2, h2, b3, h3, b4, h4, b5, h5, b6, h6, b7, h7, b8, h8, -⟩ := h
  refine ⟨fun f hf => ?_, by rw [h6]; exact Option.some_ne_none b6⟩
  simp only [ktFields, List.mem_append, List.mem_cons] at hf
  rcases hf with hf | hf | rfl | hf | rfl | hf | hf
  · exact ne_none_of_emit h1 hf
  · exact ne_none_of_emit h2 hf
  · rw [h3]
    exact Option.some_ne_none b3
  · exact ne_none_of_emit h4 hf
  · rw [h5]
    exact Option.some_ne_none b5
  · exact ne_none_of_emit h7 hf
  · exact ne_none_of_emit h8 hf

/-- There is no header when a hexadecimal number is `2 ^ 31` or more. -/
theorem getBootHeader_eq_none {config : Config} {v : Key → ℕ} (h : Denotes config v) {k : Key}
    (hk : radixOf k = .hex) (hbig : ¬ v k < 2 ^ 31) (data : List UInt8) :
    getBootHeader sha256 data config = none := by
  rw [Option.eq_none_iff_forall_ne_some]
  intro header hheader
  obtain ⟨hfields, hboot⟩ := getBootHeader_isSome sha256 hheader
  rcases hex_key_cases k hk with rfl | ⟨f, hf, rfl⟩
  · refine hboot ?_
    rw [ktBootCfg, integerDecode_hex (h.hex hk), if_neg hbig, Option.map_none]
  · exact hfields f hf (ktField_eq_none h (ktFields_spec f hf).1 hk hbig)

end

end Firmware
