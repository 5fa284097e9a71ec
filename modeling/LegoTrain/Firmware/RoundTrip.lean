import LegoTrain.Firmware.HeaderLayout

/-!
# Decoding the emitted header

The bootloader lays `boot_header_config`, with `hal_flash_config` and `hal_pll_config` in it,
over the header.  The app writes the two clock fields of the flash in two bytes each, where the
structure has one, and shifts `sign` together with `encrypt_type`.

* `bootHeaderConfig` : the structure;
* `decode` : what it says for a key of the configuration;
* `getBootHeader_roundTrips_iff` : when it says what the configuration said.
-/

namespace Firmware

open ByteMem SoftCrc Layout Boot

/-! ## The structures -/

/-- The members of `boot_header_config` and of the structures in it. -/
inductive Member
  | magicCode | rivison | flashMagicCode | ioMode | cReadSupport | clkDelay | clkInvert
  | resetEnCmd | resetCmd | resetCreadCmd | resetCreadCmdSize | jedecIdCmd | jedecIdCmdDmyClk
  | qpiJedecIdCmd | qpiJedecIdCmdDmyClk | sectorSize | mid | pageSize | chipEraseCmd
  | sectorEraseCmd | blk32EraseCmd | blk64EraseCmd | writeEnableCmd | pageProgramCmd
  | qpageProgramCmd | qppAddrMode | fastReadCmd | frDmyClk | qpiFastReadCmd | qpiFrDmyClk
  | fastReadDoCmd | frDoDmyClk | fastReadDioCmd | frDioDmyClk | fastReadQoCmd | frQoDmyClk
  | fastReadQioCmd | frQioDmyClk | qpiFastReadQioCmd | qpiFrQioDmyClk | qpiPageProgramCmd
  | writeVregEnableCmd | wrEnableIndex | qeIndex | busyIndex | wrEnableBit | qeBit | busyBit
  | wrEnableWriteRegLen | wrEnableReadRegLen | qeWriteRegLen | qeReadRegLen | releasePowerDown
  | busyReadRegLen | readRegCmd | writeRegCmd | enterQpi | exitQpi | cReadMode | cRExit
  | burstWrapCmd | burstWrapCmdDmyClk | burstWrapDataMode | burstWrapData | deBurstWrapCmd
  | deBurstWrapCmdDmyClk | deBurstWrapDataMode | deBurstWrapData | timeEsector | timeE32k
  | timeE64k | timePagePgm | timeCe | pdDelay | qeData | flashCrc32 | clkMagicCode | xtalType
  | pllClk | hclkDiv | bclkDiv | flashClkType | flashClkDiv | rsvd | clkCrc32 | bootCfg
  | imgSegmentInfo | bootEntry | imgStart | hash | rsv1 | rsv2 | crc32
  deriving DecidableEq, Repr

/-- `SPI_Flash_Cfg_Type`. -/
def spiFlashCfgType : List (Member × ℕ) :=
  [(.ioMode, 1), (.cReadSupport, 1), (.clkDelay, 1), (.clkInvert, 1), (.resetEnCmd, 1),
   (.resetCmd, 1), (.resetCreadCmd, 1), (.resetCreadCmdSize, 1), (.jedecIdCmd, 1),
   (.jedecIdCmdDmyClk, 1), (.qpiJedecIdCmd, 1), (.qpiJedecIdCmdDmyClk, 1), (.sectorSize, 1),
   (.mid, 1), (.pageSize, 2), (.chipEraseCmd, 1), (.sectorEraseCmd, 1), (.blk32EraseCmd, 1),
   (.blk64EraseCmd, 1), (.writeEnableCmd, 1), (.pageProgramCmd, 1), (.qpageProgramCmd, 1),
   (.qppAddrMode, 1), (.fastReadCmd, 1), (.frDmyClk, 1), (.qpiFastReadCmd, 1), (.qpiFrDmyClk, 1),
   (.fastReadDoCmd, 1), (.frDoDmyClk, 1), (.fastReadDioCmd, 1), (.frDioDmyClk, 1),
   (.fastReadQoCmd, 1), (.frQoDmyClk, 1), (.fastReadQioCmd, 1), (.frQioDmyClk, 1),
   (.qpiFastReadQioCmd, 1), (.qpiFrQioDmyClk, 1), (.qpiPageProgramCmd, 1),
   (.writeVregEnableCmd, 1), (.wrEnableIndex, 1), (.qeIndex, 1), (.busyIndex, 1),
   (.wrEnableBit, 1), (.qeBit, 1), (.busyBit, 1), (.wrEnableWriteRegLen, 1),
   (.wrEnableReadRegLen, 1), (.qeWriteRegLen, 1), (.qeReadRegLen, 1), (.releasePowerDown, 1),
   (.busyReadRegLen, 1), (.readRegCmd, 4), (.writeRegCmd, 4), (.enterQpi, 1), (.exitQpi, 1),
   (.cReadMode, 1), (.cRExit, 1), (.burstWrapCmd, 1), (.burstWrapCmdDmyClk, 1),
   (.burstWrapDataMode, 1), (.burstWrapData, 1), (.deBurstWrapCmd, 1), (.deBurstWrapCmdDmyClk, 1),
   (.deBurstWrapDataMode, 1), (.deBurstWrapData, 1), (.timeEsector, 2), (.timeE32k, 2),
   (.timeE64k, 2), (.timePagePgm, 2), (.timeCe, 2), (.pdDelay, 1), (.qeData, 1)]

/-- `hal_flash_config`. -/
def halFlashConfig : List (Member × ℕ) :=
  (.flashMagicCode, 4) :: (spiFlashCfgType ++ [(.flashCrc32, 4)])

/-- `hal_sys_clk_config`. -/
def halSysClkConfig : List (Member × ℕ) :=
  [(.xtalType, 1), (.pllClk, 1), (.hclkDiv, 1), (.bclkDiv, 1), (.flashClkType, 1), (.flashClkDiv, 1),
   (.rsvd, 2)]

/-- `hal_pll_config`. -/
def halPllConfig : List (Member × ℕ) :=
  (.clkMagicCode, 4) :: (halSysClkConfig ++ [(.clkCrc32, 4)])

/-- `boot_header_config`. -/
def bootHeaderConfig : List (Member × ℕ) :=
  (.magicCode, 4) :: (.rivison, 4) :: (halFlashConfig ++ halPllConfig ++
    [(.bootCfg, 4), (.imgSegmentInfo, 4), (.bootEntry, 4), (.imgStart, 4), (.hash, 32), (.rsv1, 4),
     (.rsv2, 4), (.crc32, 4)])

/-- `sizeof`. -/
def sizeof (l : List (Member × ℕ)) : ℕ := (l.map Prod.snd).sum

example : sizeof bootHeaderConfig = bootHeaderConfigSize := by decide +kernel

/-- The offset of a member of `boot_header_config`. -/
def offsetof (m : Member) : ℕ := offset bootHeaderConfig m

/-- Where the structures have a key of the configuration: `n` bytes of a member, or `n` bits of
`bootCfg`. -/
inductive Place
  | bytes (m : Member) (skip n : ℕ)
  | bits (lo n : ℕ)
  deriving DecidableEq, Repr

/-- The place of a key.  Each register command of the configuration has two bytes of a command
buffer, and `boot2_enable` has the reserved bits of `bootCfg`. -/
def place : Key → Place
  | .magicCode => .bytes .magicCode 0 4 | .revision => .bytes .rivison 0 4
  | .flashcfgMagicCode => .bytes .flashMagicCode 0 4 | .ioMode => .bytes .ioMode 0 1
  | .contReadSupport => .bytes .cReadSupport 0 1 | .sfctrlClkDelay => .bytes .clkDelay 0 1
  | .sfctrlClkInvert => .bytes .clkInvert 0 1 | .resetEnCmd => .bytes .resetEnCmd 0 1
  | .resetCmd => .bytes .resetCmd 0 1 | .exitContreadCmd => .bytes .resetCreadCmd 0 1
  | .exitContreadCmdSize => .bytes .resetCreadCmdSize 0 1 | .jedecidCmd => .bytes .jedecIdCmd 0 1
  | .jedecidCmdDmyClk => .bytes .jedecIdCmdDmyClk 0 1 | .qpiJedecidCmd => .bytes .qpiJedecIdCmd 0 1
  | .qpiJedecidDmyClk => .bytes .qpiJedecIdCmdDmyClk 0 1 | .sectorSize => .bytes .sectorSize 0 1
  | .mfgId => .bytes .mid 0 1 | .pageSize => .bytes .pageSize 0 2
  | .chipEraseCmd => .bytes .chipEraseCmd 0 1 | .sectorEraseCmd => .bytes .sectorEraseCmd 0 1
  | .blk32kEraseCmd => .bytes .blk32EraseCmd 0 1 | .blk64kEraseCmd => .bytes .blk64EraseCmd 0 1
  | .writeEnableCmd => .bytes .writeEnableCmd 0 1 | .pageProgCmd => .bytes .pageProgramCmd 0 1
  | .qpageProgCmd => .bytes .qpageProgramCmd 0 1 | .qualPageProgAddrMode => .bytes .qppAddrMode 0 1
  | .fastReadCmd => .bytes .fastReadCmd 0 1 | .fastReadDmyClk => .bytes .frDmyClk 0 1
  | .qpiFastReadCmd => .bytes .qpiFastReadCmd 0 1 | .qpiFastReadDmyClk => .bytes .qpiFrDmyClk 0 1
  | .fastReadDoCmd => .bytes .fastReadDoCmd 0 1 | .fastReadDoDmyClk => .bytes .frDoDmyClk 0 1
  | .fastReadDioCmd => .bytes .fastReadDioCmd 0 1 | .fastReadDioDmyClk => .bytes .frDioDmyClk 0 1
  | .fastReadQoCmd => .bytes .fastReadQoCmd 0 1 | .fastReadQoDmyClk => .bytes .frQoDmyClk 0 1
  | .fastReadQioCmd => .bytes .fastReadQioCmd 0 1 | .fastReadQioDmyClk => .bytes .frQioDmyClk 0 1
  | .qpiFastReadQioCmd => .bytes .qpiFastReadQioCmd 0 1
  | .qpiFastReadQioDmyClk => .bytes .qpiFrQioDmyClk 0 1
  | .qpiPageProgCmd => .bytes .qpiPageProgramCmd 0 1
  | .writeVregEnableCmd => .bytes .writeVregEnableCmd 0 1
  | .welRegIndex => .bytes .wrEnableIndex 0 1 | .qeRegIndex => .bytes .qeIndex 0 1
  | .busyRegIndex => .bytes .busyIndex 0 1 | .welBitPos => .bytes .wrEnableBit 0 1
  | .qeBitPos => .bytes .qeBit 0 1 | .busyBitPos => .bytes .busyBit 0 1
  | .welRegWriteLen => .bytes .wrEnableWriteRegLen 0 1
  | .welRegReadLen => .bytes .wrEnableReadRegLen 0 1 | .qeRegWriteLen => .bytes .qeWriteRegLen 0 1
  | .qeRegReadLen => .bytes .qeReadRegLen 0 1 | .releasePowerDown => .bytes .releasePowerDown 0 1
  | .busyRegReadLen => .bytes .busyReadRegLen 0 1 | .regReadCmd0 => .bytes .readRegCmd 0 2
  | .regReadCmd1 => .bytes .readRegCmd 2 2 | .regWriteCmd0 => .bytes .writeRegCmd 0 2
  | .regWriteCmd1 => .bytes .writeRegCmd 2 2 | .enterQpiCmd => .bytes .enterQpi 0 1
  | .exitQpiCmd => .bytes .exitQpi 0 1 | .contReadCode => .bytes .cReadMode 0 1
  | .contReadExitCode => .bytes .cRExit 0 1 | .burstWrapCmd => .bytes .burstWrapCmd 0 1
  | .burstWrapDmyClk => .bytes .burstWrapCmdDmyClk 0 1
  | .burstWrapDataMode => .bytes .burstWrapDataMode 0 1
  | .burstWrapCode => .bytes .burstWrapData 0 1 | .deBurstWrapCmd => .bytes .deBurstWrapCmd 0 1
  | .deBurstWrapCmdDmyClk => .bytes .deBurstWrapCmdDmyClk 0 1
  | .deBurstWrapCodeMode => .bytes .deBurstWrapDataMode 0 1
  | .deBurstWrapCode => .bytes .deBurstWrapData 0 1 | .sectorEraseTime => .bytes .timeEsector 0 2
  | .blk32kEraseTime => .bytes .timeE32k 0 2 | .blk64kEraseTime => .bytes .timeE64k 0 2
  | .pageProgTime => .bytes .timePagePgm 0 2 | .chipEraseTime => .bytes .timeCe 0 2
  | .powerDownDelay => .bytes .pdDelay 0 1 | .clkcfgMagicCode => .bytes .clkMagicCode 0 4
  | .xtalType => .bytes .xtalType 0 1 | .pllClk => .bytes .pllClk 0 1
  | .hclkDiv => .bytes .hclkDiv 0 1 | .bclkDiv => .bytes .bclkDiv 0 1
  | .flashClkType => .bytes .flashClkType 0 1 | .flashClkDiv => .bytes .flashClkDiv 0 1
  | .sign => .bits 0 2 | .encryptType => .bits 2 2 | .keySel => .bits 4 2 | .noSegment => .bits 8 1
  | .cacheEnable => .bits 9 1 | .notloadInBootrom => .bits 10 1 | .aesRegionLock => .bits 11 1
  | .cacheWayDisable => .bits 12 4 | .crcIgnore => .bits 16 1 | .hashIgnore => .bits 17 1
  | .boot2Enable => .bits 19 13 | .bootentry => .bytes .bootEntry 0 4
  | .imgStart => .bytes .imgStart 0 4 | .boot2PtTable0 => .bytes .rsv1 0 4
  | .boot2PtTable1 => .bytes .rsv2 0 4

/-- How many values a place has. -/
def Place.capacity : Place → ℕ
  | .bytes _ _ n => 256 ^ n
  | .bits _ n => 2 ^ n

/-- The numbers fit the widths of the structures. -/
def FitsC (v : Key → ℕ) : Prop := ∀ k, v k < (place k).capacity

/-- What the structures say for a place. -/
def Place.read (header : Mem) : Place → ℕ
  | .bytes m skip n => le header (offsetof m + skip) n
  | .bits lo n => bitField (le header (offsetof .bootCfg) 4) lo n

/-- What the structures say for a key. -/
def decode (header : Mem) (k : Key) : ℕ := (place k).read header

/-- `qeData`, for which the configuration has the key `qe_data` that `getBootHeader` does not
read. -/
def qeData (header : Mem) : ℕ := le header (offsetof .qeData) 1

/-- The decoded header is the configuration, and its CRCs are right. -/
structure RoundTrips (v : Key → ℕ) (qe : ℕ) (header : Mem) : Prop where
  decode : ∀ k, decode header k = v k
  qeData : qeData header = qe
  flashCrc : le header (offsetof .flashCrc32) 4 =
    bflbSoftCrc32 (read header (offsetof .ioMode) (sizeof spiFlashCfgType))
  clkCrc : le header (offsetof .clkCrc32) 4 =
    bflbSoftCrc32 (read header (offsetof .xtalType) (sizeof halSysClkConfig))
  crc : le header (offsetof .crc32) 4 =
    bflbSoftCrc32 (read header 0 (sizeof bootHeaderConfig - 4))

/-! ## Where the app writes the keys -/

/-- The app writes a key where the structures have it. -/
def Place.check (k : Key) : Place → Bool
  | .bytes m skip n => ktFields.any fun f => decide (f.key = k ∧
      offsetof m + skip = offset slots (.field f) ∧ n ≤ f.width)
  | .bits lo n => bootCfgParts.any fun p => decide (p.key = k ∧ p.lo = lo ∧ n ≤ p.bits)

/-- All keys but `flash_clk_div` are written where the structures have them. -/
theorem place_check : ∀ k, k ≠ .flashClkDiv → (place k).check k = true := by
  decide +kernel

theorem field_mem_slots : ∀ f ∈ ktFields, (Slot.field f) ∈ slots.map Prod.fst ∧
    width slots (.field f) = f.width := by
  decide +kernel

section

variable {sha256 : List UInt8 → List UInt8} (hsha : ∀ bs, (sha256 bs).length = 32)
variable {word : ℕ} {v : Key → ℕ} {data : List UInt8} {header : Mem}
variable (hh : read header 0 bootHeaderConfigSize = encode slots (slotBytes sha256 word v data))

include hsha hh

theorem field_read {f : Field} (hf : f ∈ ktFields) :
    read header (offset slots (.field f)) f.width = leBytes f.width (v f.key) := by
  obtain ⟨hmem, hw⟩ := field_mem_slots f hf
  have hslot := slot_read hsha hh hmem
  rw [hw] at hslot
  exact hslot

theorem decode_bytes {k : Key} {m : Member} {skip n : ℕ} (hp : place k = .bytes m skip n)
    (hk : k ≠ .flashClkDiv) : decode header k = v k % 256 ^ n := by
  have hcheck := place_check k hk
  rw [hp] at hcheck
  obtain ⟨f, hf, heq⟩ := List.any_eq_true.1 hcheck
  obtain ⟨rfl, hoff, hn⟩ := of_decide_eq_true heq
  have hle : 0 + n ≤ f.width := by rwa [Nat.zero_add]
  have hread := le_sub_of_read (field_read hsha hh hf) hle
  rw [decode, hp]
  show le header (offsetof m + skip) n = _
  rwa [hoff, ← Nat.div_one (v f.key)]

theorem decode_bits {k : Key} {lo n : ℕ} (hp : place k = .bits lo n) (hle : lo + n ≤ 32) :
    decode header k = bitField word lo n := by
  have hword : le header (offsetof .bootCfg) 4 = word % 2 ^ 32 := bootCfg_read hsha hh
  rw [decode, hp]
  show bitField (le header (offsetof .bootCfg) 4) lo n = _
  rw [hword, bitField_mod hle]

/-- `flash_clk_div` is decoded from the high byte of `flash_clk_type`. -/
theorem decode_flashClkDiv : decode header .flashClkDiv = v .flashClkType / 256 % 256 :=
  le_sub_of_read (k := 1) (n := 1)
    (field_read hsha hh (f := ⟨.flashClkType, .dec, 2⟩) (by decide +kernel)) (by decide)

/-- `qeData` is decoded from the high byte of `power_down_delay`. -/
theorem qeData_eq : qeData header = v .powerDownDelay / 256 % 256 :=
  le_sub_of_read (k := 1) (n := 1)
    (field_read hsha hh (f := ⟨.powerDownDelay, .dec, 2⟩) (by decide +kernel)) (by decide)

omit hh

/-! ## The round trip -/

omit hsha in
theorem FitsC.bits (h : FitsC v) : BitsInRange v := by
  have hcap : ∀ p ∈ bootCfgParts, (place p.key).capacity ≤ 2 ^ p.bits := by decide
  exact fun p hp => Nat.lt_of_lt_of_le (h p.key) (hcap p hp)

omit hsha in
/-- Only `bootentry` can be too large for an `Int`. -/
theorem FitsC.dec_lt (h : FitsC v) {k : Key} (hk : radixOf k = .dec) (hne : k ≠ .bootentry) :
    v k < 2 ^ 31 := by
  have hcap : ∀ k, radixOf k = .dec → k ≠ .bootentry → (place k).capacity ≤ 2 ^ 31 := by
    decide +kernel
  exact Nat.lt_of_lt_of_le (h k) (hcap k hk hne)

/-- Without `sign` and `flash_clk_div` every key is decoded as it was. -/
theorem decode_eq (hh : read header 0 bootHeaderConfigSize =
      encode slots (slotBytes sha256 (ktWord v) v data))
    (hfit : FitsC v) (hsign : v .sign = 0) (hdiv : v .flashClkDiv = 0) (k : Key) :
    decode header k = v k := by
  have hk := hfit k
  cases hp : place k with
  | bytes m skip n =>
    rw [hp] at hk
    by_cases hne : k = .flashClkDiv
    · subst hne
      have htype : v .flashClkType < 256 := hfit .flashClkType
      rw [decode_flashClkDiv hsha hh, hdiv, Nat.div_eq_of_lt htype, Nat.zero_mod]
    · rw [decode_bytes hsha hh hp hne]
      exact Nat.mod_eq_of_lt hk
  | bits lo n =>
    have hcheck := place_check k (by rintro rfl; cases hp)
    rw [hp] at hcheck hk
    obtain ⟨p, hmem, heq⟩ := List.any_eq_true.1 hcheck
    obtain ⟨rfl, rfl, hn⟩ := of_decide_eq_true heq
    have hle : ∀ p ∈ bootCfgParts, p.lo + p.bits ≤ 32 := by decide
    have hle := hle p hmem
    rw [decode_bits hsha hh hp (by omega), bitField_of_width_le hn,
      bitField_part hfit.bits hsign hmem]
    exact Nat.mod_eq_of_lt hk

/-- The CRC of the flash configuration is over the bytes that it is read from. -/
theorem flashCrc_read (hh : read header 0 bootHeaderConfigSize =
      encode slots (slotBytes sha256 word v data)) :
    le header (offsetof .flashCrc32) 4 =
      bflbSoftCrc32 (read header (offsetof .ioMode) (sizeof spiFlashCfgType)) := by
  have hcrc : read header (offsetof .flashCrc32) 4 =
      leBytes 4 (bflbSoftCrc32 (ktFlashFields.flatMap (fieldBytes v))) :=
    slot_read hsha hh (s := .flashCrc) (by decide +kernel)
  have hslots : slots = slots.take 3 ++ (fieldSlots ktFlashFields ++ slots.drop 76) := by
    decide +kernel
  have hoff : offsetof .ioMode = ((slots.take 3).map Prod.snd).sum := by decide +kernel
  have hsize : sizeof spiFlashCfgType = ((fieldSlots ktFlashFields).map Prod.snd).sum := by
    decide +kernel
  rw [le_of_read hcrc, hoff, hsize, part_read hsha hh hslots, encode_fieldSlots, Nat.mod_eq_of_lt (bflbSoftCrc32_lt _)]

/-- The CRC of the clock configuration is over the bytes that it is read from. -/
theorem clkCrc_read (hh : read header 0 bootHeaderConfigSize =
      encode slots (slotBytes sha256 word v data)) :
    le header (offsetof .clkCrc32) 4 =
      bflbSoftCrc32 (read header (offsetof .xtalType) (sizeof halSysClkConfig)) := by
  have hcrc : read header (offsetof .clkCrc32) 4 =
      leBytes 4 (bflbSoftCrc32 (ktClockFields.flatMap (fieldBytes v))) :=
    slot_read hsha hh (s := .clockCrc) (by decide +kernel)
  have hslots : slots = slots.take 78 ++ (fieldSlots ktClockFields ++ slots.drop 84) := by
    decide +kernel
  have hoff : offsetof .xtalType = ((slots.take 78).map Prod.snd).sum := by decide +kernel
  have hsize : sizeof halSysClkConfig = ((fieldSlots ktClockFields).map Prod.snd).sum := by
    decide +kernel
  rw [le_of_read hcrc, hoff, hsize, part_read hsha hh hslots, encode_fieldSlots, Nat.mod_eq_of_lt (bflbSoftCrc32_lt _)]

/-- **The emitted header**, decoded. -/
theorem roundTrips (hh : read header 0 bootHeaderConfigSize =
      encode slots (slotBytes sha256 (ktWord v) v data))
    (hfit : FitsC v) (hsign : v .sign = 0) (hdiv : v .flashClkDiv = 0) : RoundTrips v 0 header where
  decode := decode_eq hsha hh hfit hsign hdiv
  qeData := by
    have hdelay : v .powerDownDelay < 256 := hfit .powerDownDelay
    rw [qeData_eq hsha hh, Nat.div_eq_of_lt hdelay, Nat.zero_mod]
  flashCrc := flashCrc_read hsha hh
  clkCrc := clkCrc_read hsha hh
  crc := crc32_read hsha hh

/-- A round trip needs numbers that are `Int`s, and zeros where the app loses a number. -/
theorem zero_of_roundTrips {config : Config} (h : Denotes config v) (hfit : FitsC v) {qe : ℕ}
    {bytes : List UInt8} (hheader : getBootHeader sha256 data config = some bytes)
    (hround : RoundTrips v qe (ofBytes bytes)) :
    (∀ k, radixOf k = .hex → v k < 2 ^ 31) ∧ v .bootentry < 2 ^ 31 ∧ v .sign = 0 ∧
      v .flashClkDiv = 0 ∧ qe = 0 := by
  have hhex : ∀ k, radixOf k = .hex → v k < 2 ^ 31 := by
    intro k hk
    by_contra hbig
    rw [getBootHeader_eq_none sha256 h hk hbig] at hheader
    cases hheader
  rw [getBootHeader_eq sha256 h hhex] at hheader
  have hh : read (ofBytes (sealedHeader sha256 (ktWord (ktValues v)) (ktValues v) data ++ [])) 0
      bootHeaderConfigSize =
        encode slots (slotBytes sha256 (ktWord (ktValues v)) (ktValues v) data) :=
    read_sealedHeader hsha []
  rw [List.append_nil, Option.some.inj hheader] at hh
  have hval : ∀ k, k ≠ .bootentry → ktValues v k = v k := by
    intro k hne
    unfold ktValues
    cases hk : radixOf k with
    | hex => rfl
    | dec => exact intValue_of_lt (hfit.dec_lt hk hne)
  refine ⟨hhex, ?_, ?_, ?_, ?_⟩
  · -- a `bootentry` that is no `Int` is written as 0
    have hentry := hround.decode .bootentry
    have hplace : place .bootentry = .bytes .bootEntry 0 4 := rfl
    rw [decode_bytes hsha hh hplace (by decide)] at hentry
    have hkt : ktValues v .bootentry = intValue (v .bootentry) := rfl
    rw [hkt, intValue] at hentry
    by_contra hbig
    rw [if_neg hbig] at hentry
    omega
  · -- nothing is written where `sign` stands
    have hplace : place .sign = .bits 0 2 := rfl
    rw [← hround.decode .sign, decode_bits hsha hh hplace (by decide)]
    exact bitField_ktWord_sign (ktValues v)
  · -- `flash_clk_div` is read where the high byte of `flash_clk_type` was written
    have htype : v .flashClkType < 256 := hfit .flashClkType
    rw [← hround.decode .flashClkDiv, decode_flashClkDiv hsha hh, hval _ (by decide),
      Nat.div_eq_of_lt htype, Nat.zero_mod]
  · have hdelay : v .powerDownDelay < 256 := hfit .powerDownDelay
    rw [← hround.qeData, qeData_eq hsha hh, hval _ (by decide), Nat.div_eq_of_lt hdelay,
      Nat.zero_mod]

/-- **The structures give back the configuration exactly when** every number is an `Int` and
`sign`, `flash_clk_div` and `qe_data` are 0. -/
theorem getBootHeader_roundTrips_iff {config : Config} (h : Denotes config v) (hfit : FitsC v)
    (qe : ℕ) (data : List UInt8) :
    (∃ header, getBootHeader sha256 data config = some header ∧
        RoundTrips v qe (ofBytes header)) ↔
      (∀ k, radixOf k = .hex → v k < 2 ^ 31) ∧ v .bootentry < 2 ^ 31 ∧ v .sign = 0 ∧
        v .flashClkDiv = 0 ∧ qe = 0 := by
  constructor
  · rintro ⟨header, hheader, hround⟩
    exact zero_of_roundTrips hsha h hfit hheader hround
  · rintro ⟨hhex, hentry, hsign, hdiv, rfl⟩
    have hself : ktValues v = v := by
      refine ktValues_eq_self fun k hk => ?_
      by_cases hne : k = .bootentry
      · rwa [hne]
      · exact hfit.dec_lt hk hne
    have hh : read (ofBytes (sealedHeader sha256 (ktWord v) v data ++ [])) 0 bootHeaderConfigSize =
        encode slots (slotBytes sha256 (ktWord v) v data) := read_sealedHeader hsha []
    rw [List.append_nil] at hh
    refine ⟨_, getBootHeader_eq sha256 h hhex data, ?_⟩
    rw [hself]
    exact roundTrips hsha hh hfit hsign hdiv

end

theorem shipped_fitsC : FitsC shipped := by
  unfold FitsC
  decide +kernel

/-- The shipped configuration is given back. -/
theorem getBootHeader_roundTrips_shipped :
    ∃ header, getBootHeader sha256Empty [] (configOf shipped) = some header ∧
      RoundTrips shipped 0 (ofBytes header) :=
  (getBootHeader_roundTrips_iff (fun _ => rfl) (denotes_configOf shipped) shipped_fitsC 0 []).2
    ⟨fun k _ => shipped_lt k, by decide, rfl, rfl, rfl⟩

/-- The shipped configuration with a divided flash clock. -/
def divided : Key → ℕ := Function.update shipped .flashClkDiv 1

theorem divided_fitsC : FitsC divided := by
  unfold FitsC
  decide +kernel

/-- `flash_clk_div = 1` is lost. -/
theorem getBootHeader_roundTrips_divided : Denotes (configOf divided) divided ∧ FitsC divided ∧
    ¬ ∃ header, getBootHeader sha256Empty [] (configOf divided) = some header ∧
      RoundTrips divided 0 (ofBytes header) := by
  refine ⟨denotes_configOf divided, divided_fitsC, ?_⟩
  rintro ⟨header, hheader, hround⟩
  obtain ⟨-, -, -, hdiv, -⟩ := zero_of_roundTrips (fun _ => rfl) (denotes_configOf divided)
    divided_fitsC hheader hround
  exact absurd hdiv (by decide)

end Firmware
