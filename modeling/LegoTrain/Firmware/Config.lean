import LegoTrain.Lib.ByteMem

/-!
# The boot-header configuration

The section `BOOTHEADER_CFG` of `bootheader_cfg.ini`, from which both the app and the upgrade
script make a boot header: a text for each key.  A field of the header is written from one
key, read as a hexadecimal or as a decimal number, in a fixed width.

* `parseDigits` : a number from its digits, as every parser of either language reads them;
* `HexText` and `DecText` : the texts of a number with the prefix `0x`, and of a decimal one.
-/

namespace Firmware

/-- The keys of the section. -/
inductive Key
  | magicCode | revision | flashcfgMagicCode | ioMode | contReadSupport | sfctrlClkDelay
  | sfctrlClkInvert | resetEnCmd | resetCmd | exitContreadCmd | exitContreadCmdSize | jedecidCmd
  | jedecidCmdDmyClk | qpiJedecidCmd | qpiJedecidDmyClk | sectorSize | mfgId | pageSize
  | chipEraseCmd | sectorEraseCmd | blk32kEraseCmd | blk64kEraseCmd | writeEnableCmd | pageProgCmd
  | qpageProgCmd | qualPageProgAddrMode | fastReadCmd | fastReadDmyClk | qpiFastReadCmd
  | qpiFastReadDmyClk | fastReadDoCmd | fastReadDoDmyClk | fastReadDioCmd | fastReadDioDmyClk
  | fastReadQoCmd | fastReadQoDmyClk | fastReadQioCmd | fastReadQioDmyClk | qpiFastReadQioCmd
  | qpiFastReadQioDmyClk | qpiPageProgCmd | writeVregEnableCmd | welRegIndex | qeRegIndex
  | busyRegIndex | welBitPos | qeBitPos | busyBitPos | welRegWriteLen | welRegReadLen
  | qeRegWriteLen | qeRegReadLen | releasePowerDown | busyRegReadLen | regReadCmd0 | regReadCmd1
  | regWriteCmd0 | regWriteCmd1 | enterQpiCmd | exitQpiCmd | contReadCode | contReadExitCode
  | burstWrapCmd | burstWrapDmyClk | burstWrapDataMode | burstWrapCode | deBurstWrapCmd
  | deBurstWrapCmdDmyClk | deBurstWrapCodeMode | deBurstWrapCode | sectorEraseTime
  | blk32kEraseTime | blk64kEraseTime | pageProgTime | chipEraseTime | powerDownDelay
  | clkcfgMagicCode | xtalType | pllClk | hclkDiv | bclkDiv | flashClkType | flashClkDiv | sign
  | encryptType | keySel | noSegment | cacheEnable | notloadInBootrom | aesRegionLock
  | cacheWayDisable | crcIgnore | hashIgnore | boot2Enable | bootentry | imgStart | boot2PtTable0
  | boot2PtTable1
  deriving DecidableEq, Repr

/-- All keys. -/
def keys : List Key := (List.range 98).map Key.ofNat

theorem mem_keys (k : Key) : k ∈ keys := by
  refine List.mem_map.2 ⟨k.ctorIdx, List.mem_range.2 ?_, Key.ofNat_ctorIdx k⟩
  cases k <;> decide

instance (p : Key → Prop) [DecidablePred p] : Decidable (∀ k, p k) :=
  decidable_of_iff (∀ k ∈ keys, p k) ⟨fun h k => h k (mem_keys k), fun h k _ => h k⟩

/-- The texts of the section; a missing key has the empty one. -/
abbrev Config := Key → List Char

/-- How a field is read. -/
inductive Radix
  | hex
  | dec
  deriving DecidableEq, Repr

/-- A field of the header: its key, how it is read, and its width. -/
structure Field where
  key : Key
  radix : Radix
  width : ℕ
  deriving DecidableEq, Repr

/-! ## Numbers in texts -/

/-- The value of an ASCII digit. -/
def digitVal (c : Char) : Option ℕ :=
  if '0' ≤ c ∧ c ≤ '9' then some (c.toNat - '0'.toNat)
  else if 'a' ≤ c ∧ c ≤ 'f' then some (c.toNat - 'a'.toNat + 10)
  else if 'A' ≤ c ∧ c ≤ 'F' then some (c.toNat - 'A'.toNat + 10)
  else none

/-- A digit below the radix. -/
def digit (radix : ℕ) (c : Char) : Option ℕ := (digitVal c).filter fun d => d < radix

/-- The number that continues `acc`. -/
def digitsFrom (radix : ℕ) : ℕ → List Char → Option ℕ
  | acc, [] => some acc
  | acc, c :: cs => (digit radix c).bind fun d => digitsFrom radix (acc * radix + d) cs

/-- The number of one digit or more. -/
def parseDigits (radix : ℕ) : List Char → Option ℕ
  | [] => none
  | c :: cs => digitsFrom radix 0 (c :: cs)

/-- A hexadecimal number with the prefix `0x`. -/
def HexText (s : List Char) (v : ℕ) : Prop := ∃ ds, s = '0' :: 'x' :: ds ∧ parseDigits 16 ds = some v

/-- A decimal number. -/
def DecText (s : List Char) (v : ℕ) : Prop := parseDigits 10 s = some v

theorem digit_of_mem {radix acc v : ℕ} {cs : List Char} (h : digitsFrom radix acc cs = some v)
    {c : Char} (hc : c ∈ cs) : (digit radix c).isSome := by
  induction cs generalizing acc with
  | nil => cases hc
  | cons b cs ih =>
    obtain ⟨d, hd, h⟩ := Option.bind_eq_some_iff.1 h
    rcases List.mem_cons.1 hc with rfl | hmem
    · rw [hd]
      rfl
    · exact ih h hmem

/-- The characters of a number are digits. -/
theorem digit_of_parseDigits {radix v : ℕ} {cs : List Char} (h : parseDigits radix cs = some v)
    {c : Char} (hc : c ∈ cs) : (digit radix c).isSome := by
  cases cs with
  | nil => cases hc
  | cons b cs => exact digit_of_mem h hc

/-- A character that is no digit of any radix does not stand in a number. -/
theorem ne_of_parseDigits {radix v : ℕ} {cs : List Char} (h : parseDigits radix cs = some v)
    {c b : Char} (hc : c ∈ cs) (hb : digitVal b = none) : c ≠ b := by
  rintro rfl
  have hd := digit_of_parseDigits h hc
  rw [digit, hb] at hd
  cases hd

/-- The keys whose texts are decimal; those of the others are hexadecimal. -/
def decimalKeys : List Key :=
  [.contReadSupport, .sfctrlClkDelay, .exitContreadCmdSize, .jedecidCmdDmyClk, .qpiJedecidDmyClk,
   .sectorSize, .pageSize, .qualPageProgAddrMode, .fastReadDmyClk, .qpiFastReadDmyClk,
   .fastReadDoDmyClk, .fastReadDioDmyClk, .fastReadQoDmyClk, .fastReadQioDmyClk,
   .qpiFastReadQioDmyClk, .welRegIndex, .qeRegIndex, .busyRegIndex, .welBitPos, .qeBitPos,
   .busyBitPos, .welRegWriteLen, .welRegReadLen, .qeRegWriteLen, .qeRegReadLen, .busyRegReadLen,
   .burstWrapDataMode, .deBurstWrapCodeMode, .sectorEraseTime, .blk32kEraseTime, .blk64kEraseTime,
   .pageProgTime, .chipEraseTime, .powerDownDelay, .xtalType, .pllClk, .hclkDiv, .bclkDiv,
   .flashClkType, .flashClkDiv, .sign, .encryptType, .keySel, .noSegment, .cacheEnable,
   .notloadInBootrom, .aesRegionLock, .crcIgnore, .hashIgnore, .boot2Enable, .bootentry]

/-- How the text of a key is read. -/
def radixOf (k : Key) : Radix := if k ∈ decimalKeys then .dec else .hex

/-- The texts of a configuration denote these numbers. -/
def Denotes (config : Config) (v : Key → ℕ) : Prop :=
  ∀ k, match radixOf k with
    | .hex => HexText (config k) (v k)
    | .dec => DecText (config k) (v k)

theorem Denotes.hex {config : Config} {v : Key → ℕ} (h : Denotes config v) {k : Key}
    (hk : radixOf k = .hex) : HexText (config k) (v k) := by
  have hd := h k
  rw [hk] at hd
  exact hd

theorem Denotes.dec {config : Config} {v : Key → ℕ} (h : Denotes config v) {k : Key}
    (hk : radixOf k = .dec) : DecText (config k) (v k) := by
  have hd := h k
  rw [hk] at hd
  exact hd

/-! ## Configurations with given numbers -/

theorem digitsFrom_append (radix acc : ℕ) (cs : List Char) (c : Char) :
    digitsFrom radix acc (cs ++ [c]) =
      (digitsFrom radix acc cs).bind fun a => (digit radix c).map fun d => a * radix + d := by
  induction cs generalizing acc with
  | nil => cases h : digit radix c <;> simp [digitsFrom, h]
  | cons b cs ih =>
    rw [List.cons_append, digitsFrom, digitsFrom, Option.bind_assoc]
    congr 1
    funext d
    exact ih (acc * radix + d)

theorem digitVal_digitChar : ∀ d < 16, digitVal (Nat.digitChar d) = some d := by
  decide

theorem digit_digitChar {radix d : ℕ} (hr : radix ≤ 16) (hd : d < radix) :
    digit radix (Nat.digitChar d) = some d := by
  rw [digit, digitVal_digitChar d (by omega), Option.filter_some, if_pos (by simpa using hd)]

theorem digitsFrom_toDigits {radix : ℕ} (h1 : 1 < radix) (h16 : radix ≤ 16) (n : ℕ) :
    digitsFrom radix 0 (Nat.toDigits radix n) = some n := by
  induction n using Nat.strongRecOn with
  | _ n ih =>
    by_cases hn : n < radix
    · rw [Nat.toDigits_of_lt_base hn, digitsFrom, digit_digitChar h16 hn]
      simp [digitsFrom]
    · have hdiv : n / radix < n := Nat.div_lt_self (by omega) h1
      have hmod : n % radix < radix := Nat.mod_lt n (by omega)
      rw [Nat.toDigits_of_base_le h1 (by omega), digitsFrom_append, ih _ hdiv, Option.bind_some,
        digit_digitChar h16 hmod, Option.map_some, Nat.mul_comm, Nat.div_add_mod]

/-- The digits of a number are read as that number. -/
theorem parseDigits_toDigits {radix : ℕ} (h1 : 1 < radix) (h16 : radix ≤ 16) (n : ℕ) :
    parseDigits radix (Nat.toDigits radix n) = some n := by
  have h := digitsFrom_toDigits h1 h16 n
  cases hd : Nat.toDigits radix n with
  | nil => exact absurd hd Nat.toDigits_ne_nil
  | cons c cs =>
    rw [hd] at h
    exact h

/-- The configuration with the given numbers. -/
def configOf (v : Key → ℕ) : Config := fun k =>
  match radixOf k with
  | .hex => '0' :: 'x' :: Nat.toDigits 16 (v k)
  | .dec => Nat.toDigits 10 (v k)

theorem denotes_configOf (v : Key → ℕ) : Denotes (configOf v) v := by
  intro k
  unfold configOf
  cases radixOf k with
  | hex => exact ⟨_, rfl, parseDigits_toDigits (by decide) (by decide) (v k)⟩
  | dec => exact parseDigits_toDigits (by decide) (by decide) (v k)

/-- The numbers of the `bootheader_cfg.ini` that is shipped. -/
def shipped : Key → ℕ
  | .magicCode => 0x504e4642 | .revision => 0x01 | .flashcfgMagicCode => 0x47464346
  | .ioMode => 0x11 | .contReadSupport => 0 | .sfctrlClkDelay => 1 | .sfctrlClkInvert => 0x01
  | .resetEnCmd => 0x66 | .resetCmd => 0x99 | .exitContreadCmd => 0xff | .exitContreadCmdSize => 3
  | .jedecidCmd => 0x9f | .jedecidCmdDmyClk => 0 | .qpiJedecidCmd => 0x9f | .qpiJedecidDmyClk => 0
  | .sectorSize => 4 | .mfgId => 0xc2 | .pageSize => 256 | .chipEraseCmd => 0xc7
  | .sectorEraseCmd => 0x20 | .blk32kEraseCmd => 0x52 | .blk64kEraseCmd => 0xd8
  | .writeEnableCmd => 0x06 | .pageProgCmd => 0x02 | .qpageProgCmd => 0x32
  | .qualPageProgAddrMode => 0 | .fastReadCmd => 0x0b | .fastReadDmyClk => 1
  | .qpiFastReadCmd => 0x0b | .qpiFastReadDmyClk => 1 | .fastReadDoCmd => 0x3b
  | .fastReadDoDmyClk => 1 | .fastReadDioCmd => 0xbb | .fastReadDioDmyClk => 0
  | .fastReadQoCmd => 0x6b | .fastReadQoDmyClk => 1 | .fastReadQioCmd => 0xeb
  | .fastReadQioDmyClk => 2 | .qpiFastReadQioCmd => 0xeb | .qpiFastReadQioDmyClk => 2
  | .qpiPageProgCmd => 0x02 | .writeVregEnableCmd => 0x50 | .welRegIndex => 0 | .qeRegIndex => 1
  | .busyRegIndex => 0 | .welBitPos => 1 | .qeBitPos => 1 | .busyBitPos => 0 | .welRegWriteLen => 2
  | .welRegReadLen => 1 | .qeRegWriteLen => 2 | .qeRegReadLen => 1 | .releasePowerDown => 0xab
  | .busyRegReadLen => 1 | .regReadCmd0 => 0x05 | .regReadCmd1 => 0x00 | .regWriteCmd0 => 0x01
  | .regWriteCmd1 => 0x00 | .enterQpiCmd => 0x38 | .exitQpiCmd => 0xff | .contReadCode => 0x00
  | .contReadExitCode => 0xff | .burstWrapCmd => 0x77 | .burstWrapDmyClk => 0x03
  | .burstWrapDataMode => 2 | .burstWrapCode => 0x40 | .deBurstWrapCmd => 0x77
  | .deBurstWrapCmdDmyClk => 0x03 | .deBurstWrapCodeMode => 2 | .deBurstWrapCode => 0xF0
  | .sectorEraseTime => 300 | .blk32kEraseTime => 1200 | .blk64kEraseTime => 1200
  | .pageProgTime => 5 | .chipEraseTime => 65535 | .powerDownDelay => 20
  | .clkcfgMagicCode => 0x47464350 | .xtalType => 1 | .pllClk => 1 | .hclkDiv => 0 | .bclkDiv => 0
  | .flashClkType => 1 | .flashClkDiv => 0 | .sign => 0 | .encryptType => 0 | .keySel => 1
  | .noSegment => 1 | .cacheEnable => 1 | .notloadInBootrom => 0 | .aesRegionLock => 0
  | .cacheWayDisable => 0x00 | .crcIgnore => 0 | .hashIgnore => 0 | .boot2Enable => 1
  | .bootentry => 0 | .imgStart => 0x2000 | .boot2PtTable0 => 0x2d000 | .boot2PtTable1 => 0x2e000

theorem shipped_lt : ∀ k, shipped k < 2 ^ 31 := by
  decide +kernel

/-! ## The fields of the boot configuration -/

/-- A part of the boot configuration: its key, its lowest bit and its number of bits. -/
structure BitPart where
  key : Key
  lo : ℕ
  bits : ℕ
  deriving DecidableEq, Repr

/-- The parts of the boot configuration, each up to where the next one begins. -/
def bootCfgParts : List BitPart :=
  [⟨.sign, 0, 2⟩, ⟨.encryptType, 2, 2⟩, ⟨.keySel, 4, 4⟩, ⟨.noSegment, 8, 1⟩, ⟨.cacheEnable, 9, 1⟩,
   ⟨.notloadInBootrom, 10, 1⟩, ⟨.aesRegionLock, 11, 1⟩, ⟨.cacheWayDisable, 12, 4⟩,
   ⟨.crcIgnore, 16, 1⟩, ⟨.hashIgnore, 17, 2⟩, ⟨.boot2Enable, 19, 13⟩]

/-- The bytes of a field whose key has the number `v`. -/
def fieldBytes (v : Key → ℕ) (f : Field) : List UInt8 := ByteMem.leBytes f.width (v f.key)

end Firmware
