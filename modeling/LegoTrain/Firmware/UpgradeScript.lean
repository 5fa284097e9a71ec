import Mathlib.Data.Int.Bitwise
import LegoTrain.Firmware.Config
import LegoTrain.Lib.Layout
import LegoTrain.Common.SoftCrc

/-!
# The boot header of the upgrade script

`add_boot_header` of `upgrade_firmware.py`.  A number of the script is unbounded, and
`to_bytes` raises an `OverflowError` when it does not fit.  `binascii.crc32` is the CRC-32
that the bootloader computes, and the SHA-256 is a parameter.

* `pyInt16` and `pyInt` : the number parsers;
* `addBootHeader` : `none` when an exception is raised;
* `addBootHeader_eq` : its result for a configuration whose texts denote numbers.
-/

namespace Firmware

open ByteMem SoftCrc Layout

/-! ## Numbers -/

/-- The text without the blanks at its ends. -/
def pyStrip (s : List Char) : List Char :=
  ((s.dropWhile Char.isWhitespace).reverse.dropWhile Char.isWhitespace).reverse

/-- Digits with single underscores between them; `sep` says that one may stand here. -/
def pyDigitsFrom (radix : ℕ) : Bool → ℕ → List Char → Option ℕ
  | sep, acc, [] => if sep then some acc else none
  | sep, acc, c :: cs =>
    if c = '_' then if sep then pyDigitsFrom radix false acc cs else none
    else (digit radix c).bind fun d => pyDigitsFrom radix true (acc * radix + d) cs

/-- The digits after the sign in `int(s, 16)`, with or without a prefix. -/
def pyHexDigits : List Char → Option ℕ
  | '0' :: 'x' :: c :: cs => pyDigitsFrom 16 true 0 (c :: cs)
  | '0' :: 'X' :: c :: cs => pyDigitsFrom 16 true 0 (c :: cs)
  | cs => pyDigitsFrom 16 false 0 cs

/-- A number behind its sign. -/
def pySigned (digits : List Char → Option ℕ) : List Char → Option ℤ
  | '-' :: cs => (digits cs).map fun n : ℕ => -(n : ℤ)
  | '+' :: cs => (digits cs).map fun n : ℕ => (n : ℤ)
  | cs => (digits cs).map fun n : ℕ => (n : ℤ)

/-- `int(s, 16)`: `none` for a `ValueError`. -/
def pyInt16 (s : List Char) : Option ℤ := pySigned pyHexDigits (pyStrip s)

/-- `int(s)`, as `getint` calls it. -/
def pyInt (s : List Char) : Option ℤ := pySigned (pyDigitsFrom 10 false 0) (pyStrip s)

/-- `x.to_bytes(length, "little")`: `none` for an `OverflowError`. -/
def pyToBytes (x : ℤ) (length : ℕ) : Option (List UInt8) :=
  if 0 ≤ x ∧ x < 256 ^ length then some (leBytes length x.toNat) else none

/-- `binascii.crc32(data).to_bytes(4, "little")`. -/
def pyCrc32 (data : List UInt8) : Option (List UInt8) := pyToBytes (bflbSoftCrc32 data) 4

/-! ## The header -/

/-- The number of a key. -/
def pyNumber (config : Config) (key : Key) : Radix → Option ℤ
  | .hex => pyInt16 (config key)
  | .dec => pyInt (config key)

/-- A field of the header. -/
def pyField (config : Config) (f : Field) : Option (List UInt8) :=
  (pyNumber config f.key f.radix).bind fun x => pyToBytes x f.width

/-- The start of the header. -/
def pyHeaderFields : List Field := [⟨.magicCode, .hex, 4⟩, ⟨.revision, .hex, 4⟩]

/-- The flash configuration. -/
def pyFlashFields : List Field :=
  [⟨.ioMode, .hex, 1⟩, ⟨.contReadSupport, .dec, 1⟩, ⟨.sfctrlClkDelay, .dec, 1⟩,
   ⟨.sfctrlClkInvert, .hex, 1⟩, ⟨.resetEnCmd, .hex, 1⟩, ⟨.resetCmd, .hex, 1⟩,
   ⟨.exitContreadCmd, .hex, 1⟩, ⟨.exitContreadCmdSize, .dec, 1⟩, ⟨.jedecidCmd, .hex, 1⟩,
   ⟨.jedecidCmdDmyClk, .dec, 1⟩, ⟨.qpiJedecidCmd, .hex, 1⟩, ⟨.qpiJedecidDmyClk, .dec, 1⟩,
   ⟨.sectorSize, .dec, 1⟩, ⟨.mfgId, .hex, 1⟩, ⟨.pageSize, .dec, 2⟩, ⟨.chipEraseCmd, .hex, 1⟩,
   ⟨.sectorEraseCmd, .hex, 1⟩, ⟨.blk32kEraseCmd, .hex, 1⟩, ⟨.blk64kEraseCmd, .hex, 1⟩,
   ⟨.writeEnableCmd, .hex, 1⟩, ⟨.pageProgCmd, .hex, 1⟩, ⟨.qpageProgCmd, .hex, 1⟩,
   ⟨.qualPageProgAddrMode, .dec, 1⟩, ⟨.fastReadCmd, .hex, 1⟩, ⟨.fastReadDmyClk, .dec, 1⟩,
   ⟨.qpiFastReadCmd, .hex, 1⟩, ⟨.qpiFastReadDmyClk, .dec, 1⟩, ⟨.fastReadDoCmd, .hex, 1⟩,
   ⟨.fastReadDoDmyClk, .dec, 1⟩, ⟨.fastReadDioCmd, .hex, 1⟩, ⟨.fastReadDioDmyClk, .dec, 1⟩,
   ⟨.fastReadQoCmd, .hex, 1⟩, ⟨.fastReadQoDmyClk, .dec, 1⟩, ⟨.fastReadQioCmd, .hex, 1⟩,
   ⟨.fastReadQioDmyClk, .dec, 1⟩, ⟨.qpiFastReadQioCmd, .hex, 1⟩, ⟨.qpiFastReadQioDmyClk, .dec, 1⟩,
   ⟨.qpiPageProgCmd, .hex, 1⟩, ⟨.writeVregEnableCmd, .hex, 1⟩, ⟨.welRegIndex, .dec, 1⟩,
   ⟨.qeRegIndex, .dec, 1⟩, ⟨.busyRegIndex, .dec, 1⟩, ⟨.welBitPos, .dec, 1⟩, ⟨.qeBitPos, .dec, 1⟩,
   ⟨.busyBitPos, .dec, 1⟩, ⟨.welRegWriteLen, .dec, 1⟩, ⟨.welRegReadLen, .dec, 1⟩,
   ⟨.qeRegWriteLen, .dec, 1⟩, ⟨.qeRegReadLen, .dec, 1⟩, ⟨.releasePowerDown, .hex, 1⟩,
   ⟨.busyRegReadLen, .dec, 1⟩, ⟨.regReadCmd0, .hex, 2⟩, ⟨.regReadCmd1, .hex, 2⟩,
   ⟨.regWriteCmd0, .hex, 2⟩, ⟨.regWriteCmd1, .hex, 2⟩, ⟨.enterQpiCmd, .hex, 1⟩,
   ⟨.exitQpiCmd, .hex, 1⟩, ⟨.contReadCode, .hex, 1⟩, ⟨.contReadExitCode, .hex, 1⟩,
   ⟨.burstWrapCmd, .hex, 1⟩, ⟨.burstWrapDmyClk, .hex, 1⟩, ⟨.burstWrapDataMode, .dec, 1⟩,
   ⟨.burstWrapCode, .hex, 1⟩, ⟨.deBurstWrapCmd, .hex, 1⟩, ⟨.deBurstWrapCmdDmyClk, .hex, 1⟩,
   ⟨.deBurstWrapCodeMode, .dec, 1⟩, ⟨.deBurstWrapCode, .hex, 1⟩, ⟨.sectorEraseTime, .dec, 2⟩,
   ⟨.blk32kEraseTime, .dec, 2⟩, ⟨.blk64kEraseTime, .dec, 2⟩, ⟨.pageProgTime, .dec, 2⟩,
   ⟨.chipEraseTime, .dec, 2⟩, ⟨.powerDownDelay, .dec, 2⟩]

/-- The clock configuration. -/
def pyClockFields : List Field :=
  [⟨.xtalType, .dec, 1⟩, ⟨.pllClk, .dec, 1⟩, ⟨.hclkDiv, .dec, 1⟩, ⟨.bclkDiv, .dec, 1⟩,
   ⟨.flashClkType, .dec, 2⟩, ⟨.flashClkDiv, .dec, 2⟩]

/-- The fields of the image configuration before the hash. -/
def pyImageFields : List Field := [⟨.bootentry, .dec, 4⟩, ⟨.imgStart, .hex, 4⟩]

/-- The fields of the image configuration after the hash. -/
def pyPtFields : List Field := [⟨.boot2PtTable0, .hex, 4⟩, ⟨.boot2PtTable1, .hex, 4⟩]

/-- The boot configuration. -/
def pyBootCfg (config : Config) : Option ℤ := do
  let sign ← pyInt (config .sign)
  let encryptType ← pyInt (config .encryptType)
  let keySel ← pyInt (config .keySel)
  let noSegment ← pyInt (config .noSegment)
  let cacheEnable ← pyInt (config .cacheEnable)
  let notloadInBootrom ← pyInt (config .notloadInBootrom)
  let aesRegionLock ← pyInt (config .aesRegionLock)
  let cacheWayDisable ← pyInt16 (config .cacheWayDisable)
  let crcIgnore ← pyInt (config .crcIgnore)
  let hashIgnore ← pyInt (config .hashIgnore)
  let boot2Enable ← pyInt (config .boot2Enable)
  return (((((((((sign.lor (encryptType.shiftLeft 2)).lor (keySel.shiftLeft 4)).lor
    (noSegment.shiftLeft 8)).lor (cacheEnable.shiftLeft 9)).lor (notloadInBootrom.shiftLeft 10)).lor
    (aesRegionLock.shiftLeft 11)).lor (cacheWayDisable.shiftLeft 12)).lor
    (crcIgnore.shiftLeft 16)).lor (hashIgnore.shiftLeft 17)).lor (boot2Enable.shiftLeft 19)

/-- A configuration between its magic code and its CRC. -/
def pySeal (magic cfg : List UInt8) : Option (List UInt8) :=
  (pyCrc32 cfg).map fun crc => magic ++ cfg ++ crc

/-- The header with its CRC, padded, and the firmware after it. -/
def pyFinish (data header : List UInt8) : Option (List UInt8) :=
  (pyCrc32 header).map fun crc => padTo 0x1000 0xFF (header ++ crc) ++ data

section

variable (sha256 : List UInt8 → List UInt8)

/-- `add_boot_header`. -/
def addBootHeader (data : List UInt8) (config : Config) : Option (List UInt8) := do
  let header ← emit (pyField config) pyHeaderFields
  let flashCfg ← emit (pyField config) pyFlashFields
  let flashMagic ← pyField config ⟨.flashcfgMagicCode, .hex, 4⟩
  let flashCfg ← pySeal flashMagic flashCfg
  let clockCfg ← emit (pyField config) pyClockFields
  let clkMagic ← pyField config ⟨.clkcfgMagicCode, .hex, 4⟩
  let clockCfg ← pySeal clkMagic clockCfg
  let word ← pyBootCfg config
  let bootCfg ← pyToBytes word 4
  let imageLen ← pyToBytes data.length 4
  let image ← emit (pyField config) pyImageFields
  let pt ← emit (pyField config) pyPtFields
  pyFinish data (header ++ flashCfg ++ clockCfg ++ bootCfg ++
    (imageLen ++ image ++ sha256 data ++ pt))

end

/-! ## Configurations whose texts denote numbers -/

theorem dropWhile_eq_self {p : Char → Bool} {s : List Char} (h : ∀ c ∈ s, p c = false) :
    s.dropWhile p = s := by
  cases s with
  | nil => rfl
  | cons c s =>
    refine List.dropWhile_cons_of_neg ?_
    rw [h c List.mem_cons_self]
    exact Bool.false_ne_true

theorem pyStrip_eq {s : List Char} (h : ∀ c ∈ s, c.isWhitespace = false) : pyStrip s = s := by
  rw [pyStrip, dropWhile_eq_self h, dropWhile_eq_self (fun c hc => h c (List.mem_reverse.1 hc)),
    List.reverse_reverse]

/-- No digit is a blank. -/
theorem isWhitespace_of_parseDigits {radix v : ℕ} {s : List Char}
    (h : parseDigits radix s = some v) {c : Char} (hc : c ∈ s) : c.isWhitespace = false := by
  have h1 := ne_of_parseDigits h hc (b := ' ') rfl
  have h2 := ne_of_parseDigits h hc (b := '\t') rfl
  have h3 := ne_of_parseDigits h hc (b := '\r') rfl
  have h4 := ne_of_parseDigits h hc (b := '\n') rfl
  simp [Char.isWhitespace, h1, h2, h3, h4]

theorem pyDigitsFrom_eq {radix acc v : ℕ} {s : List Char} (sep : Bool) (hs : s ≠ [])
    (h : digitsFrom radix acc s = some v) : pyDigitsFrom radix sep acc s = some v := by
  induction s generalizing sep acc with
  | nil => exact absurd rfl hs
  | cons c s ih =>
    obtain ⟨d, hd, h⟩ := Option.bind_eq_some_iff.1 h
    have hc : c ≠ '_' := by
      rintro rfl
      cases hd
    rw [pyDigitsFrom, if_neg hc, hd, Option.bind_some]
    cases s with
    | nil => exact h
    | cons b s => exact ih true (List.cons_ne_nil b s) h

theorem pySigned_eq {digits : List Char → Option ℕ} {s : List Char}
    (hminus : s.head? ≠ some '-') (hplus : s.head? ≠ some '+') :
    pySigned digits s = (digits s).map fun n : ℕ => (n : ℤ) := by
  unfold pySigned
  split
  · exact absurd rfl hminus
  · exact absurd rfl hplus
  · rfl

theorem pyInt16_hex {s : List Char} {v : ℕ} (h : HexText s v) : pyInt16 s = some (v : ℤ) := by
  obtain ⟨ds, rfl, hds⟩ := h
  have hstrip : pyStrip ('0' :: 'x' :: ds) = '0' :: 'x' :: ds := by
    refine pyStrip_eq fun c hc => ?_
    rcases List.mem_cons.1 hc with rfl | hc
    · rfl
    · rcases List.mem_cons.1 hc with rfl | hc
      · rfl
      · exact isWhitespace_of_parseDigits hds hc
  rw [pyInt16, hstrip]
  cases ds with
  | nil => cases hds
  | cons c cs =>
    have hdigits : pyHexDigits ('0' :: 'x' :: c :: cs) = some v :=
      pyDigitsFrom_eq true (List.cons_ne_nil c cs) hds
    rw [pySigned_eq (by simp) (by simp), hdigits, Option.map_some]

theorem pyInt_dec {s : List Char} {v : ℕ} (h : DecText s v) : pyInt s = some (v : ℤ) := by
  have hstrip : pyStrip s = s := pyStrip_eq fun c hc => isWhitespace_of_parseDigits h hc
  rw [pyInt, hstrip]
  cases s with
  | nil => cases h
  | cons c cs =>
    have hminus : (c :: cs).head? ≠ some '-' := fun hc =>
      ne_of_parseDigits h List.mem_cons_self (b := '-') rfl (Option.some.inj hc)
    have hplus : (c :: cs).head? ≠ some '+' := fun hc =>
      ne_of_parseDigits h List.mem_cons_self (b := '+') rfl (Option.some.inj hc)
    rw [pySigned_eq hminus hplus, pyDigitsFrom_eq false (List.cons_ne_nil c cs) h, Option.map_some]

theorem pyNumber_eq {config : Config} {v : Key → ℕ} (h : Denotes config v) (k : Key) :
    pyNumber config k (radixOf k) = some (v k : ℤ) := by
  cases hk : radixOf k with
  | hex => exact pyInt16_hex (h.hex hk)
  | dec => exact pyInt_dec (h.dec hk)

theorem pyToBytes_ofNat (x length : ℕ) :
    pyToBytes x length = if x < 256 ^ length then some (leBytes length x) else none := by
  have hiff : (0 ≤ (x : ℤ) ∧ (x : ℤ) < 256 ^ length) ↔ x < 256 ^ length := by
    constructor
    · rintro ⟨-, h⟩
      exact_mod_cast h
    · intro h
      exact ⟨Int.natCast_nonneg x, by exact_mod_cast h⟩
  rw [pyToBytes, Int.toNat_natCast]
  by_cases h : x < 256 ^ length
  · rw [if_pos h, if_pos (hiff.2 h)]
  · rw [if_neg h, if_neg (fun hc => h (hiff.1 hc))]

theorem pyToBytes_word {x : ℕ} (h : x < 2 ^ 32) : pyToBytes x 4 = some (leBytes 4 x) := by
  rw [pyToBytes_ofNat]
  exact if_pos h

/-- A field is written when it fits. -/
theorem pyField_eq {config : Config} {v : Key → ℕ} (h : Denotes config v) {f : Field}
    (hr : f.radix = radixOf f.key) :
    pyField config f = if v f.key < 256 ^ f.width then some (fieldBytes v f) else none := by
  rw [pyField, hr, pyNumber_eq h, Option.bind_some, pyToBytes_ofNat]
  rfl

theorem pyCrc32_eq (data : List UInt8) : pyCrc32 data = some (leBytes 4 (bflbSoftCrc32 data)) := by
  rw [pyCrc32, pyToBytes_word (bflbSoftCrc32_lt data)]

/-- The boot configuration of the script, as a number. -/
def pyWord (v : Key → ℕ) : ℕ :=
  v .sign ||| v .encryptType <<< 2 ||| v .keySel <<< 4 ||| v .noSegment <<< 8 |||
    v .cacheEnable <<< 9 ||| v .notloadInBootrom <<< 10 ||| v .aesRegionLock <<< 11 |||
    v .cacheWayDisable <<< 12 ||| v .crcIgnore <<< 16 ||| v .hashIgnore <<< 17 |||
    v .boot2Enable <<< 19

theorem pyBootCfg_eq {config : Config} {v : Key → ℕ} (h : Denotes config v) :
    pyBootCfg config = some (pyWord v : ℤ) := by
  rw [pyBootCfg, pyInt_dec (h.dec rfl), pyInt_dec (h.dec rfl), pyInt_dec (h.dec rfl),
    pyInt_dec (h.dec rfl), pyInt_dec (h.dec rfl), pyInt_dec (h.dec rfl), pyInt_dec (h.dec rfl),
    pyInt16_hex (h.hex rfl), pyInt_dec (h.dec rfl), pyInt_dec (h.dec rfl), pyInt_dec (h.dec rfl)]
  rfl

end Firmware
