import LegoTrain.Boot.MediaBoot
import LegoTrain.Firmware.HeaderLayout

/-!
# The bootloader takes what the app creates

`create` puts a header before a firmware, and `blsp_mediaboot_parse_one_fw` takes the two
apart again in a slot of the flash.

* `created_eq` : the file that `create` writes;
* `Placed` : the file at the start of a slot;
* `parse_created_iff` : the bootloader takes it, unless the firmware is empty.
-/

namespace Firmware

open ByteMem SoftCrc Layout Boot Flash Checked

/-! ## The created file -/

/-- What follows the header: the firmware, padded. -/
def paddedFirmware (firmware : List UInt8) : List UInt8 := padMod 0x10 0 firmware

theorem paddedFirmware_eq_nil_iff (firmware : List UInt8) :
    paddedFirmware firmware = [] ↔ firmware = [] := by
  unfold paddedFirmware
  rw [padMod_eq (by decide)]
  constructor
  · intro h
    exact (List.append_eq_nil_iff.1 h).1
  · rintro rfl
    rfl

theorem intValue_le (v : ℕ) : intValue v ≤ v := by
  unfold intValue
  split <;> omega

theorem ktValues_le (v : Key → ℕ) (k : Key) : ktValues v k ≤ v k := by
  unfold ktValues
  split
  · exact Nat.le_refl (v k)
  · exact intValue_le (v k)

/-- **The file that `create` writes** for a configuration whose texts denote numbers. -/
theorem created_eq {sha256 : List UInt8 → List UInt8} {config : Config} {v : Key → ℕ}
    (h : Denotes config v) {firmware out : List UInt8}
    (hcreate : create sha256 firmware config = .created out) :
    out.length ≤ flashTotalSize ∧ ∃ rest, out =
      sealedHeader sha256 (ktWord (ktValues v)) (ktValues v) (paddedFirmware firmware) ++
        (paddedFirmware firmware ++ rest) := by
  have hhex : ∀ k, radixOf k = .hex → v k < 2 ^ 31 := by
    intro k hk
    by_contra hbig
    rw [create, getBootHeader_eq_none sha256 h hk hbig] at hcreate
    cases hcreate
  rw [create, getBootHeader_eq sha256 h hhex] at hcreate
  dsimp only at hcreate
  split at hcreate
  · cases hcreate
  · rename_i hsize
    cases hcreate
    refine ⟨Nat.not_lt.1 hsize, ?_⟩
    rw [output, padMod_eq (by decide), List.append_assoc]
    exact ⟨_, rfl⟩

/-! ## The file in a slot -/

/-- The flags that are shipped. -/
structure ShippedFlags (v : Key → ℕ) : Prop where
  sign : v .sign = 0
  encryptType : v .encryptType = 0
  noSegment : v .noSegment = 1
  crcIgnore : v .crcIgnore = 0
  hashIgnore : v .hashIgnore = 0
  notloadInBootrom : v .notloadInBootrom = 0

theorem ShippedFlags.ktValues {v : Key → ℕ} (h : ShippedFlags v) : ShippedFlags (ktValues v) where
  sign := (congrArg intValue h.sign).trans rfl
  encryptType := (congrArg intValue h.encryptType).trans rfl
  noSegment := (congrArg intValue h.noSegment).trans rfl
  crcIgnore := (congrArg intValue h.crcIgnore).trans rfl
  hashIgnore := (congrArg intValue h.hashIgnore).trans rfl
  notloadInBootrom := (congrArg intValue h.notloadInBootrom).trans rfl

section

variable {sec : SecEng} (hsha : ∀ bs, (sec.sha256 bs).length = 32)
variable {flash : Mem} {slot : ℕ} {v : Key → ℕ} {data rest : List UInt8}
variable (hbits : BitsInRange v) (hflags : ShippedFlags v) (hmagic : v .magicCode = 0x504e4642)
variable (hlen : data.length < 2 ^ 32)
variable (hslot : slot + 0x1000 + data.length ≤ 2 ^ 32)
variable (hflash : read flash slot (0x1000 + data.length) =
  sealedHeader sec.sha256 (ktWord v) v data ++ data)

include hsha hslot hflash

theorem headerAt_read : read (headerAt flash slot) 0 bootHeaderConfigSize =
    encode slots (slotBytes sec.sha256 (ktWord v) v data) := by
  have hsize : bootHeaderConfigSize ≤ 0x1000 := by decide
  have hread : flashRead flash slot bootHeaderConfigSize =
      (sealedHeader sec.sha256 (ktWord v) v data ++ data).take bootHeaderConfigSize := by
    rw [flashRead_eq (by omega), ← hflash, take_read (by omega)]
  rw [headerAt, hread, sealedHeader_eq_append hsha, List.append_assoc,
    List.take_left' (length_encode_slots hsha (ktWord v) v data), read_ofBytes, List.drop_zero,
    List.take_of_length_le]
  · exact Nat.le_of_eq (length_encode_slots hsha (ktWord v) v data)
  · rw [length_encode_slots hsha (ktWord v) v data]
    omega

theorem image_read : flashRead flash (slot + 0x1000) data.length = data := by
  have hdrop := congrArg (List.drop 0x1000) hflash
  rw [drop_read (by omega), List.drop_left' (length_sealedHeader hsha (ktWord v) v data),
    Nat.add_sub_cancel_left] at hdrop
  rw [flashRead_eq hslot, hdrop]

include hbits hflags

/-- A part of the boot configuration in the slot. -/
theorem bitField_headerAt (p : BitPart) (hp : p ∈ bootCfgParts) :
    bitField (BootHeader.bootCfg (headerAt flash slot)) p.lo p.bits = v p.key := by
  have hle : ∀ p ∈ bootCfgParts, p.lo + p.bits ≤ 32 := by decide
  rw [bootCfg_read hsha (headerAt_read hsha hslot hflash), bitField_mod (hle p hp),
    bitField_part hbits hflags.sign hp]

include hmagic

omit hbits hflags in
theorem magicCode_headerAt : (headerAt flash slot).magicCode = bflbBoot2Cpu0Magic := by
  have hslot := slot_read hsha (headerAt_read hsha hslot hflash)
    (s := .field ⟨.magicCode, .hex, 4⟩) (by decide +kernel)
  have hbytes : slotBytes sec.sha256 (ktWord v) v data (.field ⟨.magicCode, .hex, 4⟩) =
      leBytes 4 (v .magicCode) := rfl
  rw [hbytes, hmagic] at hslot
  exact hslot

omit hbits hflags hmagic in
theorem hash_headerAt : (headerAt flash slot).hash = sec.sha256 data :=
  slot_read hsha (headerAt_read hsha hslot hflash) (s := .hash) (by decide +kernel)

omit hbits hflags hmagic in
include hlen in
theorem imgLen_headerAt : (headerAt flash slot).imgLen = data.length := by
  have hread : read (headerAt flash slot) 120 4 = leBytes 4 data.length :=
    slot_read hsha (headerAt_read hsha hslot hflash) (s := .imgLen) (by decide +kernel)
  exact (le_of_read hread).trans (Nat.mod_eq_of_lt hlen)

include hlen

/-- The boot header is taken unless the image is empty. -/
theorem headerOk_iff {g : Globals} (hsign : g.efuseCfg.sign 0 = 0)
    (hencrypt : g.efuseCfg.encrypted 0 = 0) : HeaderOk g (headerAt flash slot) ↔ data ≠ [] := by
  have hpart := bitField_headerAt hsha hbits hflags hslot hflash
  have himgLen := imgLen_headerAt hsha hlen hslot hflash
  constructor
  · intro h hnil
    refine h.len ?_
    rw [himgLen, hnil]
    rfl
  · intro hne
    refine ⟨?_, ?_, .inl (magicCode_headerAt hsha hmagic hslot hflash), ?_, ?_, ?_⟩
    · -- the CRC is not ignored, and it is right
      have hcrc : (headerAt flash slot).crcIgnore = 0 :=
        (hpart ⟨.crcIgnore, 16, 1⟩ (by decide)).trans hflags.crcIgnore
      rw [crcPass, hcrc, if_neg (by simp)]
      exact decide_eq_true (crc32_read hsha (headerAt_read hsha hslot hflash))
    · exact (hpart ⟨.notloadInBootrom, 10, 1⟩ (by decide)).trans hflags.notloadInBootrom
    · exact fun h => absurd hencrypt h
    · exact hsign.trans ((hpart ⟨.sign, 0, 2⟩ (by decide)).trans hflags.sign).symm
    · rw [himgLen]
      exact fun h => hne (List.eq_nil_of_length_eq_zero h)

/-- The slot is taken exactly when the image is not empty. -/
theorem recordsOk_iff {g : Globals} (hsign : g.efuseCfg.sign 0 = 0)
    (hencrypt : g.efuseCfg.encrypted 0 = 0) (readBuf : Mem) :
    (RecordsOk sec g flash readBuf slot ∧ ImgHashOk sec g flash slot (slot + 0x1000)) ↔
      data ≠ [] := by
  have hpart := bitField_headerAt hsha hbits hflags hslot hflash
  have hheader := headerOk_iff hsha hbits hflags hmagic hlen hslot hflash hsign hencrypt
  have hsign0 : (headerAt flash slot).sign = 0 :=
    (hpart ⟨.sign, 0, 2⟩ (by decide)).trans hflags.sign
  have henc0 : (headerAt flash slot).encryptType = 0 :=
    (hpart ⟨.encryptType, 2, 2⟩ (by decide)).trans hflags.encryptType
  constructor
  · exact fun h => hheader.1 h.1.header
  · intro hne
    refine ⟨⟨hheader.2 hne, fun h => absurd hsign0 h, fun h => absurd hsign0 h,
      fun h => absurd henc0 h⟩, fun _ _ => ?_⟩
    rw [HashMatches, hashedPrefix, if_neg (not_not_intro henc0), List.nil_append,
      imgLen_headerAt hsha hlen hslot hflash, image_read hsha hslot hflash,
      hash_headerAt hsha hslot hflash]

end

/-! ## The bootloader -/

/-- **The bootloader takes a created file exactly when the firmware is not empty.**  The file is
at the start of a slot, and the efuse asks for neither a signature nor encryption. -/
theorem parse_created_iff {sec : SecEng} (hsha : ∀ bs, (sec.sha256 bs).length = 32)
    {config : Config} {v : Key → ℕ} (h : Denotes config v) (hbits : BitsInRange v)
    (hmagic : v .magicCode = 0x504e4642) (hflags : ShippedFlags v) {firmware out : List UInt8}
    (hcreate : create sec.sha256 firmware config = .created out) {g : Globals}
    (hsign : g.efuseCfg.sign 0 = 0) (hencrypt : g.efuseCfg.encrypted 0 = 0) {flash : Mem}
    {slot : ℕ} (hslot : slot + out.length ≤ 2 ^ 32) (hflash : read flash slot out.length = out)
    {s : BootState} (h0 : s.cfg.imgValid = 0) :
    (∃ s', blspMediabootParseOneFw sec g flash slot (slot + 0x1000) s = .ok () s' ∧
        s'.cfg.imgValid = 1 ∧ s'.cfg.imgLen = (paddedFirmware firmware).length ∧
        s'.cfg.flashOffset = slot + 0x1000) ↔
      firmware ≠ [] := by
  obtain ⟨hsize, rest, hout⟩ := created_eq h hcreate
  have hnil : firmware ≠ [] ↔ paddedFirmware firmware ≠ [] :=
    (paddedFirmware_eq_nil_iff firmware).not.symm
  rw [hnil]
  generalize paddedFirmware firmware = data at hout ⊢
  -- the file is the header, the image and padding
  have hheader := length_sealedHeader hsha (ktWord (ktValues v)) (ktValues v) data
  have hlength : out.length = 0x1000 + data.length + rest.length := by
    rw [hout, List.length_append, List.length_append, hheader, Nat.add_assoc]
  have htotal : flashTotalSize = 0xca000 := rfl
  have hread : read flash slot (0x1000 + data.length) =
      sealedHeader sec.sha256 (ktWord (ktValues v)) (ktValues v) data ++ data := by
    rw [← take_read (show 0x1000 + data.length ≤ out.length by omega), hflash, hout,
      ← List.append_assoc, List.take_left']
    rw [List.length_append, hheader]
  have hbits' : BitsInRange (ktValues v) :=
    fun p hp => Nat.lt_of_le_of_lt (ktValues_le v p.key) (hbits p hp)
  have hrecords := recordsOk_iff hsha hbits' hflags.ktValues hmagic (by omega) (by omega) hread
    hsign hencrypt s.readBuf
  obtain ⟨cfg, readBuf, dev⟩ := s
  have hpost := blspMediabootParseOneFw_post sec g flash readBuf slot (slot + 0x1000) dev h0
  constructor
  · rintro ⟨s', hrun, -⟩
    obtain ⟨hok, himg, -⟩ := hpost.of_ok hrun
    exact hrecords.1 ⟨hok, himg⟩
  · intro hne
    cases hrun : blspMediabootParseOneFw sec g flash slot (slot + 0x1000) ⟨cfg, readBuf, dev⟩ with
    | error e s' => exact absurd (hrecords.2 hne) (hpost.of_error hrun).1
    | ok a s' =>
      obtain ⟨-, -, hcfg⟩ := hpost.of_ok hrun
      obtain ⟨-, -, -, hlen, -, hoffset, -⟩ :=
        parsedCfg_eq g flash readBuf slot (slot + 0x1000) cfg
      have hseg := (bitField_headerAt hsha hbits' hflags.ktValues (by omega) hread
        ⟨.noSegment, 8, 1⟩ (by decide)).trans hflags.ktValues.noSegment
      have himgLen := imgLen_headerAt hsha (by omega) (by omega) hread
      refine ⟨s', rfl, ?_, ?_, ?_⟩
      · rw [hcfg]
        refine if_pos ?_
        rw [BootHeader.noSegment, hseg]
        exact Nat.one_ne_zero
      · exact (congrArg BootImgCfg.imgLen hcfg).trans (hlen.trans himgLen)
      · exact (congrArg BootImgCfg.flashOffset hcfg).trans hoffset

/-! ## A firmware of one byte -/

/-- A security engine whose SHA-256 is right for sixteen zeros. -/
def zerosSecEng : SecEng where
  sha256 _ :=
    [0x37, 0x47, 0x08, 0xff, 0xf7, 0x71, 0x9d, 0xd5, 0x97, 0x9e, 0xc8, 0x75, 0xd5, 0x6c, 0xd2, 0x28,
     0x6f, 0x6d, 0x3c, 0xf7, 0xec, 0x31, 0x7a, 0x3b, 0x25, 0x63, 0x2a, 0xab, 0x28, 0xec, 0x37, 0xbb]
  ecdsaVerify _ _ _ _ _ := false

/-- Globals of a device without signing and encryption. -/
def plainGlobals : Globals := ⟨⟨fun _ => 0, fun _ => 0, 0, [], []⟩, 0, 0⟩

theorem paddedFirmware_zero : paddedFirmware [0] = List.replicate 16 0 := by
  unfold paddedFirmware
  rw [padMod_eq (by decide)]
  decide

/-- The file for the firmware `0x00` and the shipped configuration. -/
def zeroFile : List UInt8 :=
  output (sealedHeader zerosSecEng.sha256 (ktWord (ktValues shipped)) (ktValues shipped)
    (List.replicate 16 0)) (List.replicate 16 0)

theorem length_zeroFile : zeroFile.length = 0x1100 := by
  rw [zeroFile, output, padMod_eq (by decide), List.length_append, List.length_append,
    length_sealedHeader fun _ => rfl, List.length_replicate, List.length_replicate]

theorem create_zero : create zerosSecEng.sha256 [0] (configOf shipped) = .created zeroFile := by
  have hpadded : padMod 0x10 0 [0] = List.replicate 16 (0 : UInt8) := paddedFirmware_zero
  rw [create, getBootHeader_eq zerosSecEng.sha256 (denotes_configOf shipped)
    (fun k _ => shipped_lt k), hpadded]
  refine if_neg ?_
  show ¬ zeroFile.length > flashTotalSize
  rw [length_zeroFile]
  decide

/-- The file is taken at the start of a flash. -/
theorem parse_created_zero : ∃ s', blspMediabootParseOneFw zerosSecEng plainGlobals
      (ofBytes zeroFile) 0 (0 + 0x1000) ⟨.zero, fun _ => 0, []⟩ = .ok () s' ∧
    s'.cfg.imgValid = 1 ∧ s'.cfg.imgLen = (paddedFirmware [0]).length ∧
    s'.cfg.flashOffset = 0 + 0x1000 := by
  have hbits : BitsInRange shipped := by
    unfold BitsInRange
    decide
  have hflags : ShippedFlags shipped := ⟨rfl, rfl, rfl, rfl, rfl, rfl⟩
  have hslot : 0 + zeroFile.length ≤ 2 ^ 32 := by
    rw [length_zeroFile]
    decide
  have hflash : read (ofBytes zeroFile) 0 zeroFile.length = zeroFile := by
    rw [read_ofBytes (by omega), List.drop_zero, List.take_length]
  exact (parse_created_iff (fun _ => rfl) (denotes_configOf shipped) hbits rfl hflags create_zero
    (g := plainGlobals) rfl rfl hslot hflash rfl).2 (List.cons_ne_nil 0 [])

end Firmware
