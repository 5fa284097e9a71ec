import LegoTrain.App.Payload
import LegoTrain.Firmware.Agreement
import LegoTrain.Firmware.HeaderLayout

/-!
# The frames of the upgrade script

`upgrade_firmware.py`: the file that is sent, and the frames of its commands.  The script
computes with unbounded numbers, and `to_bytes` raises an `OverflowError` when one does not
fit, so a frame is an `Option`.

* `upgradeImage` : the main program up to the check of the size;
* `createPayload` : the same frames as those of the app (`createPayload_eq`);
* `programOnePage` : the page frame of the serial upgrade, which has no address to take;
* `upgradeImage_spec` : what is known of every file that is sent.
-/

namespace Upload

open ByteMem Layout Firmware

/-- `FLASH_START_ADDRESS`. -/
def flashStartAddress : ℕ := 0x2F000

/-- `FLASH_PAGE_SIZE`. -/
def flashPageSize : ℕ := 4096

/-! ## The file -/

/-- The main program up to the check of the size: `none` when it ends with an error. -/
def upgradeImage (sha256 : List UInt8 → List UInt8) (data : List UInt8) (config : Config) :
    Option (List UInt8) :=
  (addBootHeader sha256 (padMod 0x10 0x00 data) config).bind fun data =>
    let data := padMod 0x100 0xFF data
    if data.length > flashTotalSize then none else some data

/-! ## The frames -/

/-- The sum in `create_payload`.  The `&` binds weaker than the `+` in the source, too. -/
def checksumOf (data : List UInt8) : ℕ :=
  let checksum := (data.map UInt8.toNat).sum
  let checksum := (checksum + data.length) &&& 0xFF
  let checksum := checksum + ((data.length >>> 8) &&& 0xFF)
  checksum &&& 0xFF

/-- `create_payload`. -/
def createPayload (command : ℕ) (data : List UInt8) : Option (List UInt8) :=
  (pyToBytes (checksumOf data) 1).bind fun checksum =>
    (pyToBytes data.length 2).map fun len => leBytes 1 command ++ checksum ++ len ++ data

/-- The frame of `program_one_page`: the address is always zero. -/
def programOnePage (data : List UInt8) : Option (List UInt8) :=
  (pyToBytes 0 4).bind fun addr => createPayload App.bflbEflashLoaderCmdFlashWrite (addr ++ data)

/-- The frame of `program_one_page_ble`. -/
def programOnePageBle (addr : ℕ) (data : List UInt8) : Option (List UInt8) :=
  (pyToBytes addr 4).bind fun addr =>
    createPayload App.bflbEflashLoaderCmdFlashWrite (addr ++ data)

/-- The frame of `erase_flash` and of `erase_flash_ble`. -/
def eraseFlash (size : ℕ) : Option (List UInt8) :=
  (pyToBytes flashStartAddress 4).bind fun start =>
    (pyToBytes (size + flashStartAddress : ℕ) 4).bind fun size =>
      createPayload App.bflbEflashLoaderCmdFlashErase (start ++ size)

/-- The frame of `system_reset_command` and of `system_reset_command_ble`. -/
def systemResetCommand : Option (List UInt8) :=
  (pyToBytes 0 1).bind (createPayload App.bflbEflashLoaderCmdReset)

theorem checksumOf_eq (data : List UInt8) : checksumOf data = App.payloadChecksum data := by
  have hmask : ∀ n : ℕ, n &&& 0xFF = n % 256 := fun n => Nat.and_two_pow_sub_one_eq_mod n 8
  have hshift : data.length >>> 8 = data.length / 256 := Nat.shiftRight_eq_div_pow _ 8
  simp only [checksumOf, hmask, hshift, App.payloadChecksum_eq]
  omega

/-- The script and the app write the same frames. -/
theorem createPayload_eq (command : ℕ) {data : List UInt8} (h : data.length < 65536) :
    createPayload command data = some (App.createPayload command data) := by
  have hsum : pyToBytes (checksumOf data) 1 = some (leBytes 1 (checksumOf data)) := by
    rw [pyToBytes_ofNat, checksumOf_eq]
    exact if_pos (App.payloadChecksum_lt data)
  have hlen : pyToBytes data.length 2 = some (leBytes 2 data.length) := by
    rw [pyToBytes_ofNat]
    exact if_pos h
  rw [createPayload, hsum, hlen, checksumOf_eq]
  rfl

theorem pyToBytes_zero (n : ℕ) : pyToBytes 0 n = some (leBytes n 0) := by
  have h := pyToBytes_ofNat 0 n
  rwa [if_pos (Nat.pow_pos (by decide))] at h

theorem programOnePage_eq {data : List UInt8} (h : data.length < 65532) :
    programOnePage data = some (App.programOnePageCommandPayload 0 data) := by
  rw [programOnePage, pyToBytes_zero 4, Option.bind_some, createPayload_eq]
  · rfl
  · rw [List.length_append, length_leBytes]
    omega

theorem programOnePageBle_eq {addr : ℕ} {data : List UInt8} (haddr : addr < 2 ^ 32)
    (h : data.length < 65532) :
    programOnePageBle addr data = some (App.programOnePageCommandPayload addr data) := by
  rw [programOnePageBle, pyToBytes_word haddr, Option.bind_some, createPayload_eq]
  · rfl
  · rw [List.length_append, length_leBytes]
    omega

/-- The data of an erase frame: the first address, and the one behind the image. -/
def eraseRange (size : ℕ) : List UInt8 :=
  leBytes 4 flashStartAddress ++ leBytes 4 (size + flashStartAddress)

@[simp] theorem length_eraseRange (size : ℕ) : (eraseRange size).length = 8 := by
  simp [eraseRange]

theorem eraseFlash_eq {size : ℕ} (h : size < 2 ^ 31) :
    eraseFlash size
      = some (App.createPayload App.bflbEflashLoaderCmdFlashErase (eraseRange size)) := by
  have hstart : pyToBytes flashStartAddress 4 = some (leBytes 4 flashStartAddress) :=
    pyToBytes_word (by decide)
  have hend : pyToBytes (size + flashStartAddress : ℕ) 4
      = some (leBytes 4 (size + flashStartAddress)) :=
    pyToBytes_word (by unfold flashStartAddress; omega)
  rw [eraseFlash, hstart, Option.bind_some, hend, Option.bind_some]
  exact createPayload_eq _ (by simp)

theorem systemResetCommand_eq : systemResetCommand = some App.systemResetCommandPayload := by
  rw [systemResetCommand, pyToBytes_zero 1, Option.bind_some,
    createPayload_eq _ (by simp)]
  rfl

/-! ## What is known of the file -/

theorem length_pyToBytes {x : ℤ} {n : ℕ} {bs : List UInt8} (h : pyToBytes x n = some bs) :
    bs.length = n := by
  unfold pyToBytes at h
  split at h
  · cases h
    exact length_leBytes n _
  · cases h

theorem length_pyField {config : Config} (f : Field) (bs : List UInt8)
    (h : pyField config f = some bs) : bs.length = f.width := by
  obtain ⟨x, -, hx⟩ := Option.bind_eq_some_iff.1 h
  exact length_pyToBytes hx

theorem length_pySeal {magic cfg bs : List UInt8} (h : pySeal magic cfg = some bs) :
    bs.length = magic.length + cfg.length + 4 := by
  obtain ⟨crc, hcrc, rfl⟩ := Option.map_eq_some_iff.1 h
  rw [List.length_append, List.length_append, length_pyToBytes hcrc]

theorem pyFinish_eq_some {data header out : List UInt8} (h : pyFinish data header = some out) :
    ∃ rest, out = header ++ rest ∧ 0x1000 + data.length ≤ out.length := by
  rw [pyFinish_eq, Option.some.injEq, padTo_eq] at h
  refine ⟨getCrc32 header ++ (List.replicate (0x1000 - (header ++ getCrc32 header).length) 0xFF
    ++ data), ?_, ?_⟩
  · rw [← h]
    simp only [List.append_assoc]
  · rw [← h]
    simp only [List.length_append, List.length_replicate]
    omega

/-- The offset of `img_len` in the header. -/
def imgLenOffset : ℕ := 120

variable {sha256 : List UInt8 → List UInt8}

/-- The header is at least a page long, and has the size of the firmware in it. -/
theorem addBootHeader_imgLen {config : Config} {data out : List UInt8}
    (h : addBootHeader sha256 data config = some out) :
    (out.drop imgLenOffset).take 4 = leBytes 4 data.length ∧
      0x1000 + data.length ≤ out.length := by
  obtain ⟨b1, h1, h⟩ := Option.bind_eq_some_iff.1 h
  obtain ⟨b2, h2, h⟩ := Option.bind_eq_some_iff.1 h
  obtain ⟨b3, h3, h⟩ := Option.bind_eq_some_iff.1 h
  obtain ⟨flashCfg, hflash, h⟩ := Option.bind_eq_some_iff.1 h
  obtain ⟨b4, h4, h⟩ := Option.bind_eq_some_iff.1 h
  obtain ⟨b5, h5, h⟩ := Option.bind_eq_some_iff.1 h
  obtain ⟨clockCfg, hclock, h⟩ := Option.bind_eq_some_iff.1 h
  obtain ⟨word, -, h⟩ := Option.bind_eq_some_iff.1 h
  obtain ⟨bootCfg, hboot, h⟩ := Option.bind_eq_some_iff.1 h
  obtain ⟨imageLen, hlen, h⟩ := Option.bind_eq_some_iff.1 h
  obtain ⟨image, -, h⟩ := Option.bind_eq_some_iff.1 h
  obtain ⟨pt, -, h⟩ := Option.bind_eq_some_iff.1 h
  obtain ⟨rest, hout, hsize⟩ := pyFinish_eq_some h
  have hl1 : b1.length = 8 := length_emit length_pyField h1
  have hl2 : b2.length = 84 := length_emit length_pyField h2
  have hl4 : b4.length = 8 := length_emit length_pyField h4
  have himg : imageLen = leBytes 4 data.length := by
    rw [pyToBytes_ofNat] at hlen
    split at hlen
    · exact (Option.some.inj hlen).symm
    · cases hlen
  have hpre : (b1 ++ flashCfg ++ clockCfg ++ bootCfg).length = imgLenOffset := by
    simp only [List.length_append, length_pySeal hflash, length_pySeal hclock,
      length_pyToBytes hboot, length_pyField _ _ h3, length_pyField _ _ h5, hl1, hl2, hl4]
    rfl
  refine ⟨?_, hsize⟩
  rw [hout, himg, List.append_assoc, ← hpre, List.drop_left]
  simp only [List.append_assoc]
  exact List.take_left' (length_leBytes 4 _)

/-- **What is known of the file**: it fits the partition, is not empty, and the highest byte
of its size field is zero. -/
theorem upgradeImage_spec {config : Config} {data image : List UInt8}
    (h : upgradeImage sha256 data config = some image) :
    0x1000 ≤ image.length ∧ image.length ≤ flashTotalSize ∧
      image.getD (imgLenOffset + 3) 0 = 0 := by
  obtain ⟨out, hout, h⟩ := Option.bind_eq_some_iff.1 h
  obtain ⟨hfield, hsize⟩ := addBootHeader_imgLen hout
  simp only [padMod_eq (show 0 < 0x100 by decide)] at h
  split at h
  · cases h
  rename_i hmax
  rw [Option.some.injEq] at h
  rw [h, Nat.not_lt] at hmax
  have hle : out.length ≤ image.length := by
    rw [← h, List.length_append]
    exact Nat.le_add_right _ _
  refine ⟨by omega, hmax, ?_⟩
  have hbyte : image.getD (imgLenOffset + 3) 0
      = ((out.drop imgLenOffset).take 4).getD 3 0 := by
    have hin : imgLenOffset + 3 < out.length := by
      unfold imgLenOffset
      omega
    rw [← h, List.getD_append _ _ _ _ hin]
    simp [List.getD_eq_getElem?_getD, List.getElem?_drop]
  rw [hbyte, hfield]
  show UInt8.ofNat ((padMod 0x10 0x00 data).length / 256 / 256 / 256) = 0
  have hzero : (padMod 0x10 (0x00 : UInt8) data).length / 256 / 256 / 256 = 0 := by
    unfold flashTotalSize at hmax
    omega
  rw [hzero]
  rfl

end Upload
