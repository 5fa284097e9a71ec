import LegoTrain.Boot.Parser

/-!
# Booting from flash

`blsp_media_boot.c`: reading a firmware's records out of the flash and checking the image
against them.

* `blspMediabootParseOneFw` is the function of the source;
* `RecordsOk` says when every record is taken, `ImgHashOk` when the image's hash is;
* `blspMediabootParseOneFw_post` : the function succeeds exactly then, and `img_valid` is
  set exactly when the header has `no_segment` as well (`imgValid_iff`).
-/

namespace Boot

open ByteMem Flash SoftCrc Checked

/-! ## Reading the flash -/

/-- `blsp_mediaboot_read(addr, g_boot2_read_buf, len)`.  The address is one of the XIP window
at `BLSP_BOOT2_XIP_BASE`, which shows the array from its first byte on; the result of
`flash_read` is not looked at. -/
def blspMediabootRead (flash : Mem) (addr len : ℕ) : BootM Unit :=
  modify fun s => { s with readBuf := write s.readBuf 0 (flashRead flash addr len) }

/-- The structure of `len` bytes at the start of `g_boot2_read_buf`. -/
def bufferAs (len : ℕ) : BootM Mem := do
  let s ← get
  pure (ofBytes (read s.readBuf 0 len))

/-- `read_len` of `blsp_mediaboot_cal_hash`.  It is an `int32_t`: from `2 ^ 31` on it is
negative, and not cut down to the size of the buffer. -/
def readLen (rest : ℕ) : ℕ :=
  if rest < 2 ^ 31 ∧ rest > bflbBoot2ReadbufSize then bflbBoot2ReadbufSize else rest

theorem readLen_le (rest : ℕ) : readLen rest ≤ rest := by
  unfold readLen
  split
  · rename_i h
    exact Nat.le_of_lt h.2
  · exact Nat.le_refl rest

theorem readLen_pos {rest : ℕ} (h : rest ≠ 0) : 0 < readLen rest := by
  unfold readLen
  split
  · decide
  · exact Nat.pos_of_ne_zero h

/-- `blsp_mediaboot_cal_hash`, from the pass on for which `rest` bytes are left. -/
def blspMediabootCalHash (flash : Mem) (addr rest : ℕ) : BootM Unit :=
  if h : rest = 0 then pure ()
  else do
    blspMediabootRead flash addr (readLen rest)
    let s ← get
    hashWrite (read s.readBuf 0 (readLen rest))
    have := readLen_pos h
    blspMediabootCalHash flash (u32 (addr + readLen rest)) (rest - readLen rest)
termination_by rest

theorem flashRead_append (flash : Mem) (addr a b : ℕ) :
    flashRead flash addr (a + b) = flashRead flash addr a ++ flashRead flash (u32 (addr + a)) b := by
  have hwrap : ∀ i, u32 (addr + (a + i)) = u32 (u32 (addr + a) + i) := by
    intro i
    rw [← Nat.add_assoc]
    exact (Nat.mod_add_mod (addr + a) (2 ^ 32) i).symm
  simp only [flashRead, List.range_add, List.map_append, List.map_map, Function.comp_def, hwrap]

/-- The hash device takes in exactly the bytes of the range, in their order. -/
theorem blspMediabootCalHash_post (flash : Mem) (addr rest : ℕ) (s : BootState)
    (E : BootError → BootState → Prop) :
    Post (blspMediabootCalHash flash addr rest) s
      (fun _ s' => s'.cfg = s.cfg ∧
        s'.devCheckHash = s.devCheckHash ++ flashRead flash addr rest) E := by
  induction rest using Nat.strongRecOn generalizing addr s with
  | ind rest ih =>
    rw [blspMediabootCalHash]
    by_cases h : rest = 0
    · rw [dif_pos h]
      subst h
      exact post_pure ⟨rfl, (List.append_nil _).symm⟩
    · rw [dif_neg h]
      have hpos := readLen_pos h
      have hle := readLen_le rest
      apply post_bind
      apply post_modify
      apply post_bind
      apply post_get
      apply post_bind
      apply post_modify
      refine (ih (rest - readLen rest) (by omega) _ _).mono ?_ fun _ _ h => h
      rintro - s' ⟨hcfg, hdev⟩
      refine ⟨hcfg, ?_⟩
      have hread := read_write_same s.readBuf 0 (flashRead flash addr (readLen rest))
      rw [length_flashRead] at hread
      rw [hdev]
      show s.devCheckHash ++ read _ 0 (readLen rest) ++ _ = _
      rw [hread, List.append_assoc, ← flashRead_append, Nat.add_sub_cancel' hle]

/-- A buffer with the signature record at `addr`: the signature with its CRC is read to its
place in the record, then the length is copied in front of it. -/
def loadSignature (flash buf : Mem) (addr sigLen : ℕ) : Mem :=
  write (write buf 4 (flashRead flash (u32 (addr + 4)) (sigLen + 4))) 0 (leBytes 4 sigLen)

/-- `blsp_mediaboot_read_signaure`: it returns `*len`. -/
def blspMediabootReadSignaure (flash : Mem) (addr : ℕ) : BootM ℕ := do
  let sigLen := leNat (flashRead flash addr 4)
  failIf (sigLen > bflbBoot2SignMaxsize) .imgSignatureLenError
  modify fun s => { s with readBuf := loadSignature flash s.readBuf addr sigLen }
  pure sigLen

/-! ## Parsing one firmware -/

/-- `sizeof(boot_sign_config)`. -/
def bootSignConfigSize : ℕ := 264

/-- "If sign enable, get pk key and signature": the address after these records.  The error
code of `blsp_mediaboot_read_signaure` is not stored in `ret`. -/
def parseSigned (sec : SecEng) (g : Globals) (flash : Mem) (addr : ℕ) : BootM ℕ := do
  blspMediabootRead flash addr bootPkConfigSize
  let pk ← bufferAs bootPkConfigSize
  blspBootParsePkey sec g pk 1
  let sigLen ← dropError 0 (blspMediabootReadSignaure flash (u32 (addr + bootPkConfigSize)))
  let sig ← bufferAs bootSignConfigSize
  blspBootParseSignature sig
  pure (u32 (u32 (addr + bootPkConfigSize) + 4 + (sigLen + 4)))

/-- "If encrypt enable, get AES key". -/
def parseEncrypted (flash : Mem) (addr : ℕ) : BootM Unit := do
  blspMediabootRead flash addr bootAesConfigSize
  let aes ← bufferAs bootAesConfigSize
  blspBootParseAesiv aes

/-- The hash of a flash image. -/
def checkImgHash (sec : SecEng) (flash : Mem) (imgAddr imgLen : ℕ) : BootM Unit := do
  blspMediabootCalHash flash imgAddr imgLen
  blspBootParserCheckHash sec

/-- The last part of `blsp_mediaboot_parse_one_fw`: the image itself. -/
def checkImg (sec : SecEng) (g : Globals) (flash : Mem) (imgAddr : ℕ) : BootM Unit := do
  let s ← get
  if s.cfg.noSegment ≠ 0 then
    (if s.cfg.hashIgnore = 0 then checkImgHash sec flash imgAddr s.cfg.imgLen else pure ())
    blspBootParserCheckSignature sec g
    modifyCfg fun cfg => { cfg with imgValid := 1 }
  else
    modifyCfg fun cfg => { cfg with imgValid := 0 }

/-- `blsp_mediaboot_parse_one_fw`. -/
def blspMediabootParseOneFw (sec : SecEng) (g : Globals) (flash : Mem)
    (bootHeaderAddr imgAddr : ℕ) : BootM Unit := do
  blspMediabootRead flash bootHeaderAddr bootHeaderConfigSize
  let header ← bufferAs bootHeaderConfigSize
  blspBootParseBootheader g header
  modifyCfg fun cfg => { cfg with flashOffset := imgAddr }
  let s ← get
  let addr ← (if s.cfg.signType ≠ 0 then
      parseSigned sec g flash (u32 (bootHeaderAddr + bootHeaderConfigSize))
    else pure (u32 (bootHeaderAddr + bootHeaderConfigSize)))
  (if s.cfg.encryptType ≠ 0 then parseEncrypted flash addr else pure ())
  checkImg sec g flash imgAddr

/-! ## The records in flash -/

section Records

variable (flash readBuf : Mem) (addr : ℕ)

/-- The boot header at `addr`. -/
def headerAt : BootHeader := ofBytes (flashRead flash addr bootHeaderConfigSize)

/-- The address after the boot header. -/
def pkAddr : ℕ := u32 (addr + bootHeaderConfigSize)

/-- The public key after the boot header at `addr`. -/
def pkAt : Mem := ofBytes (flashRead flash (pkAddr addr) bootPkConfigSize)

/-- The address of the signature record. -/
def sigAddr : ℕ := u32 (pkAddr addr + bootPkConfigSize)

/-- The length word of the signature record. -/
def sigLenAt : ℕ := leNat (flashRead flash (sigAddr addr) 4)

/-- The buffer when the public key has been read, `readBuf` before. -/
def pkBuffer : Mem :=
  write (write readBuf 0 (flashRead flash addr bootHeaderConfigSize)) 0
    (flashRead flash (pkAddr addr) bootPkConfigSize)

/-- The structure that is parsed as the signature record.  When the length word is too large,
nothing has been read, and it is the public key with what stood behind it. -/
def sigBuffer : Mem :=
  ofBytes (read (if sigLenAt flash addr ≤ bflbBoot2SignMaxsize then
      loadSignature flash (pkBuffer flash readBuf addr) (sigAddr addr) (sigLenAt flash addr)
    else pkBuffer flash readBuf addr) 0 bootSignConfigSize)

/-- The address of the AES IV. -/
def ivAddr : ℕ :=
  if (headerAt flash addr).sign ≠ 0 then
    u32 (sigAddr addr + 4 +
      ((if sigLenAt flash addr ≤ bflbBoot2SignMaxsize then sigLenAt flash addr else 0) + 4))
  else pkAddr addr

/-- The AES IV and its CRC. -/
def ivAt : Mem := ofBytes (flashRead flash (ivAddr flash addr) bootAesConfigSize)

/-- What goes into the hash before the image. -/
def hashedPrefix : List UInt8 :=
  if (headerAt flash addr).encryptType ≠ 0 then BootAes.block (ivAt flash addr) else []

end Records

/-- Every record in front of the image is taken. -/
structure RecordsOk (sec : SecEng) (g : Globals) (flash readBuf : Mem) (addr : ℕ) : Prop where
  header : HeaderOk g (headerAt flash addr)
  pk : (headerAt flash addr).sign ≠ 0 → PkOk sec g (pkAt flash addr)
  sig : (headerAt flash addr).sign ≠ 0 → SigRecordOk (sigBuffer flash readBuf addr)
  iv : (headerAt flash addr).encryptType ≠ 0 →
    BootAes.crc32 (ivAt flash addr) = bflbSoftCrc32 (BootAes.aesIv (ivAt flash addr))

/-- The SHA-256 of the image, with the IV block before it, is the hash in the header. -/
def HashMatches (sec : SecEng) (flash : Mem) (addr imgAddr : ℕ) : Prop :=
  sec.sha256 (hashedPrefix flash addr ++ flashRead flash imgAddr (headerAt flash addr).imgLen) =
    (headerAt flash addr).hash

/-- The hash of a flash image is right or need not be. -/
def ImgHashOk (sec : SecEng) (g : Globals) (flash : Mem) (addr imgAddr : ℕ) : Prop :=
  (headerAt flash addr).noSegment ≠ 0 → hashIgnoreOf g (headerAt flash addr) 0 = 0 →
    HashMatches sec flash addr imgAddr

/-- The configuration with the public key and the signature of its records. -/
def BootImgCfg.takeSigned (cfg : BootImgCfg) (pk sig : Mem) : BootImgCfg :=
  { cfg with
    eckyeX := BootPk.eckyeX pk
    eckeyY := BootPk.eckeyY pk
    signature := BootSign.signature sig ++ cfg.signature.drop (BootSign.sigLen sig)
    sigLen := BootSign.sigLen sig }

/-- The configuration after the boot header, with the address of the partition. -/
def headerCfg (g : Globals) (flash : Mem) (addr imgAddr : ℕ) (cfg : BootImgCfg) : BootImgCfg :=
  { cfg.ofHeader g (headerAt flash addr) with flashOffset := imgAddr }

/-- The configuration after the public key and the signature. -/
def signedCfg (g : Globals) (flash readBuf : Mem) (addr imgAddr : ℕ) (cfg : BootImgCfg) :
    BootImgCfg :=
  if (headerAt flash addr).sign ≠ 0 then
    (headerCfg g flash addr imgAddr cfg).takeSigned (pkAt flash addr) (sigBuffer flash readBuf addr)
  else headerCfg g flash addr imgAddr cfg

/-- The configuration after all records. -/
def parsedCfg (g : Globals) (flash readBuf : Mem) (addr imgAddr : ℕ) (cfg : BootImgCfg) :
    BootImgCfg :=
  if (headerAt flash addr).encryptType ≠ 0 then
    { signedCfg g flash readBuf addr imgAddr cfg with aesIv := BootAes.block (ivAt flash addr) }
  else signedCfg g flash readBuf addr imgAddr cfg

/-! ## What the parts do -/

/-- Reading a structure from the flash and taking it from the buffer. -/
theorem readStruct_post {β : Type} {flash : Mem} {addr len : ℕ} {f : Mem → BootM β} {s : BootState}
    {Q : β → BootState → Prop} {E : BootError → BootState → Prop}
    (h : Post (f (ofBytes (flashRead flash addr len)))
      { s with readBuf := write s.readBuf 0 (flashRead flash addr len) } Q E) :
    Post (blspMediabootRead flash addr len >>= fun _ => bufferAs len >>= f) s Q E := by
  have hread := read_write_same s.readBuf 0 (flashRead flash addr len)
  rw [length_flashRead] at hread
  apply post_bind
  apply post_modify
  apply post_bind
  apply post_bind
  apply post_get
  apply post_pure
  rw [hread]
  exact h

/-- `blsp_mediaboot_read_signaure` with its error dropped. -/
theorem readSignaure_post (flash : Mem) (addr : ℕ) (s : BootState)
    (E : BootError → BootState → Prop) :
    Post (dropError 0 (blspMediabootReadSignaure flash addr)) s
      (fun n s' => n = (if leNat (flashRead flash addr 4) ≤ bflbBoot2SignMaxsize then
          leNat (flashRead flash addr 4) else 0) ∧
        s' = { s with readBuf := if leNat (flashRead flash addr 4) ≤ bflbBoot2SignMaxsize then
          loadSignature flash s.readBuf addr (leNat (flashRead flash addr 4)) else s.readBuf }) E := by
  apply post_dropError
  unfold blspMediabootReadSignaure
  apply post_bind
  apply post_failIf
  · intro h
    rw [if_neg (Nat.not_le.2 h), if_neg (Nat.not_le.2 h)]
    exact ⟨rfl, rfl⟩
  · intro h
    apply post_bind
    apply post_modify
    apply post_pure
    rw [if_pos (Nat.not_lt.1 h), if_pos (Nat.not_lt.1 h)]
    exact ⟨rfl, rfl⟩

theorem parseSigned_post (sec : SecEng) (g : Globals) (flash readBuf : Mem) (addr : ℕ)
    {cfg : BootImgCfg} (hcpu : cfg.cpuType = 0) (h0 : cfg.imgValid = 0) :
    Post (parseSigned sec g flash (pkAddr addr))
      ⟨cfg, write readBuf 0 (flashRead flash addr bootHeaderConfigSize), []⟩
      (fun a s' => PkOk sec g (pkAt flash addr) ∧ SigRecordOk (sigBuffer flash readBuf addr) ∧
        a = u32 (sigAddr addr + 4 + ((if sigLenAt flash addr ≤ bflbBoot2SignMaxsize then
          sigLenAt flash addr else 0) + 4)) ∧
        s'.cfg = cfg.takeSigned (pkAt flash addr) (sigBuffer flash readBuf addr) ∧
        s'.devCheckHash = [])
      (fun _ s' => ¬ (PkOk sec g (pkAt flash addr) ∧ SigRecordOk (sigBuffer flash readBuf addr)) ∧
        s'.cfg.imgValid = 0) := by
  unfold parseSigned
  apply readStruct_post
  apply post_bind
  refine (blspBootParsePkey_post sec g (pkAt flash addr) (s := ⟨cfg, _, []⟩) hcpu rfl h0).mono ?_ ?_
  swap
  · rintro - s' ⟨hpk, h0'⟩
    exact ⟨fun h => hpk h.1, h0'⟩
  rintro - s' ⟨hpk, rfl⟩
  apply post_bind
  refine (readSignaure_post flash (sigAddr addr) _ _).mono ?_ fun _ _ h => h
  rintro n ⟨cfg', buf', dev'⟩ ⟨hn, hs⟩
  obtain ⟨hcfg, hbuf, hdev⟩ := BootState.mk.inj hs
  have hsigBuffer : ofBytes (read buf' 0 bootSignConfigSize) = sigBuffer flash readBuf addr := by
    rw [hbuf]
    rfl
  apply post_bind
  apply post_bind
  apply post_get
  apply post_pure
  apply post_bind
  rw [hsigBuffer]
  have h0' : cfg'.imgValid = 0 := by rw [hcfg]; exact h0
  refine (blspBootParseSignature_post (sigBuffer flash readBuf addr) (s := ⟨cfg', buf', dev'⟩)
    h0').mono ?_ ?_
  · rintro - s' ⟨hsig, rfl⟩
    refine post_pure ⟨hpk, hsig, ?_, ?_, hdev⟩
    · rw [hn]
      rfl
    · subst hcfg
      rfl
  · rintro - s' ⟨hsig, h0'⟩
    exact ⟨fun h => hsig h.2, h0'⟩

theorem parseEncrypted_post (flash : Mem) (addr : ℕ) {s : BootState} (h0 : s.cfg.imgValid = 0) :
    Post (parseEncrypted flash (ivAddr flash addr)) s
      (fun _ s' => BootAes.crc32 (ivAt flash addr) = bflbSoftCrc32 (BootAes.aesIv (ivAt flash addr)) ∧
        s'.cfg = { s.cfg with aesIv := BootAes.block (ivAt flash addr) } ∧
        s'.devCheckHash = s.devCheckHash ++
          if s.cfg.hashIgnore = 0 then BootAes.block (ivAt flash addr) else [])
      (fun _ s' => BootAes.crc32 (ivAt flash addr) ≠
          bflbSoftCrc32 (BootAes.aesIv (ivAt flash addr)) ∧ s'.cfg.imgValid = 0) := by
  unfold parseEncrypted
  apply readStruct_post
  refine (blspBootParseAesiv_post (ivAt flash addr)
    (s := ⟨s.cfg, write s.readBuf 0 _, s.devCheckHash⟩) h0).mono ?_ fun _ _ h => h
  rintro - s' ⟨hcrc, rfl⟩
  exact ⟨hcrc, rfl, rfl⟩

theorem checkImg_post (sec : SecEng) (g : Globals) (flash : Mem) (imgAddr : ℕ) {s : BootState}
    (h0 : s.cfg.imgValid = 0) :
    Post (checkImg sec g flash imgAddr) s
      (fun _ s' => (s.cfg.noSegment ≠ 0 → s.cfg.hashIgnore = 0 →
          sec.sha256 (s.devCheckHash ++ flashRead flash imgAddr s.cfg.imgLen) = s.cfg.imgHash) ∧
        s'.cfg = { s.cfg with imgValid := if s.cfg.noSegment ≠ 0 then 1 else 0 })
      (fun _ s' => ¬ (s.cfg.noSegment ≠ 0 → s.cfg.hashIgnore = 0 →
          sec.sha256 (s.devCheckHash ++ flashRead flash imgAddr s.cfg.imgLen) = s.cfg.imgHash) ∧
        s'.cfg.imgValid = 0) := by
  unfold checkImg
  apply post_bind
  apply post_get
  by_cases hseg : s.cfg.noSegment ≠ 0
  swap
  · rw [if_neg hseg, if_neg hseg]
    exact post_modify ⟨fun h => absurd h hseg, rfl⟩
  rw [if_pos hseg, if_pos hseg]
  apply post_bind
  by_cases hign : s.cfg.hashIgnore = 0
  swap
  · rw [if_neg hign]
    apply post_pure
    apply post_bind
    refine (blspBootParserCheckSignature_post sec g s _).mono ?_ fun _ _ h => h
    rintro - s' rfl
    exact post_modify ⟨fun _ h => absurd h hign, rfl⟩
  rw [if_pos hign]
  unfold checkImgHash
  apply post_bind
  refine (blspMediabootCalHash_post flash imgAddr s.cfg.imgLen s _).mono ?_ fun _ _ h => h
  rintro - s₁ ⟨hcfg, hdev⟩
  refine (blspBootParserCheckHash_post sec (s := s₁) (by rw [hcfg, hign]) (by rw [hcfg, h0])).mono
    ?_ ?_
  · rintro - s' ⟨hhash, rfl⟩
    rw [hdev, hcfg] at hhash
    apply post_bind
    refine (blspBootParserCheckSignature_post sec g s' _).mono ?_ fun _ _ h => h
    rintro - s' rfl
    refine post_modify ⟨fun _ _ => hhash, ?_⟩
    rw [hcfg]
  · rintro - s' ⟨hhash, h0'⟩
    rw [hdev, hcfg] at hhash
    exact ⟨fun h => hhash (h hseg hign), h0'⟩

/-! ## The whole function -/

/-- The configuration at the end: the image is valid when it has no segments. -/
def finalCfg (g : Globals) (flash readBuf : Mem) (addr imgAddr : ℕ) (cfg : BootImgCfg) :
    BootImgCfg :=
  { parsedCfg g flash readBuf addr imgAddr cfg with
    imgValid := if (headerAt flash addr).noSegment ≠ 0 then 1 else 0 }

section Parsed

variable (g : Globals) (flash readBuf : Mem) (addr imgAddr : ℕ) (cfg : BootImgCfg)

/-- The records do not change what the header says. -/
theorem parsedCfg_eq : (parsedCfg g flash readBuf addr imgAddr cfg).imgValid = 0 ∧
    (parsedCfg g flash readBuf addr imgAddr cfg).noSegment = (headerAt flash addr).noSegment ∧
    (parsedCfg g flash readBuf addr imgAddr cfg).hashIgnore =
      hashIgnoreOf g (headerAt flash addr) 0 ∧
    (parsedCfg g flash readBuf addr imgAddr cfg).imgLen = (headerAt flash addr).imgLen ∧
    (parsedCfg g flash readBuf addr imgAddr cfg).imgHash = (headerAt flash addr).hash ∧
    (parsedCfg g flash readBuf addr imgAddr cfg).flashOffset = imgAddr ∧
    (parsedCfg g flash readBuf addr imgAddr cfg).entryPoint = (headerAt flash addr).bootEntry := by
  unfold parsedCfg signedCfg
  split <;> split <;> exact ⟨rfl, rfl, rfl, rfl, rfl, rfl, rfl⟩

end Parsed

/-- The stage of the public key and the signature. -/
theorem signedStage_post (sec : SecEng) (g : Globals) (flash readBuf : Mem) (addr imgAddr : ℕ)
    (cfg : BootImgCfg) :
    Post (if (headerAt flash addr).sign ≠ 0 then parseSigned sec g flash (pkAddr addr)
      else pure (pkAddr addr))
      ⟨headerCfg g flash addr imgAddr cfg,
        write readBuf 0 (flashRead flash addr bootHeaderConfigSize), []⟩
      (fun a s' => ((headerAt flash addr).sign ≠ 0 → PkOk sec g (pkAt flash addr) ∧
          SigRecordOk (sigBuffer flash readBuf addr)) ∧ a = ivAddr flash addr ∧
        s'.cfg = signedCfg g flash readBuf addr imgAddr cfg ∧ s'.devCheckHash = [])
      (fun _ s' => ¬ RecordsOk sec g flash readBuf addr ∧ s'.cfg.imgValid = 0) := by
  unfold ivAddr signedCfg
  by_cases hsign : (headerAt flash addr).sign ≠ 0
  · rw [if_pos hsign, if_pos hsign, if_pos hsign]
    have hcpu : (headerCfg g flash addr imgAddr cfg).cpuType = 0 := rfl
    refine (parseSigned_post sec g flash readBuf addr hcpu rfl).mono ?_ ?_
    · rintro a s' ⟨hpk, hsig, ha, hcfg, hdev⟩
      exact ⟨fun _ => ⟨hpk, hsig⟩, ha, hcfg, hdev⟩
    · rintro - s' ⟨hfail, h0⟩
      exact ⟨fun h => hfail ⟨h.pk hsign, h.sig hsign⟩, h0⟩
  · rw [if_neg hsign, if_neg hsign, if_neg hsign]
    exact post_pure ⟨fun h => absurd h hsign, rfl, rfl, rfl⟩

/-- The stage of the AES IV. -/
theorem encryptedStage_post (sec : SecEng) (g : Globals) (flash readBuf : Mem) (addr imgAddr : ℕ)
    {cfg : BootImgCfg} {s : BootState} (hcfg : s.cfg = signedCfg g flash readBuf addr imgAddr cfg)
    (hdev : s.devCheckHash = []) :
    Post (if (headerAt flash addr).encryptType ≠ 0 then
        parseEncrypted flash (ivAddr flash addr) else pure ()) s
      (fun _ s' => ((headerAt flash addr).encryptType ≠ 0 → BootAes.crc32 (ivAt flash addr) =
          bflbSoftCrc32 (BootAes.aesIv (ivAt flash addr))) ∧
        s'.cfg = parsedCfg g flash readBuf addr imgAddr cfg ∧
        (hashIgnoreOf g (headerAt flash addr) 0 = 0 → s'.devCheckHash = hashedPrefix flash addr))
      (fun _ s' => ¬ RecordsOk sec g flash readBuf addr ∧ s'.cfg.imgValid = 0) := by
  have hvalid : s.cfg.imgValid = 0 := by
    rw [hcfg, signedCfg]
    split <;> rfl
  have hignore : s.cfg.hashIgnore = hashIgnoreOf g (headerAt flash addr) 0 := by
    rw [hcfg, signedCfg]
    split <;> rfl
  unfold parsedCfg hashedPrefix
  by_cases henc : (headerAt flash addr).encryptType ≠ 0
  · rw [if_pos henc, if_pos henc, if_pos henc]
    refine (parseEncrypted_post flash addr hvalid).mono ?_ ?_
    · rintro - s' ⟨hiv, hcfg', hdev'⟩
      refine ⟨fun _ => hiv, ?_, fun hign => ?_⟩
      · rw [hcfg', hcfg]
      · rw [hdev', hdev, if_pos (hignore.trans hign), List.nil_append]
    · rintro - s' ⟨hiv, h0⟩
      exact ⟨fun h => hiv (h.iv henc), h0⟩
  · rw [if_neg henc, if_neg henc, if_neg henc]
    exact post_pure ⟨fun h => absurd h henc, hcfg, fun _ => hdev⟩

/-- **The spec of `blsp_mediaboot_parse_one_fw`.**  It succeeds exactly when the records are
taken and the hash is right or need not be. -/
theorem blspMediabootParseOneFw_post (sec : SecEng) (g : Globals) (flash readBuf : Mem)
    (addr imgAddr : ℕ) (dev : List UInt8) {cfg : BootImgCfg} (h0 : cfg.imgValid = 0) :
    Post (blspMediabootParseOneFw sec g flash addr imgAddr) ⟨cfg, readBuf, dev⟩
      (fun _ s' => RecordsOk sec g flash readBuf addr ∧ ImgHashOk sec g flash addr imgAddr ∧
        s'.cfg = finalCfg g flash readBuf addr imgAddr cfg)
      (fun _ s' => ¬ (RecordsOk sec g flash readBuf addr ∧ ImgHashOk sec g flash addr imgAddr) ∧
        s'.cfg.imgValid = 0) := by
  unfold blspMediabootParseOneFw
  apply readStruct_post
  apply post_bind
  refine (blspBootParseBootheader_post g (headerAt flash addr)
    (s := ⟨cfg, write readBuf 0 (flashRead flash addr bootHeaderConfigSize), dev⟩) h0).mono ?_ ?_
  swap
  · rintro - s' ⟨hheader, h0'⟩
    exact ⟨fun h => hheader h.1.header, h0'⟩
  rintro - s' ⟨hheader, rfl⟩
  apply post_bind
  apply post_modify
  apply post_bind
  apply post_get
  apply post_bind
  refine (signedStage_post sec g flash readBuf addr imgAddr cfg).mono ?_
    fun _ _ h => ⟨fun hok => h.1 hok.1, h.2⟩
  rintro a s₁ ⟨hrecords, rfl, hcfg₁, hdev₁⟩
  apply post_bind
  refine (encryptedStage_post sec g flash readBuf addr imgAddr hcfg₁ hdev₁).mono ?_
    fun _ _ h => ⟨fun hok => h.1 hok.1, h.2⟩
  rintro - s₂ ⟨hiv, hcfg₂, hdev₂⟩
  obtain ⟨hvalid, hseg, hign, hlen, hhash, -, -⟩ :=
    parsedCfg_eq g flash readBuf addr imgAddr cfg
  rw [← hcfg₂] at hvalid hseg hign hlen hhash
  have hok : RecordsOk sec g flash readBuf addr :=
    ⟨hheader, fun h => (hrecords h).1, fun h => (hrecords h).2, hiv⟩
  -- the image
  have himg : (s₂.cfg.noSegment ≠ 0 → s₂.cfg.hashIgnore = 0 →
      sec.sha256 (s₂.devCheckHash ++ flashRead flash imgAddr s₂.cfg.imgLen) = s₂.cfg.imgHash) ↔
      ImgHashOk sec g flash addr imgAddr := by
    rw [ImgHashOk, HashMatches, hseg, hign, hlen, hhash]
    constructor
    · intro h hs hi
      rw [← hdev₂ hi]
      exact h hs hi
    · intro h hs hi
      rw [hdev₂ hi]
      exact h hs hi
  refine (checkImg_post sec g flash imgAddr hvalid).mono ?_ ?_
  · rintro - s' ⟨hdone, hcfg⟩
    refine ⟨hok, himg.1 hdone, ?_⟩
    rw [hcfg, hseg, hcfg₂]
    rfl
  · rintro - s' ⟨hfail, h0'⟩
    exact ⟨fun h => hfail (himg.2 h.2), h0'⟩

/-- `img_valid` is set exactly when the function succeeds and the header has `no_segment`. -/
theorem imgValid_iff (sec : SecEng) (g : Globals) (flash : Mem) (addr imgAddr : ℕ) (s : BootState)
    (h0 : s.cfg.imgValid = 0) :
    (finalState (blspMediabootParseOneFw sec g flash addr imgAddr s)).cfg.imgValid = 1 ↔
      RecordsOk sec g flash s.readBuf addr ∧ ImgHashOk sec g flash addr imgAddr ∧
        (headerAt flash addr).noSegment ≠ 0 := by
  obtain ⟨cfg, readBuf, dev⟩ := s
  refine Post.finalState (P := fun s' => s'.cfg.imgValid = 1 ↔ _)
    ((blspMediabootParseOneFw_post sec g flash readBuf addr imgAddr dev h0).mono ?_ ?_)
  · rintro - s' ⟨hok, himg, hcfg⟩
    rw [hcfg, finalCfg]
    constructor
    · intro h
      refine ⟨hok, himg, fun hseg => ?_⟩
      rw [if_neg (not_not_intro hseg)] at h
      cases h
    · rintro ⟨-, -, hseg⟩
      exact if_pos hseg
  · rintro - s' ⟨hfail, h0'⟩
    constructor
    · intro h
      rw [h0'] at h
      cases h
    · rintro ⟨hok, himg, -⟩
      exact absurd ⟨hok, himg⟩ hfail

end Boot
