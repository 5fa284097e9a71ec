import LegoTrain.Lib.Checked
import LegoTrain.Boot.Header

/-!
# The boot parser

`blsp_boot_parser.c`: the functions that take a firmware's header, public key, signature
and AES IV apart and check its hash and its signature.  They share the image
configuration, the read buffer and the hash device, and each returns an error code.

SHA-256 and the ECDSA verification of the security engine are functions of the
environment.  The hash device is the string of bytes that it has taken in since it was
opened.
-/

namespace Boot

open ByteMem SoftCrc Checked

/-! ## What the functions share -/

/-- `boot_error_code`, without the codes that no function below returns. -/
inductive BootError
  | imgBootheaderNotLoadError
  | imgBootheaderMagicError
  | imgBootheaderCrcError
  | imgBootheaderEncryptNotfit
  | imgBootheaderSignNotfit
  | imgSegmentCntError
  | imgAesIvCrcError
  | imgPkCrcError
  | imgPkHashError
  | imgSignatureLenError
  | imgSignatureCrcError
  | imgHashError
  | imgSignError
  | imgRollBack
  | imgAllInvalidError
  | fail
  deriving DecidableEq, Repr

/-- `boot2_efuse_hw_config`, the fields that the boot path reads. -/
structure EfuseHwConfig where
  encrypted : ℕ → ℕ
  sign : ℕ → ℕ
  hbnCheckSign : ℕ
  pkHashCpu0 : List UInt8
  pkHashCpu1 : List UInt8

/-- The globals that the parser reads: `g_efuse_cfg`, `g_ps_mode` and
`g_user_hash_ignored`. -/
structure Globals where
  efuseCfg : EfuseHwConfig
  psMode : ℕ
  userHashIgnored : ℕ

/-- `BFLB_PSM_HBN`. -/
def bflbPsmHbn : ℕ := 1

/-- The security engine. -/
structure SecEng where
  sha256 : List UInt8 → List UInt8
  /-- `sec_ecdsa_verify`: the two coordinates of the key, the hash, `r` and `s` -/
  ecdsaVerify : List UInt8 → List UInt8 → List UInt8 → List UInt8 → List UInt8 → Bool

/-- `boot2_image_config`, the fields that the boot path uses. -/
structure BootImgCfg where
  encryptType : ℕ
  signType : ℕ
  keySel : ℕ
  imgValid : ℕ
  noSegment : ℕ
  cacheEnable : ℕ
  cacheWayDisable : ℕ
  hashIgnore : ℕ
  aesRegionLock : ℕ
  haltCpu1 : ℕ
  cpuType : ℕ
  imgLen : ℕ
  mspVal : ℕ
  entryPoint : ℕ
  flashOffset : ℕ
  sigLen : ℕ
  imgHash : List UInt8
  aesIv : List UInt8
  eckyeX : List UInt8
  eckeyY : List UInt8
  signature : List UInt8
  deriving DecidableEq, Repr

/-- The configuration after `memset(&g_boot_img_cfg[i], 0, …)`. -/
def BootImgCfg.zero : BootImgCfg where
  encryptType := 0
  signType := 0
  keySel := 0
  imgValid := 0
  noSegment := 0
  cacheEnable := 0
  cacheWayDisable := 0
  hashIgnore := 0
  aesRegionLock := 0
  haltCpu1 := 0
  cpuType := 0
  imgLen := 0
  mspVal := 0
  entryPoint := 0
  flashOffset := 0
  sigLen := 0
  imgHash := List.replicate bflbBoot2HashSize 0
  aesIv := List.replicate bootAesConfigSize 0
  eckyeX := List.replicate bflbBoot2EccKeysize 0
  eckeyY := List.replicate bflbBoot2EccKeysize 0
  signature := List.replicate bflbBoot2SignMaxsize 0

/-- The image configuration, `g_boot2_read_buf` and `dev_check_hash`. -/
structure BootState where
  cfg : BootImgCfg
  readBuf : Mem
  devCheckHash : List UInt8

/-- A function of the boot path. -/
abbrev BootM := EStateM BootError BootState

/-- A change of the image configuration. -/
def modifyCfg (f : BootImgCfg → BootImgCfg) : BootM Unit :=
  modify fun s => { s with cfg := f s.cfg }

/-- `device_unregister`, `sec_hash_sha256_register`, `device_find` and `device_open`: a fresh
hash.  The device has just been registered, and opening a SHA-256 device succeeds. -/
def openHash : BootM Unit := modify fun s => { s with devCheckHash := [] }

/-- `device_write(dev_check_hash, 0, data, len)`. -/
def hashWrite (data : List UInt8) : BootM Unit :=
  modify fun s => { s with devCheckHash := s.devCheckHash ++ data }

/-- `device_read(dev_check_hash, 0, hash, 0)`. -/
def hashRead (sec : SecEng) : BootM (List UInt8) := do
  let s ← get
  pure (sec.sha256 s.devCheckHash)

/-! ## The boot header -/

/-- The exemption after a wake-up from hibernation. -/
def hbnExempt (g : Globals) : Prop := g.psMode = bflbPsmHbn ∧ g.efuseCfg.hbnCheckSign = 0

instance (g : Globals) : Decidable (hbnExempt g) := inferInstanceAs (Decidable (_ ∧ _))

/-- What becomes of the header's wish to have its hash ignored. -/
def hashIgnoreOf (g : Globals) (header : BootHeader) (i : ℕ) : ℕ :=
  if g.userHashIgnored ≠ 0 then 1
  else if hbnExempt g then 1
  else if (header.hashIgnore = 1 ∧ header.hashWord ≠ bflbBoot2DeadbeefVal) ∨
      g.efuseCfg.sign i ≠ 0 then 0
  else header.hashIgnore

/-- What `blsp_boot_parse_bootheader` copies out of the header before it checks it against
the efuse. -/
def BootImgCfg.fill (cfg : BootImgCfg) (header : BootHeader) (i : ℕ) : BootImgCfg :=
  { cfg with
    cpuType := i
    imgValid := 0
    encryptType := header.encryptType
    signType := header.sign
    keySel := header.keySel
    noSegment := header.noSegment
    cacheEnable := header.cacheEnable
    aesRegionLock := header.aesRegionLock
    haltCpu1 := header.haltCpu1
    cacheWayDisable := header.cacheWayDisable
    hashIgnore := header.hashIgnore
    imgLen := header.imgLen
    entryPoint := header.bootEntry
    flashOffset := header.flashOffset }

/-- The CPU of the image, from the magic code. -/
def findCpu (header : BootHeader) : BootM ℕ :=
  match cpuIndex header with
  | some i => pure i
  | none => throw .imgBootheaderMagicError

/-- The test that image and efuse agree on signing. -/
def checkSignFit (g : Globals) (header : BootHeader) (i : ℕ) : BootM Unit := do
  if g.efuseCfg.sign i ≠ header.sign then
    modifyCfg fun cfg => { cfg with signType := g.efuseCfg.sign i }
    throw .imgBootheaderSignNotfit

/-- `blsp_boot_parse_bootheader`. -/
def blspBootParseBootheader (g : Globals) (header : BootHeader) : BootM Unit := do
  failIf (crcPass header = false) .imgBootheaderCrcError
  failIf (header.notLoadInBoot ≠ 0) .imgBootheaderNotLoadError
  let i ← findCpu header
  modifyCfg fun cfg => cfg.fill header i
  failIf (g.efuseCfg.encrypted i ≠ 0 ∧ header.encryptType = 0) .imgBootheaderEncryptNotfit
  checkSignFit g header i
  modifyCfg fun cfg => { cfg with hashIgnore := hashIgnoreOf g header i, imgHash := header.hash }
  failIf (header.imgLen = 0) .imgSegmentCntError
  openHash

/-- The conditions under which `blsp_boot_parse_bootheader` succeeds. -/
structure HeaderOk (g : Globals) (header : BootHeader) : Prop where
  crc : crcPass header = true
  load : header.notLoadInBoot = 0
  magic : header.magicCode = bflbBoot2Cpu0Magic ∨ header.magicCode = bflbBoot2Cpu1Magic
  encrypt : g.efuseCfg.encrypted 0 ≠ 0 → header.encryptType ≠ 0
  sign : g.efuseCfg.sign 0 = header.sign
  len : header.imgLen ≠ 0

/-- The configuration after a successful `blsp_boot_parse_bootheader`. -/
def BootImgCfg.ofHeader (cfg : BootImgCfg) (g : Globals) (header : BootHeader) : BootImgCfg :=
  { cfg.fill header 0 with hashIgnore := hashIgnoreOf g header 0, imgHash := header.hash }

theorem blspBootParseBootheader_cases (g : Globals) (header : BootHeader) (s : BootState) :
    Post (blspBootParseBootheader g header) s
      (fun _ s' => HeaderOk g header ∧
        s' = { s with cfg := s.cfg.ofHeader g header, devCheckHash := [] })
      (fun _ s' => ¬ HeaderOk g header ∧ (s.cfg.imgValid = 0 → s'.cfg.imgValid = 0)) := by
  unfold blspBootParseBootheader
  apply post_bind
  apply post_failIf
  · intro hcrc
    refine ⟨fun h => ?_, id⟩
    rw [h.crc] at hcrc
    cases hcrc
  intro hcrc
  apply post_bind
  apply post_failIf
  · intro hload
    exact ⟨fun h => hload h.load, id⟩
  intro hload
  apply post_bind
  unfold findCpu
  rw [cpuIndex_eq]
  by_cases hmagic : header.magicCode = bflbBoot2Cpu0Magic ∨ header.magicCode = bflbBoot2Cpu1Magic
  swap
  · rw [if_neg hmagic]
    exact post_throw ⟨fun h => hmagic h.magic, id⟩
  rw [if_pos hmagic]
  apply post_pure
  apply post_bind
  apply post_modify
  apply post_bind
  apply post_failIf
  · intro henc
    exact ⟨fun h => h.encrypt henc.1 henc.2, fun _ => rfl⟩
  intro henc
  apply post_bind
  unfold checkSignFit
  by_cases hsign : g.efuseCfg.sign 0 = header.sign
  swap
  · rw [if_pos hsign]
    apply post_bind
    apply post_modify
    exact post_throw ⟨fun h => hsign h.sign, fun _ => rfl⟩
  rw [if_neg (not_not_intro hsign)]
  apply post_pure
  apply post_bind
  apply post_modify
  apply post_bind
  apply post_failIf
  · intro hlen
    exact ⟨fun h => h.len hlen, fun _ => rfl⟩
  intro hlen
  apply post_modify
  refine ⟨⟨?_, not_not.1 hload, hmagic, ?_, hsign, hlen⟩, rfl⟩
  · simpa using hcrc
  · exact fun he h => henc ⟨he, h⟩

/-- An image that was not valid before is not valid after an error. -/
theorem blspBootParseBootheader_post (g : Globals) (header : BootHeader) {s : BootState}
    (h0 : s.cfg.imgValid = 0) :
    Post (blspBootParseBootheader g header) s
      (fun _ s' => HeaderOk g header ∧
        s' = { s with cfg := s.cfg.ofHeader g header, devCheckHash := [] })
      (fun _ s' => ¬ HeaderOk g header ∧ s'.cfg.imgValid = 0) :=
  (blspBootParseBootheader_cases g header s).mono (fun _ _ h => h) fun _ _ h => ⟨h.1, h.2 h0⟩

/-! ## The public key -/

/-- `blsp_boot_parse_is_pkhash_valid`. -/
def blspBootParseIsPkhashValid (g : Globals) (cpuType : ℕ) (pkhash : List UInt8) : ℕ :=
  if cpuType = 0 then
    if g.efuseCfg.pkHashCpu0 = pkhash then 1 else 0
  else if cpuType = 1 then
    if g.efuseCfg.pkHashCpu1 = pkhash then 1 else 0
  else 0

/-- `blsp_boot_parse_pkey`. -/
def blspBootParsePkey (sec : SecEng) (g : Globals) (data : Mem) (own : ℕ) : BootM Unit := do
  failIf (BootPk.crc32 data ≠ bflbSoftCrc32 (read data 0 (bootPkConfigSize - 4))) .imgPkCrcError
  hashWrite (BootPk.key data)
  let pkHash ← hashRead sec
  openHash
  let s ← get
  failIf (own = 1 ∧ blspBootParseIsPkhashValid g s.cfg.cpuType pkHash ≠ 1) .imgPkHashError
  modifyCfg fun cfg =>
    if own = 1 then { cfg with eckyeX := BootPk.eckyeX data, eckeyY := BootPk.eckeyY data } else cfg

/-- The conditions under which `blsp_boot_parse_pkey` takes the own key of CPU 0. -/
structure PkOk (sec : SecEng) (g : Globals) (data : Mem) : Prop where
  crc : BootPk.crc32 data = bflbSoftCrc32 (read data 0 (bootPkConfigSize - 4))
  hash : sec.sha256 (BootPk.key data) = g.efuseCfg.pkHashCpu0

theorem blspBootParsePkey_post (sec : SecEng) (g : Globals) (data : Mem) {s : BootState}
    (hcpu : s.cfg.cpuType = 0) (hdev : s.devCheckHash = []) (h0 : s.cfg.imgValid = 0) :
    Post (blspBootParsePkey sec g data 1) s
      (fun _ s' => PkOk sec g data ∧ s' = { s with
        cfg := { s.cfg with eckyeX := BootPk.eckyeX data, eckeyY := BootPk.eckeyY data } })
      (fun _ s' => ¬ PkOk sec g data ∧ s'.cfg.imgValid = 0) := by
  obtain ⟨cfg, readBuf, dev⟩ := s
  cases hdev
  unfold blspBootParsePkey
  apply post_bind
  apply post_failIf
  · intro hcrc
    exact ⟨fun h => hcrc h.crc, h0⟩
  intro hcrc
  apply post_bind
  apply post_modify
  apply post_bind
  apply post_bind
  apply post_get
  apply post_pure
  apply post_bind
  apply post_modify
  apply post_bind
  apply post_get
  apply post_bind
  have hvalid : blspBootParseIsPkhashValid g cfg.cpuType (sec.sha256 ([] ++ BootPk.key data)) ≠ 1 ↔
      sec.sha256 (BootPk.key data) ≠ g.efuseCfg.pkHashCpu0 := by
    rw [blspBootParseIsPkhashValid, if_pos hcpu, List.nil_append]
    split
    · rename_i heq
      simp [heq]
    · rename_i hne
      simp [Ne.symm hne]
  apply post_failIf
  · rintro ⟨-, hh⟩
    exact ⟨fun h => hvalid.1 hh h.hash, h0⟩
  intro hh
  apply post_modify
  exact ⟨⟨not_not.1 hcrc, not_not.1 fun hne => hh ⟨rfl, hvalid.2 hne⟩⟩, rfl⟩

/-! ## The signature record -/

/-- `blsp_boot_parse_signature`, for the own signature. -/
def blspBootParseSignature (data : Mem) : BootM Unit := do
  failIf (BootSign.sigLen data > bflbBoot2SignMaxsize) .imgSignatureLenError
  failIf (leBytes 4 (bflbSoftCrc32 (read data 0 (BootSign.sigLen data + 4))) ≠ BootSign.crc32 data)
    .imgSignatureCrcError
  modifyCfg fun cfg => { cfg with
    signature := BootSign.signature data ++ cfg.signature.drop (BootSign.sigLen data)
    sigLen := BootSign.sigLen data }

/-- The conditions under which `blsp_boot_parse_signature` succeeds. -/
structure SigRecordOk (data : Mem) : Prop where
  len : BootSign.sigLen data ≤ bflbBoot2SignMaxsize
  crc : leBytes 4 (bflbSoftCrc32 (read data 0 (BootSign.sigLen data + 4))) = BootSign.crc32 data

theorem blspBootParseSignature_post (data : Mem) {s : BootState} (h0 : s.cfg.imgValid = 0) :
    Post (blspBootParseSignature data) s
      (fun _ s' => SigRecordOk data ∧ s' = { s with cfg := { s.cfg with
        signature := BootSign.signature data ++ s.cfg.signature.drop (BootSign.sigLen data)
        sigLen := BootSign.sigLen data } })
      (fun _ s' => ¬ SigRecordOk data ∧ s'.cfg.imgValid = 0) := by
  unfold blspBootParseSignature
  apply post_bind
  apply post_failIf
  · intro hlen
    exact ⟨fun h => absurd h.len (Nat.not_le.2 hlen), h0⟩
  intro hlen
  apply post_bind
  apply post_failIf
  · intro hcrc
    exact ⟨fun h => hcrc h.crc, h0⟩
  intro hcrc
  exact post_modify ⟨⟨Nat.not_lt.1 hlen, not_not.1 hcrc⟩, rfl⟩

/-! ## The AES IV -/

/-- `blsp_boot_parse_aesiv`. -/
def blspBootParseAesiv (data : Mem) : BootM Unit := do
  failIf (BootAes.crc32 data ≠ bflbSoftCrc32 (BootAes.aesIv data)) .imgAesIvCrcError
  modifyCfg fun cfg => { cfg with aesIv := BootAes.block data }
  let s ← get
  hashWrite (if s.cfg.hashIgnore = 0 then BootAes.block data else [])

theorem blspBootParseAesiv_post (data : Mem) {s : BootState} (h0 : s.cfg.imgValid = 0) :
    Post (blspBootParseAesiv data) s
      (fun _ s' => BootAes.crc32 data = bflbSoftCrc32 (BootAes.aesIv data) ∧ s' = { s with
        cfg := { s.cfg with aesIv := BootAes.block data }
        devCheckHash := s.devCheckHash ++
          if s.cfg.hashIgnore = 0 then BootAes.block data else [] })
      (fun _ s' => BootAes.crc32 data ≠ bflbSoftCrc32 (BootAes.aesIv data) ∧
        s'.cfg.imgValid = 0) := by
  unfold blspBootParseAesiv
  apply post_bind
  apply post_failIf
  · intro hcrc
    exact ⟨hcrc, h0⟩
  intro hcrc
  apply post_bind
  apply post_modify
  apply post_bind
  apply post_get
  exact post_modify ⟨not_not.1 hcrc, rfl⟩

/-! ## The checks -/

/-- The answer of `sec_ecdsa_verify` for the image configuration. -/
def ecdsaOfCfg (sec : SecEng) (cfg : BootImgCfg) : Bool :=
  sec.ecdsaVerify cfg.eckyeX cfg.eckeyY cfg.imgHash (cfg.signature.take 32)
    ((cfg.signature.drop 32).take 32)

/-- `blsp_boot_parser_check_signature`: `ret` is still zero when it is tested, since the answer
of `sec_ecdsa_verify` is not stored in it. -/
def blspBootParserCheckSignature (sec : SecEng) (g : Globals) : BootM Unit := do
  let ret := 0
  let s ← get
  if hbnExempt g then pure ()
  else if s.cfg.signType ≠ 0 then
    let _ := ecdsaOfCfg sec s.cfg
    failIf (ret ≠ 0) .imgSignError

/-- Whatever the answer of `sec_ecdsa_verify`, the check succeeds. -/
theorem blspBootParserCheckSignature_post (sec : SecEng) (g : Globals) (s : BootState)
    (E : BootError → BootState → Prop) :
    Post (blspBootParserCheckSignature sec g) s (fun _ s' => s' = s) E := by
  unfold blspBootParserCheckSignature
  apply post_bind
  apply post_get
  split
  · exact post_pure rfl
  · split
    · exact post_failIf (fun h => absurd rfl h) fun _ => rfl
    · exact post_pure rfl

/-- `blsp_boot_parser_check_hash`. -/
def blspBootParserCheckHash (sec : SecEng) : BootM Unit := do
  let s ← get
  let imgHashCal ← hashRead sec
  failIf (s.cfg.hashIgnore = 0 ∧ imgHashCal ≠ s.cfg.imgHash) .imgHashError

theorem blspBootParserCheckHash_post (sec : SecEng) {s : BootState} (hcheck : s.cfg.hashIgnore = 0)
    (h0 : s.cfg.imgValid = 0) :
    Post (blspBootParserCheckHash sec) s
      (fun _ s' => sec.sha256 s.devCheckHash = s.cfg.imgHash ∧ s' = s)
      (fun _ s' => sec.sha256 s.devCheckHash ≠ s.cfg.imgHash ∧ s'.cfg.imgValid = 0) := by
  unfold blspBootParserCheckHash
  apply post_bind
  apply post_get
  apply post_bind
  apply post_bind
  apply post_get
  apply post_pure
  apply post_failIf
  · rintro ⟨-, hne⟩
    exact ⟨hne, h0⟩
  · intro hne
    exact ⟨not_not.1 fun h => hne ⟨hcheck, h⟩, rfl⟩

end Boot
