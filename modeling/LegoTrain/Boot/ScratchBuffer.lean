import LegoTrain.Lib.Traced
import LegoTrain.Boot.SecureBoot

/-!
# The scratch buffer of the boot path

`g_boot2_read_buf` has 256 bytes, and what is read into it is as long as the records and the
image say.  The functions of `blsp_media_boot.c` once more, with a note of each range of the
buffer that they or the parser touch.

* `Scratch.blspMediabootParseOneFw` : the function with its notes, and without them it is the
  function (`Scratch.blspMediabootParseOneFw_erases`);
* `ScratchOk` : the lengths that the buffer can take;
* `allInside_iff` : every access is inside the buffer exactly for these;
* `allInside_longImage` : a header for which it is not.
-/

namespace Boot

open ByteMem Flash SoftCrc Checked Traced

/-! ## The functions with their accesses -/

/-- A range of `g_boot2_read_buf`. -/
structure Access where
  offset : ℕ
  length : ℕ
  deriving DecidableEq, Repr

/-- It is inside the buffer. -/
def Access.Inside (a : Access) : Prop := a.offset + a.length ≤ bflbBoot2ReadbufSize

/-- Every range is. -/
def AllInside (log : List Access) : Prop := ∀ a ∈ log, a.Inside

/-- A function of the boot path that notes its accesses. -/
abbrev ScratchM := TraceM BootError BootState Access

namespace Scratch

/-- A read or a write of `g_boot2_read_buf`. -/
def access (offset length : ℕ) : ScratchM Unit := note ⟨offset, length⟩

/-- `blsp_dump_data(g_boot2_read_buf, len)` under `blsp_boot2_dump_critical_flag`.  The length is
an `int`, and nothing is dumped when it is negative. -/
def blspDumpData (dumpFlag : Bool) (len : ℕ) : ScratchM Unit :=
  if dumpFlag then access 0 (if len < 2 ^ 31 then len else 0) else pure ()

/-- A structure is read into the buffer, dumped and parsed. -/
def readStruct (dumpFlag : Bool) (flash : Mem) (addr len : ℕ) : ScratchM Mem := do
  access 0 len
  lift (blspMediabootRead flash addr len)
  blspDumpData dumpFlag len
  access 0 len
  lift (bufferAs len)

/-- `blsp_mediaboot_cal_hash`.  Only the first block is dumped. -/
def blspMediabootCalHash (dumpFlag : Bool) (flash : Mem) (addr rest dumpCnt : ℕ) :
    ScratchM Unit :=
  if h : rest = 0 then pure ()
  else do
    access 0 (readLen rest)
    lift (blspMediabootRead flash addr (readLen rest))
    blspDumpData (dumpFlag && dumpCnt == 0) (readLen rest)
    access 0 (readLen rest)
    let s ← lift get
    lift (hashWrite (read s.readBuf 0 (readLen rest)))
    have := readLen_pos h
    blspMediabootCalHash dumpFlag flash (u32 (addr + readLen rest)) (rest - readLen rest) 1
termination_by rest

/-- `blsp_mediaboot_read_signaure`.  The length word goes into a variable of its own. -/
def blspMediabootReadSignaure (flash : Mem) (addr : ℕ) : ScratchM ℕ := do
  let sigLen := leNat (flashRead flash addr 4)
  lift (failIf (sigLen > bflbBoot2SignMaxsize) .imgSignatureLenError)
  access 4 (sigLen + 4)
  access 0 4
  lift (modify fun s => { s with readBuf := loadSignature flash s.readBuf addr sigLen })
  pure sigLen

/-- `blsp_boot_parse_signature`: the length word, the range of the CRC, the CRC itself and the
signature. -/
def blspBootParseSignature (data : Mem) : ScratchM Unit := do
  access 0 4
  lift (failIf (BootSign.sigLen data > bflbBoot2SignMaxsize) .imgSignatureLenError)
  access 0 (BootSign.sigLen data + 4)
  access (4 + BootSign.sigLen data) 4
  lift (failIf (leBytes 4 (bflbSoftCrc32 (read data 0 (BootSign.sigLen data + 4))) ≠
    BootSign.crc32 data) .imgSignatureCrcError)
  access 4 (BootSign.sigLen data)
  lift (modifyCfg fun cfg => { cfg with
    signature := BootSign.signature data ++ cfg.signature.drop (BootSign.sigLen data)
    sigLen := BootSign.sigLen data })

/-- "If sign enable, get pk key and signature". -/
def parseSigned (dumpFlag : Bool) (sec : SecEng) (g : Globals) (flash : Mem) (addr : ℕ) :
    ScratchM ℕ := do
  let pk ← readStruct dumpFlag flash addr bootPkConfigSize
  lift (blspBootParsePkey sec g pk 1)
  let sigLen ← dropError 0 (blspMediabootReadSignaure flash (u32 (addr + bootPkConfigSize)))
  blspDumpData dumpFlag sigLen
  let sig ← lift (bufferAs bootSignConfigSize)
  blspBootParseSignature sig
  pure (u32 (u32 (addr + bootPkConfigSize) + 4 + (sigLen + 4)))

/-- "If encrypt enable, get AES key". -/
def parseEncrypted (dumpFlag : Bool) (flash : Mem) (addr : ℕ) : ScratchM Unit := do
  let aes ← readStruct dumpFlag flash addr bootAesConfigSize
  lift (blspBootParseAesiv aes)

/-- The hash of a flash image. -/
def checkImgHash (dumpFlag : Bool) (sec : SecEng) (flash : Mem) (imgAddr imgLen : ℕ) :
    ScratchM Unit := do
  blspMediabootCalHash dumpFlag flash imgAddr imgLen 0
  lift (blspBootParserCheckHash sec)

/-- The last part of `blsp_mediaboot_parse_one_fw`: the image itself. -/
def checkImg (dumpFlag : Bool) (sec : SecEng) (g : Globals) (flash : Mem) (imgAddr : ℕ) :
    ScratchM Unit := do
  let s ← lift get
  if s.cfg.noSegment ≠ 0 then
    (if s.cfg.hashIgnore = 0 then checkImgHash dumpFlag sec flash imgAddr s.cfg.imgLen
      else pure ())
    lift (blspBootParserCheckSignature sec g)
    lift (modifyCfg fun cfg => { cfg with imgValid := 1 })
  else
    lift (modifyCfg fun cfg => { cfg with imgValid := 0 })

/-- `blsp_mediaboot_parse_one_fw`. -/
def blspMediabootParseOneFw (dumpFlag : Bool) (sec : SecEng) (g : Globals) (flash : Mem)
    (bootHeaderAddr imgAddr : ℕ) : ScratchM Unit := do
  let header ← readStruct dumpFlag flash bootHeaderAddr bootHeaderConfigSize
  lift (blspBootParseBootheader g header)
  lift (modifyCfg fun cfg => { cfg with flashOffset := imgAddr })
  let s ← lift get
  let addr ← (if s.cfg.signType ≠ 0 then
      parseSigned dumpFlag sec g flash (u32 (bootHeaderAddr + bootHeaderConfigSize))
    else pure (u32 (bootHeaderAddr + bootHeaderConfigSize)))
  (if s.cfg.encryptType ≠ 0 then parseEncrypted dumpFlag flash addr else pure ())
  checkImg dumpFlag sec g flash imgAddr

/-! ## Without the accesses -/

section Erasure

variable {dumpFlag : Bool} {flash : Mem} {addr len : ℕ} {β : Type}

theorem erases_dumpData {y : ScratchM β} {x : BootM β} (h : Erases y x) :
    Erases (blspDumpData dumpFlag len >>= fun _ => y) x := by
  unfold blspDumpData
  cases dumpFlag with
  | true => exact erases_note h
  | false => exact h

theorem erases_readStruct {g : Mem → ScratchM β} {f : Mem → BootM β}
    (h : ∀ m, Erases (g m) (f m)) :
    Erases (readStruct dumpFlag flash addr len >>= g)
      (blspMediabootRead flash addr len >>= fun _ => bufferAs len >>= f) := by
  have hread : Erases (readStruct dumpFlag flash addr len)
      (blspMediabootRead flash addr len >>= fun _ => bufferAs len) := by
    refine erases_note (erases_bind (erases_lift _) fun _ => ?_)
    exact erases_dumpData (erases_note (erases_lift _))
  rw [← bind_assoc]
  exact erases_bind hread h

theorem blspMediabootCalHash_erases (dumpFlag : Bool) (flash : Mem) (addr rest dumpCnt : ℕ) :
    Erases (blspMediabootCalHash dumpFlag flash addr rest dumpCnt)
      (Boot.blspMediabootCalHash flash addr rest) := by
  induction rest using Nat.strongRecOn generalizing addr dumpCnt with
  | ind rest ih =>
    rw [blspMediabootCalHash, Boot.blspMediabootCalHash]
    by_cases h : rest = 0
    · rw [dif_pos h, dif_pos h]
      exact erases_pure ()
    · rw [dif_neg h, dif_neg h]
      have hpos := readLen_pos h
      refine erases_note (erases_bind (erases_lift _) fun _ => erases_dumpData ?_)
      refine erases_note (erases_bind (erases_lift _) fun s => ?_)
      exact erases_bind (erases_lift _) fun _ => ih _ (by omega) _ _

theorem blspMediabootReadSignaure_erases (flash : Mem) (addr : ℕ) :
    Erases (blspMediabootReadSignaure flash addr) (Boot.blspMediabootReadSignaure flash addr) := by
  refine erases_bind (erases_lift _) fun _ => erases_note (erases_note ?_)
  exact erases_bind (erases_lift _) fun _ => erases_pure _

theorem blspBootParseSignature_erases (data : Mem) :
    Erases (blspBootParseSignature data) (Boot.blspBootParseSignature data) := by
  refine erases_note (erases_bind (erases_lift _) fun _ => erases_note (erases_note ?_))
  exact erases_bind (erases_lift _) fun _ => erases_note (erases_lift _)

theorem parseSigned_erases (dumpFlag : Bool) (sec : SecEng) (g : Globals) (flash : Mem)
    (addr : ℕ) :
    Erases (parseSigned dumpFlag sec g flash addr) (Boot.parseSigned sec g flash addr) := by
  refine erases_readStruct fun pk => erases_bind (erases_lift _) fun _ => ?_
  refine erases_bind (erases_dropError (blspMediabootReadSignaure_erases _ _)) fun sigLen => ?_
  refine erases_dumpData (erases_bind (erases_lift _) fun sig => ?_)
  exact erases_bind (blspBootParseSignature_erases sig) fun _ => erases_pure _

theorem checkImg_erases (dumpFlag : Bool) (sec : SecEng) (g : Globals) (flash : Mem)
    (imgAddr : ℕ) :
    Erases (checkImg dumpFlag sec g flash imgAddr) (Boot.checkImg sec g flash imgAddr) := by
  refine erases_bind (erases_lift _) fun s => erases_ite (fun _ => ?_) fun _ => erases_lift _
  refine erases_bind (erases_ite (fun _ => ?_) fun _ => erases_pure _) fun _ => ?_
  · exact erases_bind (blspMediabootCalHash_erases _ _ _ _ _) fun _ => erases_lift _
  · exact erases_bind (erases_lift _) fun _ => erases_lift _

/-- **Without its notes, the function is the function of the boot path.** -/
theorem blspMediabootParseOneFw_erases (dumpFlag : Bool) (sec : SecEng) (g : Globals) (flash : Mem)
    (bootHeaderAddr imgAddr : ℕ) :
    Erases (blspMediabootParseOneFw dumpFlag sec g flash bootHeaderAddr imgAddr)
      (Boot.blspMediabootParseOneFw sec g flash bootHeaderAddr imgAddr) := by
  refine erases_readStruct fun header => erases_bind (erases_lift _) fun _ => ?_
  refine erases_bind (erases_lift _) fun _ => erases_bind (erases_lift _) fun s => ?_
  refine erases_bind (erases_ite (fun _ => ?_) fun _ => erases_pure _) fun addr => ?_
  · exact parseSigned_erases _ _ _ _ _
  refine erases_bind (erases_ite (fun _ => ?_) fun _ => erases_pure _) fun _ => ?_
  · exact erases_readStruct fun aes => erases_lift _
  · exact checkImg_erases _ _ _ _ _

end Erasure

/-! ## What is inside -/

/-- A signature of this length fits the buffer with its length word and its CRC, or is refused
before it is read. -/
def Fits (sigLen : ℕ) : Prop := sigLen + 8 ≤ bflbBoot2ReadbufSize ∨ bflbBoot2SignMaxsize < sigLen

@[simp] theorem allInside_append (log : List Access) (offset length : ℕ) :
    AllInside (log ++ [⟨offset, length⟩]) ↔
      AllInside log ∧ offset + length ≤ bflbBoot2ReadbufSize := by
  simp [AllInside, Access.Inside, or_imp, forall_and]

section Inside

variable {dumpFlag : Bool} {flash : Mem} {addr len : ℕ} {β : Type} {s : BootState}
  {log : List Access} {Q : β → BootState × List Access → Prop}
  {E : BootError → BootState × List Access → Prop}

theorem access_post {offset length : ℕ} {y : ScratchM β}
    (h : Post y (s, log ++ [⟨offset, length⟩]) Q E) :
    Post (access offset length >>= fun _ => y) (s, log) Q E :=
  post_bind (post_note h)

/-- A dump of what has just been read is inside when the read is. -/
theorem dumpData_post {y : ScratchM β}
    (h : ∀ log', (len ≤ bflbBoot2ReadbufSize → (AllInside log' ↔ AllInside log)) →
      (AllInside log' → AllInside log) → Post y (s, log') Q E) :
    Post (blspDumpData dumpFlag len >>= fun _ => y) (s, log) Q E := by
  unfold blspDumpData
  cases dumpFlag with
  | false => exact h log (fun _ => Iff.rfl) id
  | true =>
    refine access_post (h _ (fun hlen => ?_) fun hlog => ?_)
    · rw [allInside_append]
      refine and_iff_left ?_
      split <;> omega
    · exact ((allInside_append _ _ _).1 hlog).1

/-- A structure that fits the buffer. -/
theorem readStruct_post {f : Mem → ScratchM β} (hlen : len ≤ bflbBoot2ReadbufSize)
    (h : ∀ log', (AllInside log' ↔ AllInside log) →
      Post (f (ofBytes (flashRead flash addr len)))
        ({ s with readBuf := write s.readBuf 0 (flashRead flash addr len) }, log') Q E) :
    Post (readStruct dumpFlag flash addr len >>= f) (s, log) Q E := by
  have hread := read_write_same s.readBuf 0 (flashRead flash addr len)
  rw [length_flashRead] at hread
  unfold readStruct
  apply post_bind
  apply access_post
  apply post_bind
  apply post_lift
  apply post_modify
  refine dumpData_post fun log' hlog _ => ?_
  apply access_post
  apply post_lift
  apply post_bind
  apply post_get
  apply post_pure
  rw [hread]
  refine h _ ?_
  rw [allInside_append, hlog hlen, allInside_append]
  simp [hlen]

end Inside

/-- Every block of the hash is inside exactly when the first is. -/
theorem blspMediabootCalHash_inside (dumpFlag : Bool) (flash : Mem) (addr rest dumpCnt : ℕ)
    (s : BootState) (log : List Access) (E : BootError → BootState × List Access → Prop) :
    Post (blspMediabootCalHash dumpFlag flash addr rest dumpCnt) (s, log)
      (fun _ t => AllInside t.2 ↔ AllInside log ∧ rest < 2 ^ 31) E := by
  induction rest using Nat.strongRecOn generalizing addr dumpCnt s log with
  | ind rest ih =>
    rw [blspMediabootCalHash]
    by_cases h : rest = 0
    · rw [dif_pos h]
      refine post_pure ?_
      simp [h]
    · rw [dif_neg h]
      have hpos := readLen_pos h
      have hle := readLen_le rest
      have hblock : readLen rest ≤ bflbBoot2ReadbufSize ↔ rest < 2 ^ 31 := by
        unfold readLen bflbBoot2ReadbufSize
        split <;> omega
      apply access_post
      apply post_bind
      apply post_lift
      apply post_modify
      refine dumpData_post fun log' hlog hlog' => ?_
      apply access_post
      apply post_bind
      apply post_lift
      apply post_get
      apply post_bind
      apply post_lift
      apply post_modify
      refine (ih (rest - readLen rest) (by omega) _ _ _ _).mono ?_ fun _ _ h => h
      intro _ t ht
      rw [ht, allInside_append, Nat.zero_add]
      rw [allInside_append, Nat.zero_add] at hlog hlog'
      by_cases hrest : rest < 2 ^ 31
      · have hfit := hblock.2 hrest
        rw [hlog hfit]
        simp only [hfit, hrest, and_true]
        exact and_iff_left (by omega)
      · have hover : ¬ readLen rest ≤ bflbBoot2ReadbufSize := fun hfit => hrest (hblock.1 hfit)
        simp only [hover, hrest, and_false, false_and]

/-- `blsp_mediaboot_read_signaure` with its error dropped. -/
theorem blspMediabootReadSignaure_inside (flash : Mem) (addr : ℕ) (s : BootState)
    (log : List Access) (E : BootError → BootState × List Access → Prop) :
    Post (dropError 0 (blspMediabootReadSignaure flash addr)) (s, log)
      (fun n t => n = (if leNat (flashRead flash addr 4) ≤ bflbBoot2SignMaxsize then
          leNat (flashRead flash addr 4) else 0) ∧
        t.1 = { s with readBuf := if leNat (flashRead flash addr 4) ≤ bflbBoot2SignMaxsize then
          loadSignature flash s.readBuf addr (leNat (flashRead flash addr 4)) else s.readBuf } ∧
        (AllInside t.2 ↔ AllInside log ∧ Fits (leNat (flashRead flash addr 4)))) E := by
  apply post_dropError
  unfold blspMediabootReadSignaure
  apply post_bind
  apply post_lift
  apply post_failIf
  · intro h
    rw [if_neg (Nat.not_le.2 h), if_neg (Nat.not_le.2 h)]
    exact ⟨rfl, rfl, (and_iff_left (.inr h)).symm⟩
  · intro h
    apply access_post
    apply access_post
    apply post_bind
    apply post_lift
    apply post_modify
    apply post_pure
    rw [if_pos (Nat.not_lt.1 h), if_pos (Nat.not_lt.1 h)]
    refine ⟨rfl, rfl, ?_⟩
    rw [allInside_append, allInside_append, Fits, or_iff_left h, and_assoc]
    unfold bflbBoot2ReadbufSize
    exact and_congr_right fun _ => by omega

theorem blspBootParseSignature_inside (data : Mem) (s : BootState) (log : List Access) :
    Post (blspBootParseSignature data) (s, log)
      (fun _ t => SigRecordOk data ∧ t.1 = { s with cfg := { s.cfg with
          signature := BootSign.signature data ++ s.cfg.signature.drop (BootSign.sigLen data)
          sigLen := BootSign.sigLen data } } ∧
        (AllInside t.2 ↔ AllInside log ∧ Fits (BootSign.sigLen data)))
      (fun _ t => ¬ SigRecordOk data ∧
        (AllInside t.2 ↔ AllInside log ∧ Fits (BootSign.sigLen data))) := by
  unfold blspBootParseSignature
  have h4 : 0 + 4 ≤ bflbBoot2ReadbufSize := by decide
  apply access_post
  apply post_bind
  apply post_lift
  apply post_failIf
  · intro hlen
    refine ⟨fun h => absurd h.len (Nat.not_le.2 hlen), ?_⟩
    rw [allInside_append, and_iff_left h4]
    exact (and_iff_left (.inr hlen)).symm
  intro hlen
  have hfits : Fits (BootSign.sigLen data) ↔ BootSign.sigLen data + 8 ≤ bflbBoot2ReadbufSize :=
    or_iff_left hlen
  apply access_post
  apply access_post
  apply post_bind
  apply post_lift
  apply post_failIf
  · intro hcrc
    refine ⟨fun h => hcrc h.crc, ?_⟩
    simp only [allInside_append, and_iff_left h4, hfits, and_assoc]
    exact and_congr_right fun _ => by omega
  intro hcrc
  apply access_post
  apply post_lift
  refine post_modify ⟨⟨Nat.not_lt.1 hlen, not_not.1 hcrc⟩, rfl, ?_⟩
  simp only [allInside_append, and_iff_left h4, hfits, and_assoc]
  exact and_congr_right fun _ => by omega

/-- The first word of what is parsed as the signature record. -/
def sigWordAt (flash : Mem) (addr : ℕ) : ℕ :=
  if sigLenAt flash addr ≤ bflbBoot2SignMaxsize then sigLenAt flash addr
  else le (pkAt flash addr) 0 4

theorem sigLen_sigBuffer_eq (flash readBuf : Mem) (addr : ℕ) :
    BootSign.sigLen (sigBuffer flash readBuf addr) = sigWordAt flash addr := by
  unfold sigWordAt
  by_cases hlen : sigLenAt flash addr ≤ bflbBoot2SignMaxsize
  · rw [if_pos hlen]
    exact sigLen_sigBuffer hlen
  · rw [if_neg hlen, BootSign.sigLen, sigBuffer, if_neg hlen]
    have hpk : 0 + 4 ≤ (flashRead flash (pkAddr addr) bootPkConfigSize).length := by
      rw [length_flashRead]
      decide
    refine le_congr ?_
    rw [read_ofBytes (by rw [length_read]; decide), read_sub (by decide), pkBuffer,
      read_write_sub hpk, pkAt, read_ofBytes hpk]

theorem parseSigned_inside (dumpFlag : Bool) (sec : SecEng) (g : Globals) (flash readBuf : Mem)
    (addr : ℕ) {cfg : BootImgCfg} (hcpu : cfg.cpuType = 0) (h0 : cfg.imgValid = 0)
    (log : List Access) :
    Post (parseSigned dumpFlag sec g flash (pkAddr addr))
      (⟨cfg, write readBuf 0 (flashRead flash addr bootHeaderConfigSize), []⟩, log)
      (fun a t => PkOk sec g (pkAt flash addr) ∧ SigRecordOk (sigBuffer flash readBuf addr) ∧
        a = u32 (sigAddr addr + 4 + ((if sigLenAt flash addr ≤ bflbBoot2SignMaxsize then
          sigLenAt flash addr else 0) + 4)) ∧
        t.1.cfg = cfg.takeSigned (pkAt flash addr) (sigBuffer flash readBuf addr) ∧
        (AllInside t.2 ↔
          AllInside log ∧ Fits (sigLenAt flash addr) ∧ Fits (sigWordAt flash addr)))
      (fun _ t => ¬ (PkOk sec g (pkAt flash addr) ∧ SigRecordOk (sigBuffer flash readBuf addr)) ∧
        (AllInside t.2 ↔ AllInside log ∧ (PkOk sec g (pkAt flash addr) →
          Fits (sigLenAt flash addr) ∧ Fits (sigWordAt flash addr)))) := by
  unfold parseSigned
  refine readStruct_post (by decide) fun log₁ hlog₁ => ?_
  apply post_bind
  apply post_lift
  refine (blspBootParsePkey_post sec g (pkAt flash addr) (s := ⟨cfg, _, []⟩) hcpu rfl h0).mono ?_ ?_
  swap
  · rintro - s' ⟨hpk, -⟩
    refine ⟨fun h => hpk h.1, ?_⟩
    rw [hlog₁]
    exact (and_iff_left fun h => absurd h hpk).symm
  rintro - s' ⟨hpk, rfl⟩
  apply post_bind
  refine (blspMediabootReadSignaure_inside flash (sigAddr addr) _ _ _).mono ?_ fun _ _ h => h
  rintro n ⟨⟨cfg', buf', dev'⟩, log₂⟩ ⟨hn, hs, hlog₂⟩
  obtain ⟨hcfg, hbuf, hdev⟩ := BootState.mk.inj hs
  have hsigBuffer : ofBytes (read buf' 0 bootSignConfigSize) = sigBuffer flash readBuf addr := by
    rw [hbuf]
    rfl
  have hn' : n ≤ bflbBoot2ReadbufSize := by
    rw [hn]
    split
    · rename_i hle
      exact hle
    · exact Nat.zero_le _
  refine dumpData_post fun log₃ hlog₃ _ => ?_
  apply post_bind
  apply post_lift
  apply post_bind
  apply post_get
  apply post_pure
  apply post_bind
  rw [hsigBuffer]
  have hlog : AllInside log₃ ∧ Fits (BootSign.sigLen (sigBuffer flash readBuf addr)) ↔
      AllInside log ∧ Fits (sigLenAt flash addr) ∧ Fits (sigWordAt flash addr) := by
    rw [hlog₃ hn', hlog₂, hlog₁, sigLen_sigBuffer_eq, and_assoc]
    rfl
  refine (blspBootParseSignature_inside (sigBuffer flash readBuf addr) ⟨cfg', buf', dev'⟩
    log₃).mono ?_ ?_
  · rintro - ⟨s', log₄⟩ ⟨hsig, hs', hlog₄⟩
    refine post_pure ⟨hpk, hsig, ?_, ?_, hlog₄.trans hlog⟩
    · rw [hn]
      rfl
    · cases hs'
      subst hcfg
      rfl
  · rintro - t ⟨hsig, hlog₄⟩
    refine ⟨fun h => hsig h.2, ?_⟩
    rw [hlog₄, hlog]
    exact and_congr_right fun _ => ⟨fun h _ => h, fun h => h hpk⟩

/-- Checking the image adds to the log what is inside exactly when the hash of the image, if it
is calculated, takes in less than `2 ^ 31` bytes. -/
def ImgInside (cfg : BootImgCfg) (log log' : List Access) : Prop :=
  AllInside log' ↔
    AllInside log ∧ (cfg.noSegment ≠ 0 → cfg.hashIgnore = 0 → cfg.imgLen < 2 ^ 31)

theorem checkImg_inside (dumpFlag : Bool) (sec : SecEng) (g : Globals) (flash : Mem) (imgAddr : ℕ)
    (s : BootState) (log : List Access) :
    Post (checkImg dumpFlag sec g flash imgAddr) (s, log)
      (fun _ t => ImgInside s.cfg log t.2) (fun _ t => ImgInside s.cfg log t.2) := by
  unfold checkImg
  apply post_bind
  apply post_lift
  apply post_get
  by_cases hseg : s.cfg.noSegment ≠ 0
  swap
  · rw [if_neg hseg]
    exact post_lift_trace (P := ImgInside s.cfg log) _ (and_iff_left fun h => absurd h hseg).symm
  rw [if_pos hseg]
  apply post_bind
  -- what follows the hash touches the buffer no more
  have hrest : ∀ {t : BootState × List Access}, ImgInside s.cfg log t.2 →
      Post (lift (blspBootParserCheckSignature sec g) >>= fun _ =>
        lift (modifyCfg fun cfg => { cfg with imgValid := 1 })) t
        (fun _ t => ImgInside s.cfg log t.2) (fun _ t => ImgInside s.cfg log t.2) := by
    intro t ht
    apply post_bind
    refine (post_lift_trace (P := ImgInside s.cfg log) _ ht).mono ?_ fun _ _ h => h
    intro _ t' ht'
    exact post_lift_trace (P := ImgInside s.cfg log) _ ht'
  by_cases hign : s.cfg.hashIgnore = 0
  swap
  · rw [if_neg hign]
    exact post_pure (hrest (and_iff_left fun _ h => absurd h hign).symm)
  rw [if_pos hign]
  unfold checkImgHash
  apply post_bind
  refine (blspMediabootCalHash_inside dumpFlag flash imgAddr s.cfg.imgLen 0 s log _).mono ?_
    fun _ _ h => h
  intro _ t ht
  have ht' : ImgInside s.cfg log t.2 := by
    rw [ImgInside, ht]
    exact and_congr_right fun _ => ⟨fun h _ _ => h, fun h => h hseg hign⟩
  refine (post_lift_trace (P := ImgInside s.cfg log) (blspBootParserCheckHash sec) ht').mono ?_
    fun _ _ h => h
  intro _ t hlog
  exact hrest hlog

end Scratch

/-- The lengths that the buffer can take. -/
structure ScratchOk (sec : SecEng) (g : Globals) (flash readBuf : Mem) (addr : ℕ) : Prop where
  /-- the signature, when the image is signed and its key is taken -/
  sig : HeaderOk g (headerAt flash addr) → (headerAt flash addr).sign ≠ 0 →
    PkOk sec g (pkAt flash addr) →
    Scratch.Fits (sigLenAt flash addr) ∧ Scratch.Fits (Scratch.sigWordAt flash addr)
  /-- the image, when its hash is calculated -/
  img : RecordsOk sec g flash readBuf addr → (headerAt flash addr).noSegment ≠ 0 →
    hashIgnoreOf g (headerAt flash addr) 0 = 0 → (headerAt flash addr).imgLen < 2 ^ 31

/-- The stage of the public key and the signature. -/
theorem signedStage_inside (dumpFlag : Bool) (sec : SecEng) (g : Globals) (flash readBuf : Mem)
    (addr imgAddr : ℕ) (cfg : BootImgCfg) (hheader : HeaderOk g (headerAt flash addr))
    {log : List Access} (hlog : AllInside log) :
    Post (if (headerAt flash addr).sign ≠ 0 then
        Scratch.parseSigned dumpFlag sec g flash (pkAddr addr) else pure (pkAddr addr))
      (⟨headerCfg g flash addr imgAddr cfg,
        write readBuf 0 (flashRead flash addr bootHeaderConfigSize), []⟩, log)
      (fun a t => ((headerAt flash addr).sign ≠ 0 → PkOk sec g (pkAt flash addr) ∧
          SigRecordOk (sigBuffer flash readBuf addr)) ∧ a = ivAddr flash addr ∧
        t.1.cfg = signedCfg g flash readBuf addr imgAddr cfg ∧
        (AllInside t.2 ↔ ((headerAt flash addr).sign ≠ 0 → PkOk sec g (pkAt flash addr) →
          Scratch.Fits (sigLenAt flash addr) ∧ Scratch.Fits (Scratch.sigWordAt flash addr))))
      (fun _ t => AllInside t.2 ↔ ScratchOk sec g flash readBuf addr) := by
  unfold ivAddr signedCfg
  by_cases hsign : (headerAt flash addr).sign ≠ 0
  · rw [if_pos hsign, if_pos hsign, if_pos hsign]
    have hcpu : (headerCfg g flash addr imgAddr cfg).cpuType = 0 := rfl
    refine (Scratch.parseSigned_inside dumpFlag sec g flash readBuf addr hcpu rfl log).mono ?_ ?_
    · rintro a t ⟨hpk, hsig, ha, hcfg, hlog'⟩
      refine ⟨fun _ => ⟨hpk, hsig⟩, ha, hcfg, ?_⟩
      rw [hlog', and_iff_right hlog]
      exact ⟨fun h _ _ => h, fun h => h hsign hpk⟩
    · rintro - t ⟨hfail, hlog'⟩
      rw [hlog', and_iff_right hlog]
      constructor
      · intro h
        exact ⟨fun _ _ => h, fun hok => absurd ⟨hok.pk hsign, hok.sig hsign⟩ hfail⟩
      · intro h
        exact h.sig hheader hsign
  · rw [if_neg hsign, if_neg hsign, if_neg hsign]
    exact post_pure ⟨fun h => absurd h hsign, rfl, rfl, iff_of_true hlog fun h => absurd h hsign⟩

/-- The stage of the AES IV. -/
theorem encryptedStage_inside (dumpFlag : Bool) (sec : SecEng) (g : Globals) (flash readBuf : Mem)
    (addr imgAddr : ℕ) {cfg : BootImgCfg} (hheader : HeaderOk g (headerAt flash addr))
    {s : BootState} {log : List Access}
    (hrecords : (headerAt flash addr).sign ≠ 0 → PkOk sec g (pkAt flash addr) ∧
      SigRecordOk (sigBuffer flash readBuf addr))
    (hcfg : s.cfg = signedCfg g flash readBuf addr imgAddr cfg)
    (hlog : AllInside log ↔ ((headerAt flash addr).sign ≠ 0 → PkOk sec g (pkAt flash addr) →
      Scratch.Fits (sigLenAt flash addr) ∧ Scratch.Fits (Scratch.sigWordAt flash addr))) :
    Post (if (headerAt flash addr).encryptType ≠ 0 then
        Scratch.parseEncrypted dumpFlag flash (ivAddr flash addr) else pure ()) (s, log)
      (fun _ t => RecordsOk sec g flash readBuf addr ∧
        t.1.cfg = parsedCfg g flash readBuf addr imgAddr cfg ∧
        (AllInside t.2 ↔ AllInside log))
      (fun _ t => AllInside t.2 ↔ ScratchOk sec g flash readBuf addr) := by
  have hvalid : s.cfg.imgValid = 0 := by
    rw [hcfg, signedCfg]
    split <;> rfl
  unfold parsedCfg
  by_cases henc : (headerAt flash addr).encryptType ≠ 0
  · rw [if_pos henc, if_pos henc]
    refine Scratch.readStruct_post (by decide) fun log' hlog' => ?_
    apply post_lift
    refine (blspBootParseAesiv_post (ivAt flash addr)
      (s := ⟨s.cfg, write s.readBuf 0 _, s.devCheckHash⟩) hvalid).mono ?_ ?_
    · rintro - s' ⟨hiv, rfl⟩
      refine ⟨⟨hheader, ?_, ?_, fun _ => hiv⟩, ?_, hlog'⟩
      · exact fun h => (hrecords h).1
      · exact fun h => (hrecords h).2
      · rw [← hcfg]
    · rintro - s' ⟨hiv, -⟩
      rw [hlog', hlog]
      constructor
      · intro h
        exact ⟨fun _ => h, fun hok => absurd (hok.iv henc) hiv⟩
      · intro h
        exact h.sig hheader
  · rw [if_neg henc, if_neg henc]
    refine post_pure ⟨⟨hheader, ?_, ?_, fun h => absurd h henc⟩, hcfg, Iff.rfl⟩
    · exact fun h => (hrecords h).1
    · exact fun h => (hrecords h).2

theorem parseOneFw_inside (dumpFlag : Bool) (sec : SecEng) (g : Globals) (flash : Mem)
    (addr imgAddr : ℕ) (s : BootState) :
    Post (Scratch.blspMediabootParseOneFw dumpFlag sec g flash addr imgAddr) (s, [])
      (fun _ t => AllInside t.2 ↔ ScratchOk sec g flash s.readBuf addr)
      (fun _ t => AllInside t.2 ↔ ScratchOk sec g flash s.readBuf addr) := by
  obtain ⟨cfg, readBuf, dev⟩ := s
  unfold Scratch.blspMediabootParseOneFw
  refine Scratch.readStruct_post (by decide) fun log₁ hlog₁ => ?_
  have hnil : AllInside log₁ := hlog₁.2 (by simp [AllInside])
  apply post_bind
  apply post_lift
  refine (blspBootParseBootheader_cases g (headerAt flash addr)
    ⟨cfg, write readBuf 0 (flashRead flash addr bootHeaderConfigSize), dev⟩).mono ?_ ?_
  swap
  · rintro - s' ⟨hheader, -⟩
    exact iff_of_true hnil ⟨fun h => absurd h hheader, fun h => absurd h.header hheader⟩
  rintro - s' ⟨hheader, rfl⟩
  apply post_bind
  apply post_lift
  apply post_modify
  apply post_bind
  apply post_lift
  apply post_get
  apply post_bind
  refine (signedStage_inside dumpFlag sec g flash readBuf addr imgAddr cfg hheader hnil).mono ?_
    fun _ _ h => h
  rintro a ⟨s₂, log₂⟩ ⟨hrecords, rfl, hcfg₂, hlog₂⟩
  apply post_bind
  refine (encryptedStage_inside dumpFlag sec g flash readBuf addr imgAddr hheader hrecords hcfg₂
    hlog₂).mono ?_ fun _ _ h => h
  rintro - ⟨s₃, log₃⟩ ⟨hok, hcfg₃, hlog₃⟩
  obtain ⟨-, hseg, hign, hlen, -⟩ := parsedCfg_eq g flash readBuf addr imgAddr cfg
  rw [← hcfg₃] at hseg hign hlen
  -- the image
  have himg : ∀ {log : List Access}, Scratch.ImgInside s₃.cfg log₃ log →
      (AllInside log ↔ ScratchOk sec g flash readBuf addr) := by
    intro log h
    rw [Scratch.ImgInside, hlog₃, hlog₂, hseg, hign, hlen] at h
    rw [h]
    constructor
    · rintro ⟨hsig, himg⟩
      exact ⟨fun _ => hsig, fun _ => himg⟩
    · intro hscratch
      exact ⟨hscratch.sig hheader, hscratch.img hok⟩
  exact (Scratch.checkImg_inside dumpFlag sec g flash imgAddr s₃ log₃).mono (fun _ _ h => himg h)
    fun _ _ h => himg h

/-- The accesses to `g_boot2_read_buf` while a firmware is parsed. -/
def accesses (dumpFlag : Bool) (sec : SecEng) (g : Globals) (flash : Mem) (addr imgAddr : ℕ)
    (s : BootState) : List Access :=
  (finalState (Scratch.blspMediabootParseOneFw dumpFlag sec g flash addr imgAddr (s, []))).2

/-- **When the parsing stays inside its buffer.** -/
theorem allInside_iff (dumpFlag : Bool) (sec : SecEng) (g : Globals) (flash : Mem)
    (addr imgAddr : ℕ) (s : BootState) :
    AllInside (accesses dumpFlag sec g flash addr imgAddr s) ↔
      ScratchOk sec g flash s.readBuf addr :=
  Post.finalState (P := fun t : BootState × List Access => AllInside t.2 ↔ _)
    (parseOneFw_inside dumpFlag sec g flash addr imgAddr s)

/-! ## An image that is too long -/

/-- A device that asks for nothing, in a normal boot. -/
def openGlobals : Globals where
  efuseCfg := ⟨fun _ => 0, fun _ => 0, 0, [], []⟩
  psMode := 0
  userHashIgnored := 0

/-- A header of CPU 0 for an image of `2 ^ 31` bytes without segments, whose CRC is not to be
checked. -/
def longHeader : List UInt8 :=
  bflbBoot2Cpu0Magic ++ List.replicate 112 0 ++ leBytes 4 0x10100 ++ leBytes 4 (2 ^ 31) ++
    List.replicate 48 0 ++ leBytes 4 bflbBoot2DeadbeefVal

/-- A flash with this header in the slot at `0x2F000`. -/
def longFlash : Mem := write (fun _ => 0xFF) 0x2F000 longHeader

theorem headerAt_longFlash : headerAt longFlash 0x2F000 = ofBytes longHeader := by
  have hlen : longHeader.length = bootHeaderConfigSize := by decide +kernel
  have hread := read_write_same (fun _ => 0xFF) 0x2F000 longHeader
  rw [hlen] at hread
  rw [headerAt, flashRead_eq (by decide), longFlash, hread]

/-- The first block of its hash is read past the end of the buffer, before anything has been
checked. -/
theorem not_allInside_longFlash (sec : SecEng) (s : BootState) :
    ¬ AllInside (accesses false sec openGlobals longFlash 0x2F000 0x30000 s) := by
  have hheader : HeaderOk openGlobals (headerAt longFlash 0x2F000) := by
    rw [headerAt_longFlash]
    exact ⟨by decide +kernel, by decide +kernel, by decide +kernel, fun h => absurd rfl h,
      by decide +kernel, by decide +kernel⟩
  have hsign : (headerAt longFlash 0x2F000).sign = 0 := by
    rw [headerAt_longFlash]
    decide +kernel
  have henc : (headerAt longFlash 0x2F000).encryptType = 0 := by
    rw [headerAt_longFlash]
    decide +kernel
  have hrecords : RecordsOk sec openGlobals longFlash s.readBuf 0x2F000 :=
    ⟨hheader, fun h => absurd hsign h, fun h => absurd hsign h, fun h => absurd henc h⟩
  have hlen : ¬ (headerAt longFlash 0x2F000).imgLen < 2 ^ 31 := by
    rw [headerAt_longFlash]
    decide +kernel
  have hseg : (headerAt longFlash 0x2F000).noSegment ≠ 0 := by
    rw [headerAt_longFlash]
    decide +kernel
  have hign : hashIgnoreOf openGlobals (headerAt longFlash 0x2F000) 0 = 0 := by
    rw [headerAt_longFlash]
    decide +kernel
  have hinside := Post.finalState (P := fun t : BootState × List Access => AllInside t.2 ↔ _)
    (parseOneFw_inside false sec openGlobals longFlash 0x2F000 0x30000 s)
  intro h
  exact hlen ((hinside.1 h).img hrecords hseg hign)

/-- A device on which the parsing leaves its buffer. -/
theorem allInside_longImage :
    ¬ AllInside (accesses false strictSecEng openGlobals longFlash 0x2F000 0x30000
      ⟨BootImgCfg.zero, fun _ => 0, []⟩) :=
  not_allInside_longFlash _ _

end Boot
