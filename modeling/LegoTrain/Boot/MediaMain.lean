import LegoTrain.Boot.MediaBoot

/-!
# The main process of the media boot

`blsp_mediaboot_main` parses the firmware of every CPU, counts the ones that were parsed
with success, and jumps when there is one.  The jump itself looks at `img_valid`, which
`blsp_mediaboot_parse_one_fw` does not set for an image with segments although it returns
success for it.

* `blspMediabootMain` is the function of the source;
* `jump_valid_iff` : it stops BLE and jumps only to a validated image, exactly when the image
  is refused or has `no_segment` set;
* `jump_invalid` : a jump without a validated image.
-/

namespace Boot

open ByteMem Flash SoftCrc Checked

/-- `g_cpu_count`: `blsp_boot2_get_cpu_count` returns 1, and so does the single-CPU branch. -/
def gCpuCount : ℕ := 1

/-- `BLSP_BOOT2_CP_FLAG`. -/
def blspBoot2CpFlag : ℕ := 2

/-- `g_boot_img_cfg`, `g_boot2_read_buf`, `dev_check_hash`, and whether BLE is running. -/
structure MediaState where
  imgCfg : ℕ → BootImgCfg
  readBuf : Mem
  devCheckHash : List UInt8
  bleRunning : Bool

/-- How `blsp_mediaboot_main` ends. -/
inductive MediaBootEnd
  | returns (code : BootError)
  | preJump
  deriving DecidableEq, Repr

/-- What the build and the board fix: the feature flag of the vector table and the address of
`main`. -/
structure BootBuild where
  featureFlag : ℕ
  mainAddr : ℕ

/-- The state with another image configuration. -/
def MediaState.setImgCfg (m : MediaState) (i : ℕ) (cfg : BootImgCfg) : MediaState :=
  { m with imgCfg := fun j => if j = i then cfg else m.imgCfg j }

/-- The state after parsing the firmware of CPU `i`. -/
def MediaState.store (m : MediaState) (i : ℕ) (s : BootState) : MediaState :=
  { m.setImgCfg i s.cfg with readBuf := s.readBuf, devCheckHash := s.devCheckHash }

/-- "Reset some parameters". -/
def MediaState.reset (m : MediaState) : MediaState :=
  { m with imgCfg := fun _ => BootImgCfg.zero }

/-- One pass of the loop "Try to boot from flash": the state, the CPUs to roll back and
`valid_img_found`. -/
def tryBoot (sec : SecEng) (g : Globals) (flash : Mem) (bootHeaderAddr : ℕ → ℕ)
    (r : MediaState × List ℕ × ℕ) (i : ℕ) : MediaState × List ℕ × ℕ :=
  if bootHeaderAddr i = 0 then r
  else
    match blspMediabootParseOneFw sec g flash (bootHeaderAddr i)
      (u32 (bootHeaderAddr i + bflbFwImgOffsetAfterHeader))
      ⟨r.1.imgCfg i, r.1.readBuf, r.1.devCheckHash⟩ with
    | .ok _ s => (r.1.store i s, r.2.1, r.2.2 + 1)
    | .error _ s => (r.1.store i s, i :: r.2.1, r.2.2)

/-- "Get msp and pc value", for a RISC-V: one pass of the loop. -/
def setEntryPoint (b : BootBuild) (m : MediaState) (i : ℕ) : MediaState :=
  if (m.imgCfg i).imgValid ≠ 0 ∧ (m.imgCfg i).entryPoint = 0 then
    m.setImgCfg i { m.imgCfg i with entryPoint := b.mainAddr / 2 ^ 24 * 2 ^ 24 }
  else m

/-- The configuration of the co-processor. -/
def copyToCp (b : BootBuild) (m : MediaState) : MediaState :=
  if b.featureFlag = blspBoot2CpFlag then
    m.setImgCfg 1 { m.imgCfg 1 with
      flashOffset := (m.imgCfg 0).flashOffset
      mspVal := (m.imgCfg 0).mspVal
      entryPoint := (m.imgCfg 0).entryPoint
      cacheEnable := (m.imgCfg 0).cacheEnable
      imgValid := 1
      cacheWayDisable := 0xf }
  else m

/-- `blsp_mediaboot_pre_jump`: BLE is stopped before the jump. -/
def preJump (m : MediaState) : MediaState × MediaBootEnd := ({ m with bleRunning := false }, .preJump)

/-- `blsp_mediaboot_main` after the first loop, up to the call of `blsp_mediaboot_pre_jump`.  A
loader session just before that call, when the host asks for one, leaves `g_boot_img_cfg`
alone. -/
def finishMediaBoot (b : BootBuild) (rollBack : ℕ) (r : MediaState × List ℕ × ℕ) :
    MediaState × MediaBootEnd :=
  if r.2.2 ≠ gCpuCount ∧ rollBack = 1 ∧ ¬ (0 ∉ r.2.1 ∧ r.2.2 = 1) then (r.1, .returns .imgRollBack)
  else if r.2.2 = 0 then (r.1, .returns .imgAllInvalidError)
  else preJump (copyToCp b ((List.range gCpuCount).foldl (setEntryPoint b) r.1))

/-- `blsp_mediaboot_main`. -/
def blspMediabootMain (sec : SecEng) (g : Globals) (b : BootBuild) (flash : Mem)
    (bootHeaderAddr : ℕ → ℕ) (rollBack : ℕ) (m : MediaState) : MediaState × MediaBootEnd :=
  finishMediaBoot b rollBack
    ((List.range gCpuCount).foldl (tryBoot sec g flash bootHeaderAddr) (m.reset, [], 0))

section Main

variable (sec : SecEng) (g : Globals) (b : BootBuild) (flash : Mem) (bootHeaderAddr : ℕ → ℕ)
  (rollBack : ℕ) (m : MediaState)

/-- The firmware of CPU 0 is parsed with success. -/
def Parsed : Prop :=
  bootHeaderAddr 0 ≠ 0 ∧ RecordsOk sec g flash m.readBuf (bootHeaderAddr 0) ∧
    ImgHashOk sec g flash (bootHeaderAddr 0) (u32 (bootHeaderAddr 0 + bflbFwImgOffsetAfterHeader))

/-- The loop of one pass: a success is counted, and `img_valid` says whether the image has no
segments. -/
theorem tryBoot_zero :
    (Parsed sec g flash bootHeaderAddr m ∧
      (tryBoot sec g flash bootHeaderAddr (m.reset, [], 0) 0).2 = ([], 1) ∧
      ((tryBoot sec g flash bootHeaderAddr (m.reset, [], 0) 0).1.imgCfg 0).imgValid =
        if (headerAt flash (bootHeaderAddr 0)).noSegment ≠ 0 then 1 else 0) ∨
    (¬ Parsed sec g flash bootHeaderAddr m ∧
      (tryBoot sec g flash bootHeaderAddr (m.reset, [], 0) 0).2.2 = 0 ∧
      ((tryBoot sec g flash bootHeaderAddr (m.reset, [], 0) 0).1.imgCfg 0).imgValid = 0 ∧
      (tryBoot sec g flash bootHeaderAddr (m.reset, [], 0) 0).1.bleRunning = m.bleRunning) := by
  unfold tryBoot Parsed
  by_cases haddr : bootHeaderAddr 0 = 0
  · rw [if_pos haddr]
    exact .inr ⟨fun h => h.1 haddr, rfl, rfl, rfl⟩
  rw [if_neg haddr]
  have hzero : BootImgCfg.zero.imgValid = 0 := rfl
  have hpost := blspMediabootParseOneFw_post sec g flash m.readBuf (bootHeaderAddr 0)
    (u32 (bootHeaderAddr 0 + bflbFwImgOffsetAfterHeader)) m.devCheckHash hzero
  unfold Post at hpost
  dsimp only [MediaState.reset]
  cases hrun : blspMediabootParseOneFw sec g flash (bootHeaderAddr 0)
      (u32 (bootHeaderAddr 0 + bflbFwImgOffsetAfterHeader))
      ⟨BootImgCfg.zero, m.readBuf, m.devCheckHash⟩ with
  | ok a s =>
    rw [hrun] at hpost
    obtain ⟨hok, himg, hcfg⟩ := hpost
    refine .inl ⟨⟨haddr, hok, himg⟩, rfl, ?_⟩
    show s.cfg.imgValid = _
    rw [hcfg]
    rfl
  | error e s =>
    rw [hrun] at hpost
    exact .inr ⟨fun h => hpost.1 h.2, rfl, hpost.2, rfl⟩

theorem setEntryPoint_imgValid (i : ℕ) :
    ((setEntryPoint b m i).imgCfg 0).imgValid = (m.imgCfg 0).imgValid := by
  unfold setEntryPoint
  split
  · by_cases hi : 0 = i
    · subst hi
      rfl
    · show (if 0 = i then _ else m.imgCfg 0).imgValid = _
      rw [if_neg hi]
  · rfl

theorem copyToCp_imgValid : ((copyToCp b m).imgCfg 0).imgValid = (m.imgCfg 0).imgValid := by
  unfold copyToCp
  split <;> rfl

/-- `blsp_mediaboot_main` jumps exactly when the firmware of CPU 0 is parsed with success. -/
theorem blspMediabootMain_cases :
    (Parsed sec g flash bootHeaderAddr m ∧
      (blspMediabootMain sec g b flash bootHeaderAddr rollBack m).2 = .preJump ∧
      ((blspMediabootMain sec g b flash bootHeaderAddr rollBack m).1.imgCfg 0).imgValid =
        if (headerAt flash (bootHeaderAddr 0)).noSegment ≠ 0 then 1 else 0) ∨
    (¬ Parsed sec g flash bootHeaderAddr m ∧
      ((blspMediabootMain sec g b flash bootHeaderAddr rollBack m).1.imgCfg 0).imgValid = 0 ∧
      ∃ code, (blspMediabootMain sec g b flash bootHeaderAddr rollBack m).2 = .returns code ∧
        (blspMediabootMain sec g b flash bootHeaderAddr rollBack m).1.bleRunning = m.bleRunning) := by
  have hmain : blspMediabootMain sec g b flash bootHeaderAddr rollBack m =
      finishMediaBoot b rollBack (tryBoot sec g flash bootHeaderAddr (m.reset, [], 0) 0) := rfl
  rw [hmain, finishMediaBoot]
  rcases tryBoot_zero sec g flash bootHeaderAddr m with
    ⟨hok, hcount, hvalid⟩ | ⟨hfail, hcount, hvalid, hble⟩
  · refine .inl ⟨hok, ?_⟩
    rw [hcount, if_neg (fun h => h.1 rfl), if_neg (by decide)]
    refine ⟨rfl, ?_⟩
    show ((copyToCp b (setEntryPoint b _ 0)).imgCfg 0).imgValid = _
    rw [copyToCp_imgValid, setEntryPoint_imgValid, hvalid]
  · refine .inr ⟨hfail, ?_⟩
    rw [hcount, if_pos rfl]
    split
    · exact ⟨hvalid, .imgRollBack, rfl, hble⟩
    · exact ⟨hvalid, .imgAllInvalidError, rfl, hble⟩

end Main

/-- **Jumping.**  `blsp_mediaboot_main` either jumps with a validated image or returns an error
with BLE running, exactly when there is nothing to boot, a record is refused or the image
has no segments. -/
theorem jump_valid_iff (sec : SecEng) (g : Globals) (b : BootBuild) (flash : Mem)
    (bootHeaderAddr : ℕ → ℕ) (rollBack : ℕ) (m : MediaState) :
    (((blspMediabootMain sec g b flash bootHeaderAddr rollBack m).2 = .preJump ∧
        ((blspMediabootMain sec g b flash bootHeaderAddr rollBack m).1.imgCfg 0).imgValid = 1) ∨
      ∃ code, (blspMediabootMain sec g b flash bootHeaderAddr rollBack m).2 = .returns code ∧
        (blspMediabootMain sec g b flash bootHeaderAddr rollBack m).1.bleRunning = m.bleRunning) ↔
      bootHeaderAddr 0 = 0 ∨ ¬ RecordsOk sec g flash m.readBuf (bootHeaderAddr 0) ∨
        (headerAt flash (bootHeaderAddr 0)).noSegment ≠ 0 := by
  rcases blspMediabootMain_cases sec g b flash bootHeaderAddr rollBack m with
    ⟨hok, hjump, hvalid⟩ | ⟨hfail, -, code, hret, hble⟩
  · rw [hjump, hvalid]
    constructor
    · rintro (⟨-, hv⟩ | ⟨code, hret, -⟩)
      · refine .inr (.inr fun hseg => ?_)
        rw [if_neg (not_not_intro hseg)] at hv
        cases hv
      · cases hret
    · rintro (h | h | h)
      · exact absurd h hok.1
      · exact absurd hok.2.1 h
      · exact .inl ⟨rfl, if_pos h⟩
  · constructor
    · intro _
      by_cases hseg : (headerAt flash (bootHeaderAddr 0)).noSegment = 0
      · by_cases haddr : bootHeaderAddr 0 = 0
        · exact .inl haddr
        · exact .inr (.inl fun hok => hfail ⟨haddr, hok, fun h => absurd hseg h⟩)
      · exact .inr (.inr hseg)
    · intro _
      exact .inr ⟨code, hret, hble⟩

/-- A header of CPU 0 with segments, and with the mark that its CRC is not to be checked. -/
def segmentHeader : List UInt8 :=
  bflbBoot2Cpu0Magic ++ List.replicate 112 0 ++ leBytes 4 0x10000 ++ leBytes 4 1 ++
    List.replicate 48 0 ++ leBytes 4 bflbBoot2DeadbeefVal

/-- For this header the bootloader stops BLE and jumps although no image is valid. -/
theorem jump_invalid :
    (blspMediabootMain ⟨fun _ => [], fun _ _ _ _ _ => false⟩ ⟨⟨fun _ => 0, fun _ => 0, 0, [], []⟩, 0, 0⟩
        ⟨blspBoot2CpFlag, 0x23000000⟩ (write (fun _ => 0xFF) 0x2F000 segmentHeader)
        (fun _ => 0x2F000) 0 ⟨fun _ => BootImgCfg.zero, fun _ => 0, [], true⟩).2 = .preJump ∧
      ((blspMediabootMain ⟨fun _ => [], fun _ _ _ _ _ => false⟩
        ⟨⟨fun _ => 0, fun _ => 0, 0, [], []⟩, 0, 0⟩ ⟨blspBoot2CpFlag, 0x23000000⟩
        (write (fun _ => 0xFF) 0x2F000 segmentHeader) (fun _ => 0x2F000) 0
        ⟨fun _ => BootImgCfg.zero, fun _ => 0, [], true⟩).1.imgCfg 0).imgValid = 0 := by
  decide +kernel

end Boot
