import LegoTrain.Boot.MediaMain
import LegoTrain.Partition.Update
import LegoTrain.Lib.Transition

/-!
# The boot loop

The loop of `main_task` in `main.c`: it reads the partition table and the manufacturing
flag, chooses a firmware, copies it when it stands in the OTA slot, and boots it; after a
failed boot in manufacturing mode it starts again.

One step of the model is one pass of the inner loop, which parses the table, or one boot
attempt.  `BLSP_BOOT2_ROLLBACK` is not defined, `BLSP_BOOT2_SUPPORT_DECOMPRESS` is 0 and
`g_cpu_count` is 1, so what these select is left out.
-/

namespace Boot

open ByteMem Flash Partition Transition

/-! ## The image copy -/

/-- The loop of `blsp_boot2_do_fw_copy`: the device, `g_boot2_read_buf` and success. -/
def fwCopyLoop (d : Device) (readBuf : Mem) (srcAddress destAddress rest : ℕ) :
    Device × Mem × Bool :=
  if h : rest = 0 then (d, readBuf, true)
  else
    have : 0 < min rest bflbBoot2ReadbufSize := Nat.lt_min.2 ⟨Nat.pos_of_ne_zero h, by decide⟩
    match flashWrite d destAddress
      (flashRead d.mem srcAddress (min rest bflbBoot2ReadbufSize)) with
    | (d', .error) =>
      (d', write readBuf 0 (flashRead d.mem srcAddress (min rest bflbBoot2ReadbufSize)), false)
    | (d', .success) =>
      fwCopyLoop d' (write readBuf 0 (flashRead d.mem srcAddress (min rest bflbBoot2ReadbufSize)))
        (u32 (srcAddress + min rest bflbBoot2ReadbufSize))
        (u32 (destAddress + min rest bflbBoot2ReadbufSize)) (rest - min rest bflbBoot2ReadbufSize)
termination_by rest

/-- `blsp_boot2_do_fw_copy`. -/
def blspBoot2DoFwCopy (d : Device) (readBuf : Mem) (ptEntry : PtTableEntry) : Device × Mem × Bool :=
  match flashErase d (ptEntry.startAddress (notIndex ptEntry.activeIndex))
    (ptEntry.maxLen (notIndex ptEntry.activeIndex)) with
  | (d, .error) => (d, readBuf, false)
  | (d, .success) =>
    fwCopyLoop d readBuf (ptEntry.startAddress (ptEntry.activeIndex % 2))
      (ptEntry.startAddress (notIndex ptEntry.activeIndex)) ptEntry.len

/-! ## Choosing the firmware -/

/-- `!active_id`. -/
def notId : PtTableId → PtTableId
  | .id0 => .id1
  | _ => .id0

/-- The lookup of `blsp_boot2_deal_one_fw`: by name when there is one, else by type. -/
def lookupFw (ptStuff : PtTableStuff) (fwName : Option (List UInt8)) (type : ℕ) :
    PtTableError × Option PtTableEntry :=
  match fwName with
  | some name => ptTableGetActiveEntriesByName ptStuff name
  | none => ptTableGetActiveEntriesById ptStuff type

/-- What `blsp_boot2_deal_one_fw` leaves behind: the device, the read buffer, `*pt_entry`, and
its result as it arrives in `pt_parsed`. -/
structure DealResult where
  dev : Device
  readBuf : Mem
  ptEntry : PtTableEntry
  ptParsed : ℕ

/-- The entry of a copied image. -/
def copiedEntry (e : PtTableEntry) : PtTableEntry :=
  (e.setActiveIndex (UInt8.ofNat (notIndex e.activeIndex))).bumpAge

/-- `blsp_boot2_deal_one_fw` once the entry is found.  `BFLB_BOOT2_FAIL` does not fit into
`pt_parsed`, but is not zero there either. -/
def dealEntry (d : Device) (readBuf : Mem) (activeId : PtTableId) (ptStuff : PtTableStuff)
    (e : PtTableEntry) : DealResult :=
  if e.activeIndex ≥ 2 then
    match blspBoot2DoFwCopy d readBuf e with
    | (d, readBuf, false) => ⟨d, readBuf, e, 1⟩
    | (d, readBuf, true) =>
      match ptTableUpdateEntry d (notId activeId) ptStuff (copiedEntry e) with
      | (d, _, .success) => ⟨d, readBuf, copiedEntry e, 0⟩
      | (d, _, _) => ⟨d, readBuf, copiedEntry e, 0xffff % 256⟩
  else ⟨d, readBuf, e, 1⟩

/-- `blsp_boot2_deal_one_fw`: `*pt_entry` stays as it was when no entry is found. -/
def blspBoot2DealOneFw (d : Device) (readBuf : Mem) (activeId : PtTableId)
    (ptStuff : PtTableStuff) (ptEntry : PtTableEntry) (fwName : Option (List UInt8)) (type : ℕ) :
    DealResult :=
  match (lookupFw ptStuff fwName type).2 with
  | none => ⟨d, readBuf, ptEntry, 1⟩
  | some e => dealEntry d readBuf activeId ptStuff e

/-! ## The manufacturing flag -/

/-- `MFG_START_REQUEST_OFFSET`. -/
def mfgStartRequestOffset : ℕ := (4 + 184) * 1024

/-- `"mfg"`. -/
def mfgName : List UInt8 := [0x6D, 0x66, 0x67, 0]

/-- The entry of the manufacturing firmware. -/
def mfgEntry (ptStuff : PtTableStuff) : Option PtTableEntry :=
  (ptTableGetActiveEntriesByName ptStuff mfgName).2

/-- The 16 bytes that are read into `tmp`, when there is a manufacturing entry. -/
def mfgTmp (flash : Mem) (ptStuff : PtTableStuff) : Option (List UInt8) :=
  (mfgEntry ptStuff).map fun e =>
    flashRead flash (u32 (e.startAddress 0 + mfgStartRequestOffset)) 16

/-- The string of a manufacturing flag that is obeyed. -/
def mfgFlag (flash : Mem) (ptStuff : PtTableStuff) : Option (List UInt8) :=
  match mfgTmp flash ptStuff with
  | none => none
  | some tmp =>
    if (tmp.getD 0 0 = 0x30 ∨ tmp.getD 0 0 = 0x31) ∧ strlen tmp < 9 then some (cString tmp)
    else none

/-- `arch_memcpy(user_fw_name, tmp, len)`: what stands behind the string stays. -/
def overlay (userFwName : List UInt8) : Option (List UInt8) → List UInt8
  | none => userFwName
  | some flag => flag ++ userFwName.drop flag.length

/-- `blsp_boot2_get_mfg_startreq`: `*pt_entry` and `user_fw_name`. -/
def blspBoot2GetMfgStartreq (flash : Mem) (ptStuff : PtTableStuff) (ptEntry : PtTableEntry)
    (userFwName : List UInt8) : PtTableEntry × List UInt8 :=
  ((mfgEntry ptStuff).getD ptEntry, overlay userFwName (mfgFlag flash ptStuff))

/-! ## The loop -/

/-- Where the task is. -/
inductive MainPc
  /-- at the start of the inner loop -/
  | parse
  /-- before `blsp_mediaboot_main` -/
  | boot
  /-- in `blsp_mediaboot_pre_jump` -/
  | jumped
  /-- in the UART loader loop at the end -/
  | loaderLoop
  /-- in `blsp_boot2_on_error` -/
  | onError
  deriving DecidableEq, Repr

/-- What the boot loop works on. -/
structure MainState where
  dev : Device
  media : MediaState
  ptEntry : PtTableEntry
  userFwName : List UInt8
  userHashIgnored : ℕ
  mfgModeFlag : ℕ
  pc : MainPc

/-- What does not change while the boot loop runs. -/
structure MainEnv where
  sec : SecEng
  efuseCfg : EfuseHwConfig
  psMode : ℕ
  build : BootBuild

/-- The globals that the parser sees. -/
def MainEnv.globals (env : MainEnv) (s : MainState) : Globals :=
  ⟨env.efuseCfg, env.psMode, s.userHashIgnored⟩

/-- The ID of the active table. -/
def activeId (flash : Mem) : PtTableId := (ptTableGetActivePartitionNeedLock flash).2

/-- `pt_table_stuff[active_id]`. -/
def activeStuff (flash : Mem) : PtTableStuff :=
  match activeId flash with
  | .id1 => (ptTableGetActivePartitionNeedLock flash).1.2
  | _ => (ptTableGetActivePartitionNeedLock flash).1.1

/-- The state with the results of `blsp_boot2_deal_one_fw`. -/
def MainState.store (s : MainState) (r : DealResult) : MainState :=
  { s with dev := r.dev, media := { s.media with readBuf := r.readBuf }, ptEntry := r.ptEntry }

/-- The rest of a pass in which a firmware is asked for by its name. -/
def finishMfg (s : MainState) (r : DealResult) : MainState :=
  if r.ptParsed = 0 then s.store r
  else { s.store r with mfgModeFlag := 1, userFwName := s.userFwName.set 0 0, pc := .boot }

/-- The rest of a pass that takes the firmware of CPU 0. -/
def finishNormal (s : MainState) (r : DealResult) : MainState :=
  if r.ptParsed = 0 then s.store r else { s.store r with pc := .boot }

/-- A pass once the manufacturing flag has been read. -/
def dealRequest (s : MainState) (r : PtTableEntry × List UInt8) : MainState :=
  if r.2.getD 0 0 = 0x30 then
    finishMfg { s with userHashIgnored := 1, userFwName := r.2 }
      (blspBoot2DealOneFw s.dev s.media.readBuf (activeId s.dev.mem) (activeStuff s.dev.mem) r.1
        (some (r.2.drop 1)) ptEntryFwCpu0)
  else
    finishNormal { s with userFwName := r.2 }
      (blspBoot2DealOneFw s.dev s.media.readBuf (activeId s.dev.mem) (activeStuff s.dev.mem) r.1
        none ptEntryFwCpu0)

/-- One pass of the inner loop. -/
def parsePass (s : MainState) : MainState :=
  if activeId s.dev.mem = .invalid then { s with pc := .onError }
  else dealRequest s
    (blspBoot2GetMfgStartreq s.dev.mem (activeStuff s.dev.mem) s.ptEntry s.userFwName)

/-- `boot_header_addr`. -/
def bootHeaderAddr (s : MainState) : ℕ → ℕ := fun i =>
  if i = 0 then s.ptEntry.startAddress s.ptEntry.activeIndex else 0

/-- The call of `blsp_mediaboot_main` and what follows it. -/
def bootPass (env : MainEnv) (s : MainState) : MainState :=
  match blspMediabootMain env.sec (env.globals s) env.build s.dev.mem (bootHeaderAddr s) 0 s.media with
  | (media, .preJump) => { s with media := media, pc := .jumped }
  | (media, .returns _) =>
    if s.mfgModeFlag = 1 then { s with media := media, mfgModeFlag := 0, pc := .parse }
    else { s with media := media, pc := .loaderLoop }

/-- One step of the boot loop; the event says what happens to the flash operations of the
pass. -/
def mainStep (env : MainEnv) (s : MainState) (faults : List Fault) : Option MainState :=
  if s.dev.running then
    match s.pc with
    | .parse => some (parsePass { s with dev := { s.dev with faults := faults } })
    | .boot => some (bootPass env s)
    | _ => none
  else none

/-- A `pt_table_entry_config` of zeros. -/
def zeroEntry : PtTableEntry := ⟨List.replicate ptTableEntryConfigSize 0, List.length_replicate⟩

/-- The state before the boot loop: the register of the user-specified firmware is in the first
four bytes of the name. -/
def MainState.init (flashCfg : SpiFlashCfg) (flash readBuf : Mem) (userFw : ℕ) : MainState where
  dev := ⟨flashCfg, flash, true, []⟩
  media := ⟨fun _ => BootImgCfg.zero, readBuf, [], true⟩
  ptEntry := zeroEntry
  userFwName := leBytes 4 userFw ++ List.replicate 5 0
  userHashIgnored := 0
  mfgModeFlag := 0
  pc := .parse

/-! ## What a step can do -/

/-- The name after the manufacturing flag has been read. -/
def requestName (s : MainState) : List UInt8 :=
  overlay s.userFwName (mfgFlag s.dev.mem (activeStuff s.dev.mem))

/-- `pt_entry[0]` after the manufacturing entry has been looked up. -/
def entryLeft (s : MainState) : PtTableEntry :=
  (mfgEntry (activeStuff s.dev.mem)).getD s.ptEntry

/-- The firmware asked for: by the name behind the `'0'`, or by its type. -/
def dealOf (s : MainState) (fwName : Option (List UInt8)) : DealResult :=
  blspBoot2DealOneFw s.dev s.media.readBuf (activeId s.dev.mem) (activeStuff s.dev.mem)
    (entryLeft s) fwName ptEntryFwCpu0

/-- The next pass finds a request for a manufacturing firmware. -/
def TakesMfg (s : MainState) : Prop :=
  activeId s.dev.mem ≠ .invalid ∧ (requestName s).getD 0 0 = 0x30

theorem getMfgStartreq_eq (s : MainState) :
    blspBoot2GetMfgStartreq s.dev.mem (activeStuff s.dev.mem) s.ptEntry s.userFwName =
      (entryLeft s, requestName s) := rfl

theorem dealRequest_pos {s : MainState} {e : PtTableEntry} {name : List UInt8}
    (h : name.getD 0 0 = 0x30) :
    dealRequest s (e, name) = finishMfg { s with userHashIgnored := 1, userFwName := name }
      (blspBoot2DealOneFw s.dev s.media.readBuf (activeId s.dev.mem) (activeStuff s.dev.mem) e
        (some (name.drop 1)) ptEntryFwCpu0) := by
  rw [dealRequest, if_pos h]

theorem dealRequest_neg {s : MainState} {e : PtTableEntry} {name : List UInt8}
    (h : name.getD 0 0 ≠ 0x30) :
    dealRequest s (e, name) = finishNormal { s with userFwName := name }
      (blspBoot2DealOneFw s.dev s.media.readBuf (activeId s.dev.mem) (activeStuff s.dev.mem) e
        none ptEntryFwCpu0) := by
  rw [dealRequest, if_neg h]

/-- The cases of a pass. -/
theorem parsePass_cases (s : MainState) :
    (activeId s.dev.mem = .invalid ∧ parsePass s = { s with pc := .onError }) ∨
    (TakesMfg s ∧ parsePass s =
      finishMfg { s with userHashIgnored := 1, userFwName := requestName s }
        (dealOf s (some ((requestName s).drop 1)))) ∨
    (activeId s.dev.mem ≠ .invalid ∧ ¬ TakesMfg s ∧ parsePass s =
      finishNormal { s with userFwName := requestName s } (dealOf s none)) := by
  unfold parsePass
  by_cases hid : activeId s.dev.mem = .invalid
  · rw [if_pos hid]
    exact .inl ⟨hid, rfl⟩
  · rw [if_neg hid, getMfgStartreq_eq]
    by_cases hreq : (requestName s).getD 0 0 = 0x30
    · refine .inr (.inl ⟨⟨hid, hreq⟩, ?_⟩)
      rw [dealRequest_pos hreq]
      rfl
    · refine .inr (.inr ⟨hid, fun h => hreq h.2, ?_⟩)
      rw [dealRequest_neg hreq]
      rfl

/-- The cases of a boot attempt. -/
theorem bootPass_cases (env : MainEnv) (s : MainState) :
    (bootPass env s).media = (blspMediabootMain env.sec (env.globals s) env.build s.dev.mem
      (bootHeaderAddr s) 0 s.media).1 ∧
    (bootPass env s).userHashIgnored = s.userHashIgnored ∧ (bootPass env s).dev = s.dev ∧
    (bootPass env s).userFwName = s.userFwName ∧
    (Parsed env.sec (env.globals s) s.dev.mem (bootHeaderAddr s) s.media ∧
        (bootPass env s).pc = .jumped ∨
      ¬ Parsed env.sec (env.globals s) s.dev.mem (bootHeaderAddr s) s.media ∧ s.mfgModeFlag = 1 ∧
        (bootPass env s).pc = .parse ∧ (bootPass env s).mfgModeFlag = 0 ∨
      s.mfgModeFlag ≠ 1 ∧ (bootPass env s).pc = .loaderLoop) := by
  have hcases := blspMediabootMain_cases env.sec (env.globals s) env.build s.dev.mem
    (bootHeaderAddr s) 0 s.media
  unfold bootPass
  split
  · rename_i hmain
    have hok : Parsed env.sec (env.globals s) s.dev.mem (bootHeaderAddr s) s.media := by
      rcases hcases with ⟨hok, -⟩ | ⟨-, -, code, hret, -⟩
      · exact hok
      · rw [hmain] at hret
        cases hret
    rw [hmain]
    exact ⟨rfl, rfl, rfl, rfl, .inl ⟨hok, rfl⟩⟩
  · rename_i hmain
    have hfail : ¬ Parsed env.sec (env.globals s) s.dev.mem (bootHeaderAddr s) s.media := by
      rcases hcases with ⟨-, hjump, -⟩ | ⟨hfail, -⟩
      · rw [hmain] at hjump
        cases hjump
      · exact hfail
    rw [hmain]
    split
    · rename_i hmode
      exact ⟨rfl, rfl, rfl, rfl, .inr (.inl ⟨hfail, hmode, rfl, rfl⟩)⟩
    · rename_i hmode
      exact ⟨rfl, rfl, rfl, rfl, .inr (.inr ⟨hmode, rfl⟩)⟩

/-- The cases of a step. -/
theorem mainStep_cases {env : MainEnv} {s s' : MainState} {faults : List Fault}
    (h : mainStep env s faults = some s') :
    (s.pc = .parse ∧ s' = parsePass { s with dev := { s.dev with faults := faults } }) ∨
      (s.pc = .boot ∧ s' = bootPass env s) := by
  unfold mainStep at h
  split at h
  swap
  · cases h
  split at h
  · rename_i hpc
    exact .inl ⟨hpc, (Option.some.inj h).symm⟩
  · rename_i hpc
    exact .inr ⟨hpc, (Option.some.inj h).symm⟩
  · cases h

theorem finishNormal_userHashIgnored (s : MainState) (r : DealResult) :
    (finishNormal s r).userHashIgnored = s.userHashIgnored := by
  unfold finishNormal
  split <;> rfl

end Boot
