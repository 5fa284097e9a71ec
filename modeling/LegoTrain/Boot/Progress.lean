import LegoTrain.Boot.BootTarget
import LegoTrain.Partition.PowerLoss

/-!
# The boot loop comes to an end

With flash operations that succeed, a pass that copies an image puts a table with a larger
age in force, and any other pass leads to a boot attempt.  So the loop ends, unless the age
cannot be counted up or a failed manufacturing boot finds its request in flash again.

* `dealEntry_copied` : a copying pass puts an older table in force;
* `boot_loop_ends` : the loop ends when neither of the two happens;
* `boot_loop_forever` : a flag for a manufacturing firmware that does not boot.
-/

namespace Boot

open ByteMem Flash Partition PtTableStuff Transition

/-! ## Flash operations that succeed -/

/-- The device carries out whatever it is asked for. -/
def Quiet (d : Device) : Prop := d.running = true ∧ d.faults = []

theorem Quiet.fault {d : Device} (h : Quiet d) : d.fault = .none := by
  rw [Device.fault, h.2]
  rfl

theorem quiet_flashErase {d : Device} {addr len : ℕ} (hd : Quiet d)
    (h : (flashErase d addr len).2 = .success) : Quiet (flashErase d addr len).1 := by
  unfold flashErase eraseFull at h ⊢
  rw [if_pos hd.1, hd.fault] at h ⊢
  dsimp only at h ⊢
  generalize sflashErase d.flashCfg (erasePasses (eraseEndaddr addr len)) d.mem addr
    (eraseEndaddr addr len) = r at h ⊢
  obtain ⟨mem, ended⟩ := r
  cases ended with
  | true => exact ⟨hd.1, congrArg List.tail hd.2⟩
  | false => cases h

theorem quiet_flashWrite {d : Device} (addr : ℕ) (data : List UInt8) (hd : Quiet d) :
    Quiet (flashWrite d addr data).1 ∧ (flashWrite d addr data).2 = .success := by
  unfold flashWrite
  rw [if_pos hd.1, hd.fault]
  exact ⟨⟨hd.1, congrArg List.tail hd.2⟩, rfl⟩

/-- The copy of an image on such a device. -/
theorem quiet_fwCopyLoop {d : Device} {readBuf : Mem} {src dest rest : ℕ} (hd : Quiet d) :
    Quiet (fwCopyLoop d readBuf src dest rest).1 := by
  induction d, readBuf, src, dest, rest using fwCopyLoop.induct with
  | case1 d readBuf src dest =>
    rw [fwCopyLoop, dif_pos rfl]
    exact hd
  | case2 d readBuf src dest rest hrest hpos d' hwrite =>
    have h := (quiet_flashWrite dest (flashRead d.mem src (min rest bflbBoot2ReadbufSize)) hd).2
    rw [hwrite] at h
    cases h
  | case3 d readBuf src dest rest hrest hpos d' hwrite ih =>
    have h := (quiet_flashWrite dest (flashRead d.mem src (min rest bflbBoot2ReadbufSize)) hd).1
    rw [hwrite] at h
    rw [fwCopyLoop, dif_neg hrest, hwrite]
    exact ih h

theorem quiet_doFwCopy {d d' : Device} {readBuf readBuf' : Mem} {e : PtTableEntry} (hd : Quiet d)
    (h : blspBoot2DoFwCopy d readBuf e = (d', readBuf', true)) : Quiet d' := by
  unfold blspBoot2DoFwCopy at h
  split at h
  · cases h
  · rename_i d1 herase
    have hq := quiet_flashErase hd (congrArg Prod.snd herase)
    rw [herase] at hq
    have hcopy : Quiet (fwCopyLoop d1 readBuf (e.startAddress (e.activeIndex % 2))
        (e.startAddress (notIndex e.activeIndex)) e.len).1 := quiet_fwCopyLoop hq
    rw [h] at hcopy
    exact hcopy

/-- A write-back on such a device succeeds. -/
theorem quiet_writeBack {d : Device} (b : Bool) {eraseLen : ℕ} (s : PtTableStuff)
    (err : PtTableError) (hd : Quiet d) (hlen : 0 < eraseLen) (hlen' : eraseLen ≤ sectorSize) :
    Quiet (writeBack d (tableAddress b) eraseLen s err).1 ∧
      (writeBack d (tableAddress b) eraseLen s err).2 = .success := by
  have hend := sectorEnd_of_sector (sectorStart_tableAddress b) hlen hlen'
  have hok := flashErase_ok hd.1 hd.fault hlen (by rw [hend]; exact tableAddress_sector_lt b)
  have hq : Quiet (flashErase d (tableAddress b) eraseLen).1 :=
    quiet_flashErase hd (by rw [hok])
  unfold writeBack
  generalize flashErase d (tableAddress b) eraseLen = r at hok hq
  obtain ⟨d', ret⟩ := r
  obtain rfl : ret = .success := congrArg Prod.snd hok
  obtain ⟨hq', hw⟩ := quiet_flashWrite (tableAddress b) (read s 0 ptTableStuffConfigSize) hq
  dsimp only
  generalize flashWrite d' (tableAddress b) (read s 0 ptTableStuffConfigSize) = r at hq' hw
  obtain ⟨d'', ret⟩ := r
  obtain rfl : ret = .success := hw
  exact ⟨hq', rfl⟩

/-! ## Tables and their ages -/

theorem activeId_of_active {flash : Mem} {b : Bool} (hb : DualCopy.active (ptStore flash) = some b) :
    activeId flash = tableId b ∧ activeStuff flash = ptCopy flash b := by
  have hid : activeId flash = tableId b := by
    unfold activeId
    rw [getActivePartition_of_active hb]
  refine ⟨hid, ?_⟩
  unfold activeStuff
  rw [hid, getActivePartition_of_active hb]
  cases b <;> simp [tableId]

theorem exists_active {flash : Mem} (h : activeId flash ≠ .invalid) :
    ∃ b, DualCopy.active (ptStore flash) = some b := by
  cases hb : DualCopy.active (ptStore flash) with
  | some b => exact ⟨b, rfl⟩
  | none =>
    refine absurd ?_ h
    unfold activeId
    rw [getActivePartition_eq, hb]

theorem tableId_ne_invalid (b : Bool) : tableId b ≠ .invalid := by cases b <;> decide

theorem notId_tableId (b : Bool) : notId (tableId b) = tableId !b := by cases b <;> rfl

/-- An update of the table in force that has room for its entry succeeds, and puts a table with a
larger age in force. -/
theorem update_active {d : Device} {flash : Mem} {b : Bool} {e : PtTableEntry} (hq : Quiet d)
    (hb : DualCopy.active (ptStore flash) = some b) (hage : age (ptCopy flash b) + 1 < 2 ^ 32)
    (hroom : placeEntry (ptCopy flash b) e ≠ none) :
    (ptTableUpdateEntry d (tableId !b) (ptCopy flash b) e).2.2 = .success ∧
      Quiet (ptTableUpdateEntry d (tableId !b) (ptCopy flash b) e).1 ∧
      activeId (ptTableUpdateEntry d (tableId !b) (ptCopy flash b) e).1.mem ≠ .invalid ∧
      age (ptCopy flash b) <
        age (activeStuff (ptTableUpdateEntry d (tableId !b) (ptCopy flash b) e).1.mem) := by
  obtain ⟨x, hx, -⟩ := DualCopy.exists_of_active hb
  obtain ⟨p, hp⟩ := Option.ne_none_iff_exists'.1 hroom
  have hnew : (Request.entry e).newStuff (ptCopy flash b) = some (storeCrcs (bumpAge p)) := by
    rw [newStuff_entry, hp, Option.map_some]
  obtain ⟨hv, hage', -⟩ := newStuff_spec (ptStore_eq_some hx).1 hnew
  rw [ptTableUpdateEntry_eq, hp]
  dsimp only
  generalize storeCrcs (bumpAge p) = s at hv hage' ⊢
  have hcnt := (ptTableValid_spec hv).2
  have hlen : usedLen s ≤ sectorSize := Nat.le_trans (usedLen_le hcnt) (by decide)
  have hpos : 0 < usedLen s := Nat.succ_pos _
  obtain ⟨hq', hok⟩ := quiet_writeBack (!b) s .falshWrite hq hpos hlen
  refine ⟨hok, hq', ?_⟩
  have herr : PtTableError.falshWrite ≠ .success := by decide
  rcases writeBack_spec d (!b) s herr hpos hlen with ⟨-, hne⟩ | ⟨n, hm, hn⟩
  · exact absurd hok hne
  rw [hn hok] at hm
  have hread : read (ptCopy (writeBack d (tableAddress !b) (usedLen s) s .falshWrite).1.mem !b) 0
      (usedLen s) = read s 0 (usedLen s) := by
    rw [hm, read_ptCopy_writeBack (usedLen_le hcnt)]
  obtain ⟨c, y, hc, hy, hle⟩ := DualCopy.exists_active_of_some (ptStore_of_read hv hread)
  obtain ⟨hid, hstuff⟩ := activeId_of_active hc
  rw [hid, hstuff]
  refine ⟨tableId_ne_invalid c, ?_⟩
  rw [(ptStore_eq_some hy).2, hage', u32_of_lt hage] at hle
  exact hle

theorem bumpAge_type (e : PtTableEntry) : e.bumpAge.type = e.type := by
  have hlen : 0 < (e.bytes.take 32).length := by
    rw [List.length_take, e.size]
    decide
  rw [PtTableEntry.bumpAge, PtTableEntry.type, PtTableEntry.type, List.getD_eq_getElem?_getD,
    List.getElem?_append_left hlen, List.getElem?_take_of_lt (by decide),
    List.getD_eq_getElem?_getD]

/-- A table has room for the new form of an entry that it holds. -/
theorem placeEntry_copiedEntry {s : PtTableStuff} {e : PtTableEntry}
    (he : e ∈ (ptTable s).entries) : placeEntry s (copiedEntry e) ≠ none := by
  intro hnone
  have htype : (copiedEntry e).type = e.type := by
    rw [copiedEntry, bumpAge_type, PtTableEntry.setActiveIndex_type]
  have hplace := ptTable_placeEntry (s := s) (e := copiedEntry e)
  rw [hnone, Option.map_none, PtTable.place, htype] at hplace
  split at hplace
  · cases hplace
  · rename_i hidx
    have hne := List.findIdx?_eq_none_iff.1 hidx e he
    simp at hne

/-! ## A pass -/

/-- What `blsp_boot2_deal_one_fw` does with an entry of the active table: it copies the image and
puts a table with a larger age in force, or leaves the flash alone. -/
theorem dealEntry_progress {d : Device} {readBuf : Mem} {b : Bool} {e : PtTableEntry}
    (hq : Quiet d) (hb : DualCopy.active (ptStore d.mem) = some b)
    (he : e ∈ (ptTable (ptCopy d.mem b)).entries)
    (hcopy : 2 ≤ e.activeIndex → (blspBoot2DoFwCopy d readBuf e).2.2 = true)
    (hage : 2 ≤ e.activeIndex → age (ptCopy d.mem b) + 1 < 2 ^ 32) :
    ((dealEntry d readBuf (tableId b) (ptCopy d.mem b) e).ptParsed = 0 ∧
      Quiet (dealEntry d readBuf (tableId b) (ptCopy d.mem b) e).dev ∧
      activeId (dealEntry d readBuf (tableId b) (ptCopy d.mem b) e).dev.mem ≠ .invalid ∧
      age (ptCopy d.mem b) <
        age (activeStuff (dealEntry d readBuf (tableId b) (ptCopy d.mem b) e).dev.mem)) ∨
    ((dealEntry d readBuf (tableId b) (ptCopy d.mem b) e).ptParsed ≠ 0 ∧
      (dealEntry d readBuf (tableId b) (ptCopy d.mem b) e).dev = d) := by
  unfold dealEntry
  by_cases hindex : 2 ≤ e.activeIndex
  swap
  · rw [if_neg hindex]
    exact .inr ⟨Nat.one_ne_zero, rfl⟩
  rw [if_pos hindex]
  have hok := hcopy hindex
  split
  · rename_i hfail
    rw [hfail] at hok
    cases hok
  · rename_i d' readBuf' hdone
    obtain ⟨hsuccess, hnew⟩ := update_active (quiet_doFwCopy hq hdone) hb (hage hindex)
      (placeEntry_copiedEntry he)
    rw [notId_tableId]
    split
    · rename_i hupdate
      rw [hupdate] at hnew
      exact .inl ⟨rfl, hnew⟩
    · rename_i hne hupdate
      rw [hupdate] at hsuccess
      exact absurd hsuccess hne

/-- The name that a pass looks for. -/
def soughtName (s : MainState) : Option (List UInt8) :=
  if (requestName s).getD 0 0 = 0x30 then some ((requestName s).drop 1) else none

/-- The entry that a pass finds. -/
def soughtEntry (s : MainState) : Option PtTableEntry :=
  (lookupFw (activeStuff s.dev.mem) (soughtName s) ptEntryFwCpu0).2

/-- The flash operations of the copy in a pass succeed. -/
def OpsSucceed (s : MainState) : Prop :=
  ∀ e, soughtEntry s = some e → 2 ≤ e.activeIndex →
    (blspBoot2DoFwCopy s.dev s.media.readBuf e).2.2 = true

/-- A pass that copies can count the age of its table up. -/
def AgeLeft (s : MainState) : Prop :=
  ∀ e, soughtEntry s = some e → 2 ≤ e.activeIndex → age (activeStuff s.dev.mem) + 1 < 2 ^ 32

theorem dealOf_progress {s : MainState} (hq : Quiet s.dev) (hid : activeId s.dev.mem ≠ .invalid)
    (hops : OpsSucceed s) (hage : AgeLeft s) :
    ((dealOf s (soughtName s)).ptParsed = 0 ∧ Quiet (dealOf s (soughtName s)).dev ∧
      activeId (dealOf s (soughtName s)).dev.mem ≠ .invalid ∧
      age (activeStuff s.dev.mem) < age (activeStuff (dealOf s (soughtName s)).dev.mem)) ∨
    ((dealOf s (soughtName s)).ptParsed ≠ 0 ∧ (dealOf s (soughtName s)).dev = s.dev) := by
  obtain ⟨b, hb⟩ := exists_active hid
  obtain ⟨htable, hstuff⟩ := activeId_of_active hb
  unfold OpsSucceed soughtEntry at hops
  unfold AgeLeft soughtEntry at hage
  unfold dealOf blspBoot2DealOneFw
  cases hfound : (lookupFw (activeStuff s.dev.mem) (soughtName s) ptEntryFwCpu0).2 with
  | none =>
    dsimp only
    exact .inr ⟨Nat.one_ne_zero, rfl⟩
  | some e =>
    have he : e ∈ (ptTable (ptCopy s.dev.mem b)).entries := by
      rw [lookupFw_eq, hstuff] at hfound
      exact List.mem_of_find?_eq_some hfound
    have hage := hage e hfound
    dsimp only
    rw [hstuff] at hage
    rw [htable, hstuff]
    exact dealEntry_progress hq hb he (hops e hfound) hage

theorem getD_set_zero (name : List UInt8) : (name.set 0 0).getD 0 0 = 0 := by
  cases name <;> rfl

/-- A pass that succeeds copies an image and starts again with an older table, or leads to a
boot attempt. -/
theorem parsePass_progress {s : MainState} (hpc : s.pc = .parse) (hq : Quiet s.dev)
    (hid : activeId s.dev.mem ≠ .invalid) (hops : OpsSucceed s) (hage : AgeLeft s) :
    ((parsePass s).pc = .parse ∧ (parsePass s).mfgModeFlag = s.mfgModeFlag ∧
      Quiet (parsePass s).dev ∧ activeId (parsePass s).dev.mem ≠ .invalid ∧
      age (activeStuff s.dev.mem) < age (activeStuff (parsePass s).dev.mem)) ∨
    ((parsePass s).pc = .boot ∧ (parsePass s).dev = s.dev ∧
      (TakesMfg s ∧ (parsePass s).mfgModeFlag = 1 ∧ (parsePass s).userFwName.getD 0 0 = 0 ∨
        ¬ TakesMfg s ∧ (parsePass s).mfgModeFlag = s.mfgModeFlag)) := by
  have hdeal := dealOf_progress hq hid hops hage
  rcases parsePass_cases s with ⟨hbad, -⟩ | ⟨hmfg, heq⟩ | ⟨-, hmfg, heq⟩
  · exact absurd hbad hid
  · rw [soughtName, if_pos hmfg.2] at hdeal
    rw [heq]
    generalize dealOf s (some ((requestName s).drop 1)) = r at hdeal
    generalize requestName s = name
    unfold finishMfg
    rcases hdeal with ⟨hparsed, hnew⟩ | ⟨hparsed, hdev⟩
    · rw [if_pos hparsed]
      exact .inl ⟨hpc, rfl, hnew⟩
    · rw [if_neg hparsed]
      exact .inr ⟨rfl, hdev, .inl ⟨hmfg, rfl, getD_set_zero name⟩⟩
  · rw [soughtName, if_neg (fun h => hmfg ⟨hid, h⟩)] at hdeal
    rw [heq]
    generalize dealOf s none = r at hdeal
    unfold finishNormal
    rcases hdeal with ⟨hparsed, hnew⟩ | ⟨hparsed, hdev⟩
    · rw [if_pos hparsed]
      exact .inl ⟨hpc, rfl, hnew⟩
    · rw [if_neg hparsed]
      exact .inr ⟨rfl, hdev, .inr ⟨hmfg, rfl⟩⟩

/-! ## The measure -/

instance (s : MainState) : Decidable (TakesMfg s) := inferInstanceAs (Decidable (_ ∧ _))

/-- How far a pass is from the end, as long as no image is copied. -/
def stage (s : MainState) : ℕ :=
  match s.pc with
  | .parse => if TakesMfg s then 3 else 1
  | .boot => if s.mfgModeFlag = 1 then 2 else 0
  | _ => 0

/-- What every step that does not end the loop decreases. -/
@[irreducible] def progress (s : MainState) : ℕ :=
  4 * (2 ^ 32 - age (activeStuff s.dev.mem)) + stage s

theorem stage_le (s : MainState) : stage s ≤ 3 := by
  unfold stage
  split
  · split <;> decide
  · split <;> decide
  · decide

/-- What holds between the steps of the loop, its table being valid and its flash at work. -/
structure LoopInv (s : MainState) : Prop where
  quiet : Quiet s.dev
  valid : activeId s.dev.mem ≠ .invalid
  place : s.pc = .parse ∧ s.mfgModeFlag = 0 ∨
    s.pc = .boot ∧ (s.mfgModeFlag = 1 → s.userFwName.getD 0 0 = 0)

/-- A step does not repeat what has been done: a copy counts the age up, and a manufacturing
boot fails only when its request is no longer in flash. -/
structure NoRepeat (env : MainEnv) (s : MainState) : Prop where
  age : s.pc = .parse → AgeLeft s
  request : s.pc = .boot → s.mfgModeFlag = 1 →
    ¬ Parsed env.sec (env.globals s) s.dev.mem (bootHeaderAddr s) s.media →
    ∀ flag, mfgFlag s.dev.mem (activeStuff s.dev.mem) = some flag → flag.getD 0 0 ≠ 0x30

/-- The loop is at its end. -/
def Ended (s : MainState) : Prop := s.pc = .jumped ∨ s.pc = .loaderLoop

/-- A failed manufacturing boot whose request is no longer in flash is not repeated. -/
theorem not_takesMfg {s : MainState} (hname : s.userFwName.getD 0 0 = 0)
    (hflag : ∀ flag, mfgFlag s.dev.mem (activeStuff s.dev.mem) = some flag →
      flag.getD 0 0 ≠ 0x30) : ¬ TakesMfg s := by
  rintro ⟨-, hreq⟩
  unfold requestName at hreq
  cases h : mfgFlag s.dev.mem (activeStuff s.dev.mem) with
  | none =>
    rw [h, overlay, hname] at hreq
    exact absurd hreq (by decide)
  | some flag =>
    obtain ⟨b, rest, rfl, -⟩ := mfgFlag_eq_some h
    rw [h] at hreq
    exact hflag _ h hreq

theorem mainStep_parse {env : MainEnv} {s : MainState} (hrun : s.dev.running = true)
    (hpc : s.pc = .parse) (faults : List Fault) :
    mainStep env s faults = some (parsePass (s.withFaults faults)) := by
  unfold mainStep
  rw [if_pos hrun]
  split
  · rfl
  · rename_i h
    cases hpc.symm.trans h
  · rename_i h _
    exact absurd hpc h

theorem mainStep_boot {env : MainEnv} {s : MainState} (hrun : s.dev.running = true)
    (hpc : s.pc = .boot) (faults : List Fault) :
    mainStep env s faults = some (bootPass env s) := by
  unfold mainStep
  rw [if_pos hrun]
  split
  · rename_i h
    cases hpc.symm.trans h
  · rfl
  · rename_i h
    exact absurd hpc h

theorem withFaults_self {s : MainState} (h : s.dev.faults = []) : s.withFaults [] = s := by
  obtain ⟨⟨flashCfg, mem, running, faults⟩, media, ptEntry, name, ignored, mode, pc⟩ := s
  obtain rfl : faults = [] := h
  rfl

/-- A step that repeats nothing ends the loop or decreases the measure. -/
theorem mainStep_progress {env : MainEnv} {s : MainState} (hinv : LoopInv s)
    (hops : s.pc = .parse → OpsSucceed s) (hstep : NoRepeat env s) :
    ∃ s', mainStep env s [] = some s' ∧
      (Ended s' ∨ LoopInv s' ∧ progress s' < progress s) := by
  have hage : age (activeStuff s.dev.mem) < 2 ^ 32 := le_lt _ _ _
  rcases hinv.place with ⟨hpc, hmode⟩ | ⟨hpc, hname⟩
  · have heq : mainStep env s [] = some (parsePass s) := by
      rw [mainStep_parse hinv.quiet.1 hpc, withFaults_self hinv.quiet.2]
    refine ⟨parsePass s, heq, .inr ?_⟩
    rcases parsePass_progress hpc hinv.quiet hinv.valid (hops hpc) (hstep.age hpc) with
      ⟨hpc', hmode', hq, hvalid, hlt⟩ | ⟨hpc', hdev, hmfg⟩
    · refine ⟨⟨hq, hvalid, .inl ⟨hpc', hmode'.trans hmode⟩⟩, ?_⟩
      have hle := stage_le (parsePass s)
      have hage' : age (activeStuff (parsePass s).dev.mem) < 2 ^ 32 := le_lt _ _ _
      unfold progress
      omega
    · have hq : Quiet (parsePass s).dev := by rw [hdev]; exact hinv.quiet
      have hvalid : activeId (parsePass s).dev.mem ≠ .invalid := by rw [hdev]; exact hinv.valid
      refine ⟨⟨hq, hvalid, .inr ⟨hpc', fun hone => ?_⟩⟩, ?_⟩
      · rcases hmfg with ⟨-, -, hzero⟩ | ⟨-, hmode'⟩
        · exact hzero
        · rw [hmode', hmode] at hone
          exact absurd hone (by decide)
      · unfold progress stage
        rw [hdev, hpc', hpc]
        dsimp only
        rcases hmfg with ⟨htakes, hone, -⟩ | ⟨htakes, hmode'⟩
        · rw [if_pos hone, if_pos htakes]
          exact Nat.lt_succ_self _
        · rw [hmode', hmode, if_neg (by decide), if_neg htakes]
          exact Nat.lt_succ_self _
  · have heq : mainStep env s [] = some (bootPass env s) := mainStep_boot hinv.quiet.1 hpc []
    refine ⟨bootPass env s, heq, ?_⟩
    obtain ⟨-, -, hdev, hname', hend⟩ := bootPass_cases env s
    rcases hend with ⟨-, h⟩ | ⟨hfail, hmode, hpc', hmode'⟩ | ⟨-, h⟩
    · exact .inl (.inl h)
    · have htakes : ¬ TakesMfg (bootPass env s) := by
        refine not_takesMfg (by rw [hname', hname hmode]) ?_
        rw [hdev]
        exact hstep.request hpc hmode hfail
      have hq : Quiet (bootPass env s).dev := by rw [hdev]; exact hinv.quiet
      have hvalid : activeId (bootPass env s).dev.mem ≠ .invalid := by rw [hdev]; exact hinv.valid
      refine .inr ⟨⟨hq, hvalid, .inl ⟨hpc', hmode'⟩⟩, ?_⟩
      unfold progress stage
      rw [hdev, hpc', hpc]
      dsimp only
      rw [if_pos hmode, if_neg htakes]
      exact Nat.lt_succ_self _
    · exact .inl (.inr h)

/-- **The loop ends.**  From every flash with a valid table, with flash operations that succeed,
the boot loop jumps to an image or comes to the loader loop, when no copying pass starts at
the last age and no failed manufacturing boot finds its request in flash again. -/
theorem boot_loop_ends {env : MainEnv} {flashCfg : SpiFlashCfg} {flash readBuf : Mem} {userFw : ℕ}
    (hvalid : activeId flash ≠ .invalid)
    (hops : ∀ n, Along (mainStep env) (fun s _ => s.pc = .parse → OpsSucceed s)
      (MainState.init flashCfg flash readBuf userFw) (List.replicate n []))
    (hsteps : ∀ n, Along (mainStep env) (fun s _ => NoRepeat env s)
      (MainState.init flashCfg flash readBuf userFw) (List.replicate n [])) :
    ∃ n t, run (mainStep env) (MainState.init flashCfg flash readBuf userFw)
      (List.replicate n []) = some t ∧ Ended t := by
  have hinit : LoopInv (MainState.init flashCfg flash readBuf userFw) :=
    ⟨⟨rfl, rfl⟩, hvalid, .inl ⟨rfl, rfl⟩⟩
  refine exists_end_of_measure (G := fun s _ => (s.pc = .parse → OpsSucceed s) ∧ NoRepeat env s)
    (μ := progress) ?_ hinit fun n => (hops n).and (hsteps n)
  intro s hinv _ hG
  exact mainStep_progress hinv hG.1 hG.2

/-! ## A request that stays -/

/-- A flash with a manufacturing entry, no image in its slot, and a flag that asks for a firmware
without a name. -/
def requestFlash : Mem := write (tableFlash mfgTable) 0x1F2000 [0x30, 0]

/-- The states of a loop over this flash. -/
structure Repeats (s : MainState) : Prop where
  dev : s.dev = ⟨⟨true, true⟩, requestFlash, true, []⟩
  name : s.userFwName.drop 1 = List.replicate 8 0
  place : s.pc = .parse ∨
    s.pc = .boot ∧ s.mfgModeFlag = 1 ∧ bootHeaderAddr s 0 = 0x1C3000

set_option maxRecDepth 100000 in
theorem mfgFlag_requestFlash : mfgFlag requestFlash (activeStuff requestFlash) = some [0x30] := by
  decide +kernel

set_option maxRecDepth 100000 in
theorem activeId_requestFlash : activeId requestFlash = .id0 := by
  decide +kernel

set_option maxRecDepth 100000 in
theorem lookupFw_requestFlash :
    (lookupFw (activeStuff requestFlash) (some (List.replicate 8 0)) ptEntryFwCpu0).2 = none := by
  decide +kernel

set_option maxRecDepth 100000 in
theorem mfgEntry_requestFlash :
    (mfgEntry (activeStuff requestFlash)).map (fun e => e.startAddress e.activeIndex) =
      some 0x1C3000 := by
  decide +kernel

set_option maxRecDepth 100000 in
theorem magicCode_requestFlash :
    ¬ ((headerAt requestFlash 0x1C3000).magicCode = bflbBoot2Cpu0Magic ∨
      (headerAt requestFlash 0x1C3000).magicCode = bflbBoot2Cpu1Magic) := by
  decide +kernel

/-- The loop goes round. -/
theorem repeats_mainStep {s : MainState} (hs : Repeats s) :
    ∃ s', mainStep plainEnv s [] = some s' ∧ Repeats s' := by
  have hrun : s.dev.running = true := by rw [hs.dev]
  have hmem : s.dev.mem = requestFlash := by rw [hs.dev]
  rcases hs.place with hpc | ⟨hpc, hmode, haddr⟩
  · refine ⟨parsePass s, ?_, ?_⟩
    · rw [mainStep_parse hrun hpc, withFaults_self (by rw [hs.dev])]
    have hname : requestName s = 0x30 :: List.replicate 8 0 := by
      rw [requestName, hmem, mfgFlag_requestFlash, overlay, List.length_singleton, hs.name]
      rfl
    rcases parsePass_cases s with ⟨hbad, -⟩ | ⟨-, heq⟩ | ⟨hid, hno, -⟩
    · rw [hmem, activeId_requestFlash] at hbad
      cases hbad
    · obtain ⟨e, he, haddr⟩ := Option.map_eq_some_iff.1 mfgEntry_requestFlash
      have hdeal : dealOf s (some ((requestName s).drop 1)) =
          ⟨s.dev, s.media.readBuf, e, 1⟩ := by
        unfold dealOf blspBoot2DealOneFw entryLeft
        rw [hname, hmem, List.drop_one, List.tail_cons, lookupFw_requestFlash, he]
        rfl
      rw [heq, hdeal, hname, finishMfg, if_neg Nat.one_ne_zero]
      exact ⟨hs.dev, rfl, .inr ⟨rfl, rfl, haddr⟩⟩
    · refine absurd ⟨hid, ?_⟩ hno
      rw [hname]
      rfl
  · obtain ⟨-, -, hdev, hname, hend⟩ := bootPass_cases plainEnv s
    refine ⟨bootPass plainEnv s, mainStep_boot hrun hpc [], ?_⟩
    rcases hend with ⟨hok, -⟩ | ⟨-, -, hpc', -⟩ | ⟨hne, -⟩
    · have hmagic := hok.2.1.header.magic
      rw [hmem, haddr] at hmagic
      exact absurd hmagic magicCode_requestFlash
    · exact ⟨hdev.trans hs.dev, by rw [hname, hs.name], .inl hpc'⟩
    · exact absurd hmode hne

/-- A manufacturing firmware that is asked for in flash and does not boot keeps the loop going
forever. -/
theorem boot_loop_forever :
    activeId requestFlash ≠ .invalid ∧
      ∀ n, ∃ t, run (mainStep plainEnv)
        (MainState.init ⟨true, true⟩ requestFlash (fun _ => 0) 0) (List.replicate n []) = some t ∧
        ¬ Ended t := by
  have hinit : Repeats (MainState.init ⟨true, true⟩ requestFlash (fun _ => 0) 0) :=
    ⟨rfl, rfl, .inl rfl⟩
  refine ⟨by rw [activeId_requestFlash]; decide, fun n => ?_⟩
  obtain ⟨t, ht, hrep⟩ := run_replicate_of_inv (fun s => repeats_mainStep) hinit n
  refine ⟨t, ht, ?_⟩
  rcases hrep.place with hpc | ⟨hpc, -⟩
  · rintro (h | h) <;> cases hpc.symm.trans h
  · rintro (h | h) <;> cases hpc.symm.trans h

/-- The theorem for a device that boots at once. -/
theorem boot_loop_ends_oneByte :
    ∃ n t, run (mainStep plainEnv) (MainState.init ⟨true, true⟩ (plainFlash zeroImgHash)
      (fun _ => 0) 0) (List.replicate n []) = some t ∧ Ended t := by
  have hentry : (soughtEntry (MainState.init ⟨true, true⟩ (plainFlash zeroImgHash)
      (fun _ => 0) 0)).map PtTableEntry.activeIndex = some 0 := by
    decide +kernel
  have hrun : ((mainStep plainEnv (MainState.init ⟨true, true⟩ (plainFlash zeroImgHash)
      (fun _ => 0) 0) []).all fun s => decide (s.pc = .boot ∧ s.mfgModeFlag = 0) &&
        (mainStep plainEnv s []).all fun t => decide (t.pc = .jumped)) = true := by
    decide +kernel
  have hindex : ∀ e, soughtEntry (MainState.init ⟨true, true⟩ (plainFlash zeroImgHash)
      (fun _ => 0) 0) = some e → ¬ 2 ≤ e.activeIndex := by
    intro e he
    rw [he] at hentry
    rw [Option.some.inj hentry]
    decide
  have hstep : ∀ s, mainStep plainEnv (MainState.init ⟨true, true⟩ (plainFlash zeroImgHash)
      (fun _ => 0) 0) [] = some s → (s.pc = .boot ∧ s.mfgModeFlag = 0) ∧
        ∀ t, mainStep plainEnv s [] = some t → t.pc = .jumped := by
    intro s hs
    rw [hs, Option.all_some, Bool.and_eq_true] at hrun
    refine ⟨of_decide_eq_true hrun.1, fun t ht => ?_⟩
    have h := hrun.2
    rw [ht] at h
    exact of_decide_eq_true h
  have hend : ∀ t : MainState, t.pc = .jumped → mainStep plainEnv t [] = none := by
    intro t ht
    unfold mainStep
    rw [ht]
    exact ite_self _
  refine boot_loop_ends (by decide +kernel) (fun n => ?_) (fun n => ?_)
  · refine along_replicate_two ?_ ?_ n
    · exact fun _ e he hi => absurd hi (hindex e he)
    intro s hs
    obtain ⟨⟨hpc, -⟩, hnext⟩ := hstep s hs
    refine ⟨fun h => (by cases hpc.symm.trans h), fun t ht => ?_⟩
    exact ⟨fun h => (by cases (hnext t ht).symm.trans h), hend t (hnext t ht)⟩
  · refine along_replicate_two ?_ ?_ n
    · exact ⟨fun _ e he hi => absurd hi (hindex e he), nofun⟩
    intro s hs
    obtain ⟨⟨hpc, hmode⟩, hnext⟩ := hstep s hs
    refine ⟨⟨fun h => (by cases hpc.symm.trans h), fun _ h => ?_⟩, fun t ht => ?_⟩
    · rw [hmode] at h
      exact absurd h (by decide)
    · have hpc' := hnext t ht
      exact ⟨⟨fun h => (by cases hpc'.symm.trans h), fun h => (by cases hpc'.symm.trans h)⟩,
        hend t hpc'⟩

end Boot
