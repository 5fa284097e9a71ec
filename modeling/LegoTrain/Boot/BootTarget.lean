import LegoTrain.Boot.HashCheck

/-!
# The boot target

Which entry a pass of the boot loop is asked for, and which address it boots.  The two agree
unless one of three things happens: the manufacturing flag is put in front of the rest of a
longer name, `pt_entry[0]` still holds an entry that nobody asked for, or the copy of an
image fails and `active_index` is not normalised.

* `lookupFw_eq` : the lookups of the source find the first entry that fits;
* `boot_target` : in every run whose passes keep clear of the three, every boot is a boot of the
  entry asked for;
* `boot_target_leftover` : the manufacturing entry is booted in place of a firmware that is
  not there.
-/

namespace Boot

open ByteMem Flash Partition PtTableStuff Transition

/-! ## What is asked for -/

/-- The name that a pass is asked for: the one behind the `'0'` of an obeyed flag in flash, else
the one in the register; none in a normal boot. -/
def requestedName (flash : Mem) (userFwName : List UInt8) : Option (List UInt8) :=
  match mfgFlag flash (activeStuff flash) with
  | some flag => if flag.getD 0 0 = 0x30 then some (flag.drop 1) else none
  | none => if userFwName.getD 0 0 = 0x30 then some (cString (userFwName.drop 1)) else none

/-- The entry has the name, or is the firmware of CPU 0 when there is no name. -/
def fitsRequest (name : Option (List UInt8)) (e : PtTableEntry) : Bool :=
  match name with
  | some name => cString e.nameBytes = name
  | none => e.type = ptEntryFwCpu0

/-- The entry of the active table that a pass is asked for. -/
def requestedEntry (flash : Mem) (userFwName : List UInt8) : Option PtTableEntry :=
  (selectedTable flash).bind fun t => t.entries.find? (fitsRequest (requestedName flash userFwName))

/-- The address belongs to the entry asked for, and is 0 when there is none.  Irreducible, so that
no tactic searches a table when it looks at a goal. -/
@[irreducible] def BootTarget (flash : Mem) (userFwName : List UInt8) (addr : ℕ) :
    Prop :=
  match requestedEntry flash userFwName with
  | some e => addr = e.startAddress 0 ∨ addr = e.startAddress 1
  | none => addr = 0

/-! ## Strings -/

theorem mem_cString {bs : List UInt8} {b : UInt8} (h : b ∈ cString bs) : b ≠ 0 := by
  have hb := List.all_eq_true.1 (List.all_takeWhile (p := fun b => decide (b ≠ 0)) (l := bs)) b h
  exact of_decide_eq_true hb

theorem cString_cons {b : UInt8} (bs : List UInt8) (h : b ≠ 0) :
    cString (b :: bs) = b :: cString bs :=
  List.takeWhile_cons_of_pos (decide_eq_true h)

theorem cString_eq_nil {bs : List UInt8} (h : bs.getD 0 0 = 0) : cString bs = [] := by
  cases bs with
  | nil => rfl
  | cons b bs =>
    have hb : b = 0 := h
    rw [cString, hb]
    rfl

theorem cString_append {xs ys : List UInt8} (hxs : ∀ b ∈ xs, b ≠ 0) (hys : ys.getD 0 0 = 0) :
    cString (xs ++ ys) = xs := by
  have htake : cString (xs ++ ys) = xs ++ cString ys :=
    List.takeWhile_append_of_pos fun b hb => decide_eq_true (hxs b hb)
  rw [htake, cString_eq_nil hys, List.append_nil]

theorem take_strlen (bs : List UInt8) : bs.take (strlen bs) = cString bs :=
  (List.prefix_iff_eq_take.1 (List.takeWhile_prefix _)).symm

/-- `strlen` and `memcmp` together compare strings. -/
theorem nameMatches_iff (e : PtTableEntry) (name : List UInt8) :
    nameMatches e name = true ↔ cString e.nameBytes = cString name := by
  rw [nameMatches, decide_eq_true_iff, take_strlen]
  constructor
  · rintro ⟨hlen, hcmp⟩
    rw [← hlen, take_strlen] at hcmp
    exact hcmp
  · intro h
    have hlen : strlen e.nameBytes = strlen name := congrArg List.length h
    refine ⟨hlen, ?_⟩
    rw [← hlen, take_strlen, h]

/-! ## The lookups -/

theorem getActiveEntriesByName_eq (s : PtTableStuff) (name : List UInt8) :
    (ptTableGetActiveEntriesByName s name).2 =
      (ptTable s).entries.find? (fitsRequest (some (cString name))) := by
  have hfit : (fun i => nameMatches (ptEntry s i) name) =
      fitsRequest (some (cString name)) ∘ ptEntry s := by
    funext i
    rw [Bool.eq_iff_iff, nameMatches_iff]
    exact decide_eq_true_iff.symm
  unfold ptTableGetActiveEntriesByName findEntryByName ptTable
  rw [List.find?_map, hfit]
  cases (List.range (entryCnt s)).find? (fitsRequest (some (cString name)) ∘ ptEntry s) with
  | none => rfl
  | some i => rfl

/-- The lookup by name or type finds the first entry that fits. -/
theorem lookupFw_eq (s : PtTableStuff) (fwName : Option (List UInt8)) :
    (lookupFw s fwName ptEntryFwCpu0).2 =
      (ptTable s).entries.find? (fitsRequest (fwName.map cString)) := by
  cases fwName with
  | some name => exact getActiveEntriesByName_eq s name
  | none =>
    show (ptTableGetActiveEntriesById s ptEntryFwCpu0).2 = (ptTable s).lookup ptEntryFwCpu0
    rw [getActiveEntriesById_eq]
    cases (ptTable s).lookup ptEntryFwCpu0 with
    | none => rfl
    | some e => rfl

/-- The active table is the one in force. -/
theorem selectedTable_activeStuff {flash : Mem} (h : activeId flash ≠ .invalid) :
    selectedTable flash = some (ptTable (activeStuff flash)) := by
  unfold selectedTable activeStuff
  unfold activeId at h ⊢
  generalize ptTableGetActivePartitionNeedLock flash = r at h ⊢
  obtain ⟨ptStuff, activePtID⟩ := r
  cases activePtID with
  | id0 => rfl
  | id1 => rfl
  | invalid => exact absurd rfl h

/-! ## A pass -/

/-- What a pass needs for its target. -/
structure TargetStep (s : MainState) : Prop where
  /-- An obeyed flag ends where the rest of the name in the buffer ends. -/
  terminated : ∀ flag, mfgFlag s.dev.mem (activeStuff s.dev.mem) = some flag →
    flag.getD 0 0 = 0x30 → s.userFwName.getD flag.length 0 = 0
  /-- Without an entry to boot, the entry left in `pt_entry[0]` has no address. -/
  leftover : requestedEntry s.dev.mem s.userFwName = none → (entryLeft s).startAddress (entryLeft s).activeIndex = 0
  /-- A copy that the entry asks for succeeds. -/
  copied : ∀ e, requestedEntry s.dev.mem s.userFwName = some e → 2 ≤ e.activeIndex →
    (blspBoot2DoFwCopy s.dev s.media.readBuf e).2.2 = true

/-- A flag that is obeyed begins with its digit, and has no zeros. -/
theorem mfgFlag_eq_some {flash : Mem} {ptStuff : PtTableStuff} {flag : List UInt8}
    (h : mfgFlag flash ptStuff = some flag) :
    ∃ b rest, flag = b :: rest ∧ ∀ c ∈ flag, c ≠ 0 := by
  unfold mfgFlag at h
  split at h
  · cases h
  rename_i tmp htmp
  split at h
  swap
  · cases h
  rename_i hobeyed
  have hflag : cString tmp = flag := Option.some.inj h
  cases tmp with
  | nil => exact absurd hobeyed.1 (by decide)
  | cons b tmp =>
    have hb : b ≠ 0 := by
      rcases hobeyed.1 with hb | hb
      · exact fun h0 => absurd (h0.symm.trans hb) (by decide)
      · exact fun h0 => absurd (h0.symm.trans hb) (by decide)
    refine ⟨b, cString tmp, ?_, fun c hc => mem_cString (hflag ▸ hc)⟩
    rw [← hflag, cString_cons tmp hb]

/-- What the buffer asks for is what is asked for. -/
theorem requestedName_eq {s : MainState} (h : TargetStep s) :
    requestedName s.dev.mem s.userFwName = if (requestName s).getD 0 0 = 0x30
      then some (cString ((requestName s).drop 1)) else none := by
  unfold requestedName requestName
  cases hflag : mfgFlag s.dev.mem (activeStuff s.dev.mem) with
  | none => rfl
  | some flag =>
    obtain ⟨b, rest, rfl, hzero⟩ := mfgFlag_eq_some hflag
    show (if b = 0x30 then some rest else none) = if b = 0x30
      then some (cString (rest ++ s.userFwName.drop (b :: rest).length)) else none
    by_cases hb : b = 0x30
    · have hend : (s.userFwName.drop (b :: rest).length).getD 0 0 = 0 := by
        have hterm := h.terminated _ hflag hb
        simpa [List.getD_eq_getElem?_getD] using hterm
      rw [if_pos hb, if_pos hb,
        cString_append (fun c hc => hzero c (List.mem_cons_of_mem _ hc)) hend]
    · rw [if_neg hb, if_neg hb]

/-- The lookup of a pass finds the entry that is asked for. -/
theorem lookupFw_requested {s : MainState} (hid : activeId s.dev.mem ≠ .invalid)
    {fwName : Option (List UInt8)} (hname : requestedName s.dev.mem s.userFwName = fwName.map cString) :
    (lookupFw (activeStuff s.dev.mem) fwName ptEntryFwCpu0).2 = requestedEntry s.dev.mem s.userFwName := by
  rw [lookupFw_eq, requestedEntry, selectedTable_activeStuff hid, hname, Option.bind_some]

theorem bumpAge_startAddress (e : PtTableEntry) {i : ℕ} (h : i ≤ 1) :
    e.bumpAge.startAddress i = e.startAddress i := by
  have hlen := e.size
  unfold ptTableEntryConfigSize at hlen
  have hmin : min 4 (32 - (12 + 4 * i)) = 4 := by omega
  rw [PtTableEntry.bumpAge, PtTableEntry.startAddress, PtTableEntry.startAddress,
    List.drop_append_of_le_length (by rw [List.length_take]; omega),
    List.take_append_of_le_length (by rw [List.length_drop, List.length_take]; omega),
    List.drop_take, List.take_take, hmin]

theorem bumpAge_activeIndex (e : PtTableEntry) : e.bumpAge.activeIndex = e.activeIndex := by
  have hlen : 2 < (e.bytes.take 32).length := by
    rw [List.length_take, e.size]
    decide
  rw [PtTableEntry.bumpAge, PtTableEntry.activeIndex, PtTableEntry.activeIndex,
    List.getD_eq_getElem?_getD, List.getElem?_append_left hlen, List.getElem?_take_of_lt (by decide),
    List.getD_eq_getElem?_getD]

/-- The entry of a copied image has the same addresses. -/
theorem copiedEntry_startAddress (e : PtTableEntry) {i : ℕ} (h : i ≤ 1) :
    (copiedEntry e).startAddress i = e.startAddress i := by
  rw [copiedEntry, bumpAge_startAddress _ h, PtTableEntry.setActiveIndex_startAddress]

theorem copiedEntry_activeIndex (e : PtTableEntry) :
    (copiedEntry e).activeIndex = notIndex e.activeIndex := by
  rw [copiedEntry, bumpAge_activeIndex]
  exact toggle_activeIndex e

/-- The address of an entry with a normal `active_index` is one of its two. -/
theorem startAddress_of_lt (e : PtTableEntry) {i : ℕ} (h : i < 2) :
    e.startAddress i = e.startAddress 0 ∨ e.startAddress i = e.startAddress 1 := by
  rcases Nat.le_one_iff_eq_zero_or_eq_one.1 (Nat.le_of_lt_succ h) with rfl | rfl
  · exact .inl rfl
  · exact .inr rfl

/-- An entry that is found is left with one of its addresses, once its copy has succeeded. -/
theorem dealEntry_address {d : Device} {readBuf : Mem} {id : PtTableId} {ptStuff : PtTableStuff}
    {e : PtTableEntry} (hcopy : 2 ≤ e.activeIndex → (blspBoot2DoFwCopy d readBuf e).2.2 = true) :
    (dealEntry d readBuf id ptStuff e).ptEntry.startAddress
        (dealEntry d readBuf id ptStuff e).ptEntry.activeIndex = e.startAddress 0 ∨
      (dealEntry d readBuf id ptStuff e).ptEntry.startAddress
        (dealEntry d readBuf id ptStuff e).ptEntry.activeIndex = e.startAddress 1 := by
  have hcopied : (copiedEntry e).startAddress (copiedEntry e).activeIndex = e.startAddress 0 ∨
      (copiedEntry e).startAddress (copiedEntry e).activeIndex = e.startAddress 1 := by
    have hlt := notIndex_lt e.activeIndex
    rw [copiedEntry_activeIndex, copiedEntry_startAddress e (Nat.le_of_lt_succ hlt)]
    exact startAddress_of_lt e hlt
  unfold dealEntry
  by_cases hindex : 2 ≤ e.activeIndex
  · rw [if_pos hindex]
    have hok := hcopy hindex
    split
    · rename_i hfail
      rw [hfail] at hok
      cases hok
    · split
      · exact hcopied
      · exact hcopied
  · rw [if_neg hindex]
    exact startAddress_of_lt e (Nat.lt_of_not_le hindex)

/-- What `blsp_boot2_deal_one_fw` leaves in `pt_entry[0]` has the address of the entry asked
for. -/
theorem dealOf_target {s : MainState} (hid : activeId s.dev.mem ≠ .invalid) (hs : TargetStep s)
    {fwName : Option (List UInt8)} (hname : requestedName s.dev.mem s.userFwName = fwName.map cString) :
    BootTarget s.dev.mem s.userFwName ((dealOf s fwName).ptEntry.startAddress (dealOf s fwName).ptEntry.activeIndex) := by
  have hfound := lookupFw_requested hid hname
  unfold BootTarget dealOf blspBoot2DealOneFw
  rw [hfound]
  cases hentry : requestedEntry s.dev.mem s.userFwName with
  | none =>
    dsimp only
    exact hs.leftover hentry
  | some e =>
    dsimp only
    exact dealEntry_address (hs.copied e hentry)

theorem finishMfg_boot {s : MainState} {r : DealResult} (h : (finishMfg s r).pc = .boot)
    (hpc : s.pc = .parse) :
    bootHeaderAddr (finishMfg s r) 0 = r.ptEntry.startAddress r.ptEntry.activeIndex := by
  unfold finishMfg at h ⊢
  split at h
  · rw [show (s.store r).pc = s.pc from rfl, hpc] at h
    cases h
  · rename_i hparsed
    rw [if_neg hparsed]
    rfl

theorem finishNormal_boot {s : MainState} {r : DealResult} (h : (finishNormal s r).pc = .boot)
    (hpc : s.pc = .parse) :
    bootHeaderAddr (finishNormal s r) 0 = r.ptEntry.startAddress r.ptEntry.activeIndex := by
  unfold finishNormal at h ⊢
  split at h
  · rw [show (s.store r).pc = s.pc from rfl, hpc] at h
    cases h
  · rename_i hparsed
    rw [if_neg hparsed]
    rfl

/-- A pass that ends in a boot has found its target. -/
theorem parsePass_target {s : MainState} (hpc : s.pc = .parse)
    (hs : activeId s.dev.mem ≠ .invalid → TargetStep s) (hboot : (parsePass s).pc = .boot) :
    BootTarget s.dev.mem s.userFwName (bootHeaderAddr (parsePass s) 0) := by
  rcases parsePass_cases s with ⟨-, heq⟩ | ⟨hmfg, heq⟩ | ⟨hid, hmfg, heq⟩
  · rw [heq] at hboot
    cases hboot
  · rw [heq] at hboot ⊢
    have hname := requestedName_eq (hs hmfg.1)
    rw [if_pos hmfg.2] at hname
    rw [finishMfg_boot hboot hpc]
    exact dealOf_target hmfg.1 (hs hmfg.1) hname
  · rw [heq] at hboot ⊢
    have hname := requestedName_eq (hs hid)
    rw [if_neg (fun h => hmfg ⟨hid, h⟩)] at hname
    rw [finishNormal_boot hboot hpc]
    exact dealOf_target hid (hs hid) hname

/-! ## Runs -/

/-- The state of a pass, with what will happen to its flash operations. -/
def MainState.withFaults (s : MainState) (faults : List Fault) : MainState :=
  { s with dev := { s.dev with faults := faults } }

/-- A pass that can find its target, if it gets past the choice of the table. -/
def PassOk (s : MainState) (faults : List Fault) : Prop :=
  s.pc = .parse → activeId s.dev.mem ≠ .invalid → TargetStep (s.withFaults faults)

/-- **The boot target.**  In every run whose passes are as above, every boot is preceded by the
pass that asked for it, and its address is one of the entry asked for, or 0 when there is
none. -/
theorem boot_target {env : MainEnv} {flashCfg : SpiFlashCfg} {flash readBuf : Mem} {userFw : ℕ}
    {es : List (List Fault)} {t : MainState}
    (hsteps : Along (mainStep env) PassOk (MainState.init flashCfg flash readBuf userFw) es)
    (hrun : run (mainStep env) (MainState.init flashCfg flash readBuf userFw) es = some t)
    (hboot : t.pc = .boot) :
    ∃ es' faults s, es = es' ++ [faults] ∧
      run (mainStep env) (MainState.init flashCfg flash readBuf userFw) es' = some s ∧
      s.pc = .parse ∧ BootTarget s.dev.mem s.userFwName (bootHeaderAddr t 0) := by
  rcases List.eq_nil_or_concat es with rfl | ⟨es', faults, rfl⟩
  · obtain rfl : MainState.init flashCfg flash readBuf userFw = t := Option.some.inj hrun
    cases hboot
  rw [List.concat_eq_append] at hsteps hrun ⊢
  obtain ⟨s, hs, hstep⟩ := run_concat_eq_some.1 hrun
  have hok : PassOk s faults := ((along_append.1 hsteps).2 s hs).1
  refine ⟨es', faults, s, rfl, hs, ?_⟩
  rcases mainStep_cases hstep with ⟨hpc, ht⟩ | ⟨-, ht⟩
  · rw [ht] at hboot ⊢
    have htarget := parsePass_target (s := s.withFaults faults) hpc (hok hpc) hboot
    exact ⟨hpc, htarget⟩
  · rcases (bootPass_cases env s).2.2.2.2 with ⟨-, h⟩ | ⟨-, -, h, -⟩ | ⟨-, h⟩
    · rw [ht, h] at hboot
      cases hboot
    · rw [ht, h] at hboot
      cases hboot
    · rw [ht, h] at hboot
      cases hboot

/-- An entry with a name. -/
def namedEntry (type activeIndex : UInt8) (name : List UInt8) (addr0 addr1 len : ℕ)
    (hname : name.length ≤ 9) : PtTableEntry where
  bytes := type :: 0 :: activeIndex :: name ++ List.replicate (9 - name.length) 0 ++
    leBytes 4 addr0 ++ leBytes 4 addr1 ++ leBytes 4 len ++ leBytes 4 len ++ List.replicate 8 0
  size := by
    simp only [List.length_append, List.length_cons, List.length_replicate, length_leBytes]
    unfold ptTableEntryConfigSize
    omega

/-- A table with the firmware of CPU 0 and the manufacturing firmware. -/
def mfgTable : PtTableStuff :=
  tableStuff 0 [namedEntry 0 0 [0x46, 0x57] 0x2F000 0xF9000 0xca000 (by decide),
    namedEntry 3 0 [0x6D, 0x66, 0x67] 0x1C3000 0 0x20000 (by decide)]

set_option maxRecDepth 100000 in
/-- A firmware `abc` is asked for; there is none, and the manufacturing firmware is booted. -/
theorem boot_target_leftover :
    ∃ t, run (mainStep plainEnv) (MainState.init ⟨true, true⟩ (tableFlash mfgTable) (fun _ => 0)
        0x63626130) [[]] = some t ∧ t.pc = .boot ∧
      requestedEntry (tableFlash mfgTable) (leBytes 4 0x63626130 ++ List.replicate 5 0) = none ∧
      bootHeaderAddr t 0 = 0x1C3000 ∧
      ¬ BootTarget (tableFlash mfgTable) (leBytes 4 0x63626130 ++ List.replicate 5 0)
        (bootHeaderAddr t 0) := by
  have hrun : ((run (mainStep plainEnv) (MainState.init ⟨true, true⟩ (tableFlash mfgTable)
      (fun _ => 0) 0x63626130) [[]]).any fun t =>
      decide (t.pc = .boot ∧ bootHeaderAddr t 0 = 0x1C3000)) = true := by
    decide +kernel
  have hentry : requestedEntry (tableFlash mfgTable)
      (leBytes 4 0x63626130 ++ List.replicate 5 0) = none := by
    decide +kernel
  obtain ⟨t, ht, h⟩ := (Option.any_eq_true _ _).1 hrun
  obtain ⟨hpc, haddr⟩ := of_decide_eq_true h
  refine ⟨t, ht, hpc, hentry, haddr, ?_⟩
  unfold BootTarget
  rw [hentry, haddr]
  decide

/-- The theorem for a boot of the firmware of CPU 0. -/
theorem boot_target_firmwareOnly :
    ∃ t, run (mainStep plainEnv) (MainState.init ⟨true, true⟩ (tableFlash firmwareOnly)
        (fun _ => 0) 0) [[]] = some t ∧
      ∃ es' faults s, [[]] = es' ++ [faults] ∧ run (mainStep plainEnv)
        (MainState.init ⟨true, true⟩ (tableFlash firmwareOnly) (fun _ => 0) 0) es' = some s ∧
        s.pc = .parse ∧ BootTarget s.dev.mem s.userFwName (bootHeaderAddr t 0) := by
  have hrun : ((run (mainStep plainEnv) (MainState.init ⟨true, true⟩ (tableFlash firmwareOnly)
      (fun _ => 0) 0) [[]]).any fun t => decide (t.pc = .boot)) = true := by
    decide +kernel
  have hflag : mfgFlag (tableFlash firmwareOnly) (activeStuff (tableFlash firmwareOnly)) = none := by
    decide +kernel
  have hentry : (requestedEntry (tableFlash firmwareOnly)
      (leBytes 4 0 ++ List.replicate 5 0)).map PtTableEntry.activeIndex = some 0 := by
    decide +kernel
  have hok : TargetStep ((MainState.init ⟨true, true⟩ (tableFlash firmwareOnly)
      (fun _ => 0) 0).withFaults []) := by
    refine ⟨fun flag hf => ?_, fun hnone => ?_, fun e he hindex => ?_⟩
    · cases hflag.symm.trans hf
    · have h := (congrArg _ hnone).symm.trans hentry
      cases h
    · have h := (congrArg _ he).symm.trans hentry
      rw [Option.some.inj h] at hindex
      exact absurd hindex (by decide)
  have hsteps : Along (mainStep plainEnv) PassOk (MainState.init ⟨true, true⟩
      (tableFlash firmwareOnly) (fun _ => 0) 0) [[]] :=
    ⟨fun _ _ => hok, fun _ _ => trivial⟩
  obtain ⟨t, ht, hpc⟩ := (Option.any_eq_true _ _).1 hrun
  exact ⟨t, ht, boot_target hsteps ht (of_decide_eq_true hpc)⟩

end Boot
