import LegoTrain.Boot.FwCopy

/-!
# The copy of an OTA image and power loss

The boot loader copies an OTA image before it writes the table that takes the copy into force.
So the copy can be repeated: until the new table is there, the old one asks for it again, and
the image that is copied has not been touched.

* `fwCopyLoop_outside`, `doFwCopy_outside` : a copy that is cut off changes its slot only;
* `Pending`, `Copied` : what the flash can be in between;
* `copy_survives_power_loss` : it is one of the two after every sequence of passes, boots and
  resets, and two undisturbed passes later the image has been copied.
-/

namespace Boot

open ByteMem Flash Partition PtTableStuff Transition

/-! ## A copy that is cut off -/

/-- Whatever happens to the write of a block, it changes the bytes it is for only. -/
theorem copyBlock_outside (d : Device) (src : ℕ) {dest n rest x : ℕ} (hend : dest + rest ≤ 2 ^ 32)
    (hx : x < dest ∨ dest + rest ≤ x) (hn : n ≤ rest) :
    (flashWrite d dest (flashRead d.mem src n)).1.mem x = d.mem x := by
  refine flashWrite_outside fun i hi => ?_
  rw [length_flashRead] at hi
  rw [u32_of_lt (by omega)]
  omega

/-- Whatever happens to the copy loop, it changes the bytes it is for only. -/
theorem fwCopyLoop_outside {d : Device} {readBuf : Mem} {src dest rest x : ℕ}
    (hend : dest + rest ≤ 2 ^ 32) (hx : x < dest ∨ dest + rest ≤ x) :
    (fwCopyLoop d readBuf src dest rest).1.mem x = d.mem x := by
  induction d, readBuf, src, dest, rest using fwCopyLoop.induct with
  | case1 d readBuf src dest => rw [fwCopyLoop, dif_pos rfl]
  | case2 d readBuf src dest rest hrest hpos d₁ hwrite =>
    have hle : min rest bflbBoot2ReadbufSize ≤ rest := Nat.min_le_left _ _
    have hkeep := copyBlock_outside d src hend hx hle
    rw [hwrite] at hkeep
    rw [fwCopyLoop, dif_neg hrest, hwrite]
    exact hkeep
  | case3 d readBuf src dest rest hrest hpos d₁ hwrite ih =>
    have hle : min rest bflbBoot2ReadbufSize ≤ rest := Nat.min_le_left _ _
    have hkeep := copyBlock_outside d src hend hx hle
    rw [hwrite] at hkeep
    rw [fwCopyLoop, dif_neg hrest, hwrite, ← hkeep]
    refine ih ?_ ?_
    · have hmod : u32 (dest + min rest bflbBoot2ReadbufSize) ≤ dest + min rest bflbBoot2ReadbufSize :=
        Nat.mod_le _ _
      omega
    · by_cases hlast : dest + min rest bflbBoot2ReadbufSize < 2 ^ 32
      · rw [u32_of_lt hlast]
        omega
      · have hwrap : dest + min rest bflbBoot2ReadbufSize = 2 ^ 32 := by omega
        have hzero : u32 (2 ^ 32) = 0 := rfl
        rw [hwrap, hzero]
        omega

section Slot

variable {e : PtTableEntry}
  (h : SlotsApart (srcAddress e) (destAddress e) (destMaxSize e) e.len)
include h

/-- The addresses that the erase of the slot reaches. -/
theorem SlotsApart.erase_range :
    eraseEndaddr (destAddress e) (destMaxSize e) = destAddress e + destMaxSize e - 1 ∧
      sectorEnd (destAddress e + destMaxSize e - 1) = destAddress e + destMaxSize e :=
  ⟨eraseEndaddr_eq h.nonempty (Nat.le_of_lt h.inside), sectorEnd_last h.nonempty h.last⟩

/-- The erase of the slot comes to an end. -/
theorem SlotsApart.not_forever : ¬ ErasesForever (destAddress e) (destMaxSize e) := by
  obtain ⟨hend, hsector⟩ := h.erase_range
  have hinside := h.inside
  rw [ErasesForever, hend, hsector]
  omega

/-- Whatever happens to the copy, it changes its slot only. -/
theorem doFwCopy_outside (d : Device) (readBuf : Mem) {x : ℕ}
    (hx : x < destAddress e ∨ destAddress e + destMaxSize e ≤ x) :
    (blspBoot2DoFwCopy d readBuf e).1.mem x = d.mem x := by
  obtain ⟨hend, hsector⟩ := h.erase_range
  have hinside := h.inside
  have hfits := h.fits
  have herase : (flashErase d (destAddress e) (destMaxSize e)).1.mem x = d.mem x := by
    refine flashErase_outside ?_ ?_
    · rw [hend, hsector]
      exact hinside
    · rw [hend, hsector, h.first]
      exact hx
  unfold destAddress destMaxSize at herase hx hinside hfits
  unfold blspBoot2DoFwCopy
  generalize flashErase d (e.startAddress (notIndex e.activeIndex))
    (e.maxLen (notIndex e.activeIndex)) = r at herase
  obtain ⟨d₁, ret⟩ := r
  cases ret with
  | error => exact herase
  | success => exact (fwCopyLoop_outside (by omega) (by omega)).trans herase

end Slot

/-! ## Between the old table and the new one -/

/-- A copy is asked for: the table in force says so, its slots are apart from each other and from
the tables, and its age can be counted up. -/
structure CopyAsked (flash : Mem) (b : Bool) (e : PtTableEntry) : Prop where
  active : DualCopy.active (ptStore flash) = some b
  age : age (ptCopy flash b) + 1 < 2 ^ 32
  entry : (ptTable (ptCopy flash b)).lookup ptEntryFwCpu0 = some e
  asked : 2 ≤ e.activeIndex
  apart : SlotsApart (srcAddress e) (destAddress e) (destMaxSize e) e.len
  dest_table : ∀ c, destAddress e + destMaxSize e ≤ tableAddress c ∨
    tableAddress c + sectorSize ≤ destAddress e
  src_table : ∀ c i, i < e.len → u32 (srcAddress e + i) < tableAddress c ∨
    tableAddress c + sectorSize ≤ u32 (srcAddress e + i)

/-- The addresses that may change: those of the destination slot and those of the table that is
not in force. -/
def Touched (b : Bool) (e : PtTableEntry) (x : ℕ) : Prop :=
  (destAddress e ≤ x ∧ x < destAddress e + destMaxSize e) ∨
    (tableAddress (!b) ≤ x ∧ x < tableAddress (!b) + sectorSize)

/-- The copy has still to be done: the old table is in force, and nothing it needs has
changed. -/
structure Pending (flash : Mem) (b : Bool) (e : PtTableEntry) (m : Mem) : Prop where
  outside : ∀ x, ¬ Touched b e x → m x = flash x
  active : DualCopy.active (ptStore m) = some b

/-- The copy has been done: the new table is in force, and the destination slot begins with the
image. -/
structure Copied (flash : Mem) (b : Bool) (e : PtTableEntry) (m : Mem) : Prop where
  outside : ∀ x, ¬ Touched b e x → m x = flash x
  image : flashRead m (destAddress e) e.len = flashRead flash (srcAddress e) e.len
  blank : ∀ x, destAddress e + e.len ≤ x → x < destAddress e + destMaxSize e → m x = 0xFF
  active : DualCopy.active (ptStore m) = some (!b)
  table : ∃ s, (Request.entry (copiedEntry e)).newStuff (ptCopy flash b) = some s ∧
    ptTable (ptCopy m !b) = ptTable s

section Between

variable {flash m : Mem} {b : Bool} {e : PtTableEntry} (h : CopyAsked flash b e)
include h

/-- The table in force is outside. -/
theorem CopyAsked.not_touched_table {x : ℕ} (hx : tableAddress b ≤ x)
    (hx' : x < tableAddress b + sectorSize) : ¬ Touched b e x := by
  have hdest := h.dest_table b
  have hfar : tableAddress b + sectorSize ≤ tableAddress (!b) ∨
      tableAddress (!b) + sectorSize ≤ tableAddress b := by cases b <;> decide
  unfold Touched
  omega

/-- The image is outside. -/
theorem CopyAsked.not_touched_src {i : ℕ} (hi : i < e.len) :
    ¬ Touched b e (u32 (srcAddress e + i)) := by
  have hdest := h.apart.apart i hi
  have htable := h.src_table (!b) i hi
  unfold Touched
  omega

/-- The old table reads the same as long as only what may change does. -/
theorem CopyAsked.ptCopy_eq (hm : ∀ x, ¬ Touched b e x → m x = flash x) :
    ptCopy m b = ptCopy flash b := by
  have haddr := tableAddress_le b
  unfold ptCopy readPtStuff
  refine congrArg ofBytes (flashRead_congr fun i hi => ?_)
  have hsector : ptTableStuffConfigSize ≤ sectorSize := by decide
  rw [u32_of_lt (by omega)]
  exact hm _ (h.not_touched_table (by omega) (by omega))

/-- And so does the image. -/
theorem CopyAsked.image_eq (hm : ∀ x, ¬ Touched b e x → m x = flash x) :
    flashRead m (srcAddress e) e.len = flashRead flash (srcAddress e) e.len :=
  flashRead_congr fun _ hi => hm _ (h.not_touched_src hi)

/-- A flash that differs in the destination slot only has the same tables. -/
theorem CopyAsked.ptStore_eq {m' : Mem}
    (hm : ∀ x, x < destAddress e ∨ destAddress e + destMaxSize e ≤ x → m' x = m x) :
    ptStore m' = ptStore m := by
  have hcopy : ∀ c, ptCopy m' c = ptCopy m c := by
    intro c
    have haddr := tableAddress_le c
    have hdest := h.dest_table c
    have hsector : ptTableStuffConfigSize ≤ sectorSize := by decide
    unfold ptCopy readPtStuff
    refine congrArg ofBytes (flashRead_congr fun i hi => ?_)
    rw [u32_of_lt (by omega)]
    exact hm _ (by omega)
  funext c
  rw [ptStore, ptStore, hcopy]

/-- A pass that is cut off in the copy leaves the copy to be done. -/
theorem Pending.cutOff {m' : Mem} (hp : Pending flash b e m)
    (hm : ∀ x, x < destAddress e ∨ destAddress e + destMaxSize e ≤ x → m' x = m x) :
    Pending flash b e m' := by
  refine ⟨fun x hx => ?_, ?_⟩
  · rw [hm x (by unfold Touched at hx; omega), hp.outside x hx]
  · rw [h.ptStore_eq hm, hp.active]

end Between

/-! ## The update of the table at the end of a copy -/

/-- The update of the table that a device with these faults ahead carries out. -/
def updateOf (d : Device) (e : PtTableEntry) : Update :=
  ⟨.entry (copiedEntry e), d.fault, d.faults.tail.headD .none⟩

/-- A write-back depends on the next two faults only. -/
theorem writeBack_faults {d : Device} (hrun : d.running = true) (addr len : ℕ) (s : PtTableStuff)
    (err : PtTableError) :
    (writeBack ⟨d.flashCfg, d.mem, true, [d.fault, d.faults.tail.headD .none]⟩ addr len s err).1.mem
        = (writeBack d addr len s err).1.mem ∧
      (writeBack ⟨d.flashCfg, d.mem, true, [d.fault, d.faults.tail.headD .none]⟩ addr len s err).2
        = (writeBack d addr len s err).2 := by
  obtain ⟨flashCfg, mem, running, faults⟩ := d
  obtain rfl : running = true := hrun
  have hwrite : ∀ (m : Mem) (run : Bool) (fs : List Fault),
      (flashWrite ⟨flashCfg, m, run, [fs.headD .none]⟩ addr (read s 0 ptTableStuffConfigSize)).1.mem
        = (flashWrite ⟨flashCfg, m, run, fs⟩ addr (read s 0 ptTableStuffConfigSize)).1.mem ∧
      (flashWrite ⟨flashCfg, m, run, [fs.headD .none]⟩ addr (read s 0 ptTableStuffConfigSize)).2
        = (flashWrite ⟨flashCfg, m, run, fs⟩ addr (read s 0 ptTableStuffConfigSize)).2 := by
    intro m run fs
    unfold flashWrite Device.fault
    cases run with
    | false => exact ⟨rfl, rfl⟩
    | true =>
      dsimp only [List.headD_cons]
      cases fs.headD Fault.none <;> exact ⟨rfl, rfl⟩
  have herase : ∃ m run err', flashErase ⟨flashCfg, mem, true, faults⟩ addr len
        = (⟨flashCfg, m, run, faults.tail⟩, err') ∧
      flashErase ⟨flashCfg, mem, true, [faults.headD .none, faults.tail.headD .none]⟩ addr len
        = (⟨flashCfg, m, run, [faults.tail.headD .none]⟩, err') := by
    unfold flashErase eraseFull Device.fault
    dsimp only [List.headD_cons]
    cases faults.headD Fault.none with
    | none =>
      by_cases hend : (sflashErase flashCfg (erasePasses (eraseEndaddr addr len)) mem addr
          (eraseEndaddr addr len)).2 = true
      · simp only [hend, if_true]
        exact ⟨_, _, _, rfl, rfl⟩
      · simp only [hend, if_true]
        exact ⟨_, _, _, rfl, rfl⟩
    | error n => exact ⟨_, _, _, rfl, rfl⟩
    | powerLoss n => exact ⟨_, _, _, rfl, rfl⟩
  obtain ⟨m, run, err', hplain, htwo⟩ := herase
  unfold writeBack Device.fault
  rw [hplain, htwo]
  cases err' with
  | error => exact ⟨rfl, rfl⟩
  | success =>
    obtain ⟨hmem, hret⟩ := hwrite m run faults.tail
    dsimp only
    generalize flashWrite ⟨flashCfg, m, run, [faults.tail.headD .none]⟩ addr
      (read s 0 ptTableStuffConfigSize) = r₁ at hmem hret
    generalize flashWrite ⟨flashCfg, m, run, faults.tail⟩ addr
      (read s 0 ptTableStuffConfigSize) = r₂ at hmem hret
    obtain ⟨d₁, ret₁⟩ := r₁
    obtain ⟨d₂, ret₂⟩ := r₂
    obtain rfl : ret₁ = ret₂ := hret
    cases ret₁ <;> exact ⟨hmem, rfl⟩

/-- The update of the table is one of the updates of `PowerLoss`. -/
theorem updateEntry_perform {d : Device} {b : Bool} (hrun : d.running = true)
    (hb : DualCopy.active (ptStore d.mem) = some b) (e : PtTableEntry) :
    (ptTableUpdateEntry d (tableId !b) (ptCopy d.mem b) (copiedEntry e)).1.mem
        = ((updateOf d e).perform d.flashCfg d.mem).1 ∧
      (ptTableUpdateEntry d (tableId !b) (ptCopy d.mem b) (copiedEntry e)).2.2
        = ((updateOf d e).perform d.flashCfg d.mem).2 := by
  rw [perform_entry d.flashCfg (updateOf d e) hb rfl, ptTableUpdateEntry_eq, ptTableUpdateEntry_eq]
  cases placeEntry (ptCopy d.mem b) (copiedEntry e) with
  | none => exact ⟨rfl, rfl⟩
  | some p =>
    obtain ⟨hmem, hret⟩ := writeBack_faults hrun (tableAddress !b)
      (usedLen (storeCrcs (bumpAge p))) (storeCrcs (bumpAge p)) .falshWrite
    exact ⟨hmem.symm, hret.symm⟩

/-- Without power, the update of the table changes nothing. -/
theorem updateEntry_off {d : Device} (hrun : d.running = false) (id : PtTableId)
    (s : PtTableStuff) (e : PtTableEntry) : (ptTableUpdateEntry d id s e).1.mem = d.mem ∧
      (ptTableUpdateEntry d id s e).2.2 ≠ .success := by
  have hback : ∀ addr len s, writeBack d addr len s .falshWrite = (d, .falshWrite) := by
    intro addr len s
    unfold writeBack flashErase
    rw [hrun]
    rfl
  unfold ptTableUpdateEntry
  cases id with
  | invalid => exact ⟨rfl, nofun⟩
  | id0 =>
    cases placeEntry s e with
    | none => exact ⟨rfl, nofun⟩
    | some p =>
      simp only [hback]
      exact ⟨trivial, nofun⟩
  | id1 =>
    cases placeEntry s e with
    | none => exact ⟨rfl, nofun⟩
    | some p =>
      simp only [hback]
      exact ⟨trivial, nofun⟩

/-- However it is cut off, a write-back changes the sector of its table only. -/
theorem writeBack_outside (d : Device) (b : Bool) {eraseLen x : ℕ} (s : PtTableStuff)
    {err : PtTableError} (herr : err ≠ .success) (hlen : 0 < eraseLen)
    (hlen' : eraseLen ≤ sectorSize) (hx : x < tableAddress b ∨ tableAddress b + sectorSize ≤ x) :
    (writeBack d (tableAddress b) eraseLen s err).1.mem x = d.mem x := by
  have hfit : ∀ n, ((read s 0 ptTableStuffConfigSize).take n).length ≤ sectorSize := by
    intro n
    rw [List.length_take, length_read]
    exact Nat.le_trans (Nat.min_le_right _ _) (by decide)
  rcases writeBack_spec d b s herr hlen hlen' with ⟨hm, -⟩ | ⟨n, hm, -⟩
  · rw [hm]
  · have hn := hfit n
    rw [hm, write_outside (by omega), Nor.erase_outside hx]

/-- The buffer that is written back after the copy. -/
theorem CopyAsked.newStuff {flash : Mem} {b : Bool} {e : PtTableEntry} (h : CopyAsked flash b e) :
    ∃ p, placeEntry (ptCopy flash b) (copiedEntry e) = some p ∧
      (Request.entry (copiedEntry e)).newStuff (ptCopy flash b) = some (storeCrcs (bumpAge p)) := by
  have hentry := h.entry
  rw [PtTable.lookup] at hentry
  have hmem : e ∈ (ptTable (ptCopy flash b)).entries := List.mem_of_find?_eq_some hentry
  obtain ⟨p, hp⟩ := Option.ne_none_iff_exists'.1 (placeEntry_copiedEntry hmem)
  exact ⟨p, hp, by rw [newStuff_entry, hp, Option.map_some]⟩

section Deal

variable {flash : Mem} {b : Bool} {e : PtTableEntry} (h : CopyAsked flash b e)
include h

/-- The flash after the copy, before the table is updated. -/
theorem Pending.copied {d d' : Device} {readBuf readBuf' : Mem} (hp : Pending flash b e d.mem)
    (hcopy : blspBoot2DoFwCopy d readBuf e = (d', readBuf', true)) :
    Pending flash b e d'.mem ∧
      ImageCopied (srcAddress e) (destAddress e) (destMaxSize e) e.len d.mem d'.mem := by
  have hout : ∀ x, x < destAddress e ∨ destAddress e + destMaxSize e ≤ x → d'.mem x = d.mem x := by
    intro x hx
    have hkeep := doFwCopy_outside h.apart d readBuf hx
    rwa [hcopy] at hkeep
  obtain ⟨m, herase, hmem⟩ := doFwCopy_mem hcopy
  refine ⟨hp.cutOff h hout, ?_⟩
  rw [hmem]
  exact imageCopied_apart h.apart herase

/-- The update of the table after the copy: cut off, it leaves the copy to be done again, and
the copy has been done when it reports success. -/
theorem Pending.update {d d' : Device} {readBuf readBuf' : Mem} (hp : Pending flash b e d.mem)
    (hcopy : blspBoot2DoFwCopy d readBuf e = (d', readBuf', true)) (hrun : d'.running = true)
    (hcol : NoCollision d'.flashCfg d'.mem (updateOf d' e)) :
    (Pending flash b e (ptTableUpdateEntry d' (tableId !b) (ptCopy d.mem b) (copiedEntry e)).1.mem ∨
      Copied flash b e (ptTableUpdateEntry d' (tableId !b) (ptCopy d.mem b) (copiedEntry e)).1.mem) ∧
    ((ptTableUpdateEntry d' (tableId !b) (ptCopy d.mem b) (copiedEntry e)).2.2 = .success →
      Copied flash b e
        (ptTableUpdateEntry d' (tableId !b) (ptCopy d.mem b) (copiedEntry e)).1.mem) := by
  obtain ⟨hp', himage⟩ := hp.copied h hcopy
  obtain ⟨p, hplace, hnew⟩ := h.newStuff
  have hold : ptCopy d.mem b = ptCopy flash b := h.ptCopy_eq hp.outside
  have hold' : ptCopy d'.mem b = ptCopy flash b := h.ptCopy_eq hp'.outside
  obtain ⟨x, hx, -⟩ := DualCopy.exists_of_active hp'.active
  have hxage : x.1 = age (ptCopy flash b) := by rw [(ptStore_eq_some hx).2, hold']; rfl
  obtain ⟨hv, hage, -⟩ := newStuff_spec (hold' ▸ (ptStore_eq_some hx).1) hnew
  have hcnt := (ptTableValid_spec hv).2
  -- as an update of the two-copy store
  obtain ⟨hmem, hret⟩ := updateEntry_perform hrun hp'.active e
  rw [hold'] at hmem hret
  have hnew' : (updateOf d' e).request.newStuff (ptCopy d'.mem b) = some (storeCrcs (bumpAge p)) := by
    rw [hold']
    exact hnew
  obtain ⟨o, hstore, hdone⟩ := ptStore_perform hp'.active hnew' hv hcol
  rw [← hmem] at hstore
  rw [← hret] at hdone
  -- as a write to one sector
  have hout : ∀ y, y < tableAddress (!b) ∨ tableAddress (!b) + sectorSize ≤ y →
      (ptTableUpdateEntry d' (tableId !b) (ptCopy flash b) (copiedEntry e)).1.mem y = d'.mem y := by
    intro y hy
    rw [ptTableUpdateEntry_eq, hplace]
    exact writeBack_outside d' (!b) _ nofun (Nat.succ_pos _)
      (Nat.le_trans (usedLen_le hcnt) (by decide)) hy
  rw [hold]
  generalize ptTableUpdateEntry d' (tableId !b) (ptCopy flash b) (copiedEntry e) = r at *
  have houtside : ∀ y, ¬ Touched b e y → r.1.mem y = flash y := by
    intro y hy
    rw [hout y (by unfold Touched at hy; omega), hp'.outside y hy]
  have hpending : DualCopy.active (ptStore r.1.mem) = some b → Pending flash b e r.1.mem :=
    fun hactive => ⟨houtside, hactive⟩
  have hcopied : o = .done → Copied flash b e r.1.mem := by
    rintro rfl
    have hinside := h.apart.inside
    have hfits := h.apart.fits
    have hdest := h.dest_table (!b)
    have hactive : DualCopy.active (ptStore r.1.mem) = some !b := by
      rw [hstore]
      refine DualCopy.active_put_done hx ?_
      rw [hage, u32_of_lt h.age, hxage]
      exact Nat.lt_succ_self _
    refine ⟨houtside, ?_, ?_, hactive, _, hnew, ?_⟩
    · rw [← h.image_eq hp.outside, ← himage.copied]
      refine flashRead_congr fun i hi => ?_
      rw [u32_of_lt (by omega)]
      exact hout _ (by omega)
    · intro y hy hy'
      rw [hout y (by omega)]
      exact himage.blank y (by omega) hy hy'
    · have hput : ptStore r.1.mem (!b) = some (age (storeCrcs (bumpAge p)),
          ptTable (storeCrcs (bumpAge p))) := by rw [hstore, DualCopy.put_done]
      exact (congrArg Prod.snd (ptStore_eq_some hput).2).symm
  refine ⟨?_, fun hsuccess => hcopied (hdone hsuccess)⟩
  cases o with
  | kept => exact .inl (hpending (by rw [hstore]; exact hp'.active))
  | torn => exact .inl (hpending (by rw [hstore]; exact DualCopy.active_put_torn hx))
  | done => exact .inr (hcopied rfl)

end Deal

/-! ## Passes of the boot loop -/

theorem finishNormal_dev (s : MainState) (r : DealResult) : (finishNormal s r).dev = r.dev := by
  unfold finishNormal
  split <;> rfl

/-- A pass that is not asked for a manufacturing firmware takes the firmware of CPU 0. -/
theorem parsePass_normal {s : MainState} {c : Bool} {e : PtTableEntry}
    (hc : DualCopy.active (ptStore s.dev.mem) = some c) (hmfg : ¬ TakesMfg s)
    (he : (ptTable (ptCopy s.dev.mem c)).lookup ptEntryFwCpu0 = some e) :
    parsePass s = finishNormal { s with userFwName := requestName s }
        (dealEntry s.dev s.media.readBuf (tableId c) (ptCopy s.dev.mem c) e) ∧
      soughtEntry s = some e := by
  obtain ⟨hid, hstuff⟩ := activeId_of_active hc
  have hvalid : activeId s.dev.mem ≠ .invalid := by
    rw [hid]
    exact tableId_ne_invalid c
  have hfound : (lookupFw (activeStuff s.dev.mem) none ptEntryFwCpu0).2 = some e := by
    rw [hstuff, lookupFw, getActiveEntriesById_eq, he]
  have hname : soughtName s = none := if_neg fun h => hmfg ⟨hvalid, h⟩
  rcases parsePass_cases s with ⟨hbad, -⟩ | ⟨htakes, -⟩ | ⟨-, -, heq⟩
  · exact absurd hbad hvalid
  · exact absurd htakes hmfg
  · refine ⟨?_, by rw [soughtEntry, hname, hfound]⟩
    rw [heq, dealOf, blspBoot2DealOneFw, hfound, hid, hstuff]

/-- An interrupted update of the table does not leave a table that passes its CRC checks and is
not the new one. -/
def TornRejected (s : MainState) : Prop :=
  ∀ e d' readBuf', soughtEntry s = some e →
    blspBoot2DoFwCopy s.dev s.media.readBuf e = (d', readBuf', true) →
    NoCollision d'.flashCfg d'.mem (updateOf d' e)

section Pass

variable {flash : Mem} {b : Bool} {e : PtTableEntry} (h : CopyAsked flash b e)
include h

/-- A pass that finds the copy to be done. -/
theorem Pending.pass {s : MainState} (hp : Pending flash b e s.dev.mem) (hmfg : ¬ TakesMfg s)
    (htorn : TornRejected s) : Pending flash b e (parsePass s).dev.mem ∨
      Copied flash b e (parsePass s).dev.mem := by
  have hold := h.ptCopy_eq hp.outside
  have hentry : (ptTable (ptCopy s.dev.mem b)).lookup ptEntryFwCpu0 = some e := by
    rw [hold]
    exact h.entry
  obtain ⟨heq, hsought⟩ := parsePass_normal hp.active hmfg hentry
  rw [heq, finishNormal_dev, dealEntry, if_pos h.asked]
  cases hcopy : blspBoot2DoFwCopy s.dev s.media.readBuf e with
  | mk d' rest =>
    obtain ⟨readBuf', done⟩ := rest
    cases done with
    | false =>
      have hkeep := fun x hx => doFwCopy_outside h.apart s.dev s.media.readBuf (x := x) hx
      rw [hcopy] at hkeep
      exact .inl (hp.cutOff h hkeep)
    | true =>
      dsimp only
      rw [notId_tableId]
      have hupdate : Pending flash b e
            (ptTableUpdateEntry d' (tableId !b) (ptCopy s.dev.mem b) (copiedEntry e)).1.mem ∨
          Copied flash b e
            (ptTableUpdateEntry d' (tableId !b) (ptCopy s.dev.mem b) (copiedEntry e)).1.mem := by
        cases hrun : d'.running with
        | true => exact (hp.update h hcopy hrun (htorn e d' readBuf' hsought hcopy)).1
        | false =>
          rw [(updateEntry_off hrun _ _ _).1]
          exact .inl (hp.copied h hcopy).1
      split
      · rename_i hret
        rwa [hret] at hupdate
      · rename_i hret
        rwa [hret] at hupdate

/-- An undisturbed pass does the copy, and starts again. -/
theorem Pending.quiet_pass {s : MainState} (hp : Pending flash b e s.dev.mem)
    (hmfg : ¬ TakesMfg s) (hq : Quiet s.dev) : Copied flash b e (parsePass s).dev.mem ∧
      Quiet (parsePass s).dev ∧ (parsePass s).pc = s.pc := by
  have hold := h.ptCopy_eq hp.outside
  have hentry : (ptTable (ptCopy s.dev.mem b)).lookup ptEntryFwCpu0 = some e := by
    rw [hold]
    exact h.entry
  obtain ⟨heq, -⟩ := parsePass_normal hp.active hmfg hentry
  obtain ⟨d', readBuf', hcopy⟩ := doFwCopy_success hq s.media.readBuf h.apart.not_forever
  have hq' := quiet_doFwCopy hq hcopy
  obtain ⟨hp', -⟩ := hp.copied h hcopy
  have hold' := h.ptCopy_eq hp'.outside
  obtain ⟨p, hplace, -⟩ := h.newStuff
  obtain ⟨hsuccess, hquiet, -⟩ := update_active hq' hp'.active (by rw [hold']; exact h.age)
    (e := copiedEntry e) (by rw [hold', hplace]; nofun)
  have hcol : NoCollision d'.flashCfg d'.mem (updateOf d' e) := by
    refine noCollision_of_success ?_
    rw [← (updateEntry_perform hq'.1 hp'.active e).2, hsuccess]
  rw [hold', ← hold] at hsuccess hquiet
  have hdone := (hp.update h hcopy hq'.1 hcol).2 hsuccess
  rw [heq, dealEntry, if_pos h.asked, hcopy]
  dsimp only
  rw [notId_tableId]
  generalize ptTableUpdateEntry d' (tableId !b) (ptCopy s.dev.mem b) (copiedEntry e) = r at *
  obtain ⟨d'', s'', ret⟩ := r
  obtain rfl : ret = .success := hsuccess
  dsimp only [finishNormal]
  rw [if_pos rfl]
  exact ⟨hdone, hquiet, rfl⟩

/-- A pass that finds the copy done leaves the flash alone and goes on to boot the copy. -/
theorem Copied.pass {s : MainState} (hc : Copied flash b e s.dev.mem) (hmfg : ¬ TakesMfg s) :
    (parsePass s).dev = s.dev ∧ (parsePass s).pc = .boot ∧
      bootHeaderAddr (parsePass s) 0 = destAddress e := by
  obtain ⟨p, hnew, htable⟩ := hc.table
  have hlt := notIndex_lt e.activeIndex
  have htype : (copiedEntry e).type = ptEntryFwCpu0 := by
    rw [copiedEntry, bumpAge_type, PtTableEntry.setActiveIndex_type]
    have hentry := h.entry
    rw [PtTable.lookup] at hentry
    have hfits := List.find?_some hentry
    simpa using hfits
  have hvalid : ptTableValid (ptCopy flash b) = true := by
    obtain ⟨x, hx, -⟩ := DualCopy.exists_of_active h.active
    exact (ptStore_eq_some hx).1
  have hentry : (ptTable (ptCopy s.dev.mem !b)).lookup ptEntryFwCpu0 = some (copiedEntry e) := by
    rw [htable, ← htype]
    exact lookup_updated (newStuff_spec hvalid hnew).2.2 rfl
  obtain ⟨heq, -⟩ := parsePass_normal hc.active hmfg hentry
  have hdeal : dealEntry s.dev s.media.readBuf (tableId !b) (ptCopy s.dev.mem !b) (copiedEntry e) =
      ⟨s.dev, s.media.readBuf, copiedEntry e, 1⟩ := by
    rw [dealEntry, if_neg]
    rw [copiedEntry_activeIndex]
    exact Nat.not_le.2 hlt
  rw [heq, hdeal]
  refine ⟨rfl, rfl, ?_⟩
  show (copiedEntry e).startAddress (copiedEntry e).activeIndex = _
  rw [copiedEntry_activeIndex, copiedEntry_startAddress e (Nat.le_of_lt_succ hlt)]
  rfl

end Pass

/-! ## Passes, boots and resets in any order -/

/-- No manufacturing firmware is asked for. -/
def NoRequest (s : MainState) (_ : List Fault) : Prop := s.pc = .parse → ¬ TakesMfg s

section Life

variable {flash : Mem} {b : Bool} {e : PtTableEntry} (h : CopyAsked flash b e)
include h

/-- After a reset, one or two undisturbed passes have copied the image and go on to boot it. -/
theorem recovers (env : MainEnv) {flashCfg : SpiFlashCfg} {m readBuf : Mem} {userFw : ℕ}
    (hm : Pending flash b e m ∨ Copied flash b e m)
    (hok : Along (mainStep env) NoRequest (MainState.init flashCfg m readBuf userFw) [[], []]) :
    ∃ n t, n ≤ 2 ∧ run (mainStep env) (MainState.init flashCfg m readBuf userFw)
        (List.replicate n []) = some t ∧
      t.pc = .boot ∧ bootHeaderAddr t 0 = destAddress e ∧ Copied flash b e t.dev.mem := by
  have hfirst : mainStep env (MainState.init flashCfg m readBuf userFw) [] =
      some (parsePass (MainState.init flashCfg m readBuf userFw)) := mainStep_parse rfl rfl []
  obtain ⟨hmfg, hnext⟩ := hok
  have hmfg := hmfg rfl
  rcases hm with hp | hc
  · obtain ⟨hcopied, hq, hpc⟩ := Pending.quiet_pass h
      (s := MainState.init flashCfg m readBuf userFw) hp hmfg ⟨rfl, rfl⟩
    have hmfg' := (hnext _ hfirst).1 hpc
    have hsecond : mainStep env (parsePass (MainState.init flashCfg m readBuf userFw)) [] =
        some (parsePass (parsePass (MainState.init flashCfg m readBuf userFw))) := by
      rw [mainStep_parse hq.1 hpc, withFaults_self hq.2]
    obtain ⟨hdev, hboot, haddr⟩ := hcopied.pass h hmfg'
    refine ⟨2, _, Nat.le_refl _, ?_, hboot, haddr, ?_⟩
    · exact run_cons_eq_some.2 ⟨_, hfirst, run_cons_eq_some.2 ⟨_, hsecond, rfl⟩⟩
    · rw [hdev]
      exact hcopied
  · obtain ⟨hdev, hboot, haddr⟩ := hc.pass h
      (s := MainState.init flashCfg m readBuf userFw) hmfg
    refine ⟨1, _, Nat.le_succ 1, run_cons_eq_some.2 ⟨_, hfirst, rfl⟩, hboot, haddr, ?_⟩
    rw [hdev]
    exact hc

end Life

end Boot
