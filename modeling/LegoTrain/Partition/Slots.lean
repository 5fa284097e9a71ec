import LegoTrain.Partition.PowerLoss

/-!
# The slot of the updater and the slot of the boot loader

`pt_table_get_iap_para` and `pt_table_set_iap_para` take the firmware to be entry 0 of the
active table; the boot loader looks the entry up by its type.

* `SlotAgreement` : the updater writes to the inactive slot of the boot loader's entry,
  makes it the active slot of that entry, and leaves the other entries alone;
* `slotAgreement_of_age_lt` : below the last age this holds exactly when the firmware is
  entry 0, and `slotAgreement_of_last_age` : at the last age, where the update is lost,
  only when the addresses in question coincide;
* `slotAgreement_iff` puts the two together, and `slotAgreement_fails_second_entry` is a
  table on which the two sides disagree.
-/

namespace Partition

open ByteMem Flash SoftCrc PtTableStuff

/-- `pt_table_get_iap_para` and `pt_table_set_iap_para` with what it returned, with no
fault of the flash. -/
def switchSlotUpdate (para : PtTableIapParam) : Update where
  request := .iap para
  eraseFault := .none
  writeFault := .none

/-- The address of the active slot of an entry. -/
def PtTableEntry.activeAddress (e : PtTableEntry) : ℕ := e.startAddress (e.activeIndex % 2)

/-- The address of the inactive slot of an entry. -/
def PtTableEntry.inactiveAddress (e : PtTableEntry) : ℕ := e.startAddress (notIndex e.activeIndex)

/-- Two tables have the same entries, except for the first one of the given type. -/
def SameOtherEntries (type : ℕ) (t t' : PtTable) : Prop :=
  ∀ i, t.entries.findIdx? (fun e => e.type = type) ≠ some i → t'.entries[i]? = t.entries[i]?

/-- The updater and the boot loader agree on the slot of the firmware. -/
structure SlotAgreement (flashCfg : SpiFlashCfg) (flash : Mem) (para : PtTableIapParam) : Prop where
  /-- the updater gets its parameters -/
  get_success : (ptTableGetIapPara flash para).1 = .success
  /-- the new image goes to the inactive slot of the boot loader's entry -/
  inactive_slot : ∃ e, lookupActive flash ptEntryFwCpu0 = (.success, some e) ∧
    (ptTableGetIapPara flash para).2.iapStartAddr = e.inactiveAddress
  /-- afterwards the boot loader's entry has that address as its active slot -/
  active_slot : ∃ e,
    lookupActive ((switchSlotUpdate para).perform flashCfg flash).1 ptEntryFwCpu0
      = (.success, some e) ∧ e.activeAddress = (ptTableGetIapPara flash para).2.iapStartAddr
  /-- every other entry is unchanged -/
  other_entries : ∃ t t', selectedTable flash = some t ∧
    selectedTable ((switchSlotUpdate para).perform flashCfg flash).1 = some t' ∧
    SameOtherEntries ptEntryFwCpu0 t t'

/-! ## The table before and after -/

theorem selectedTable_eq_some {flash : Mem} {t : PtTable} (h : selectedTable flash = some t) :
    ∃ b, DualCopy.active (ptStore flash) = some b ∧ ptTableValid (ptCopy flash b) = true ∧
      t = ptTable (ptCopy flash b) := by
  rw [selectedTable_eq] at h
  obtain ⟨x, hcur, rfl⟩ := Option.map_eq_some_iff.1 h
  obtain ⟨b, hb, hx⟩ := Option.bind_eq_some_iff.1 hcur
  obtain ⟨hv, rfl⟩ := ptStore_eq_some hx
  exact ⟨b, hb, hv, rfl⟩

/-- The boot loader's lookup is a lookup in the selected table. -/
theorem lookupActive_eq_iff {flash : Mem} {t : PtTable} {type : ℕ} {e : PtTableEntry}
    (h : selectedTable flash = some t) :
    lookupActive flash type = (.success, some e) ↔ t.lookup type = some e := by
  obtain ⟨b, hb, -, rfl⟩ := selectedTable_eq_some h
  rw [lookupActive_of_active hb, getActiveEntriesById_eq]
  cases (ptTable (ptCopy flash b)).lookup type with
  | none => simp
  | some e' => simp

theorem ptEntry_zero {s : PtTableStuff} {e0 : PtTableEntry} {es : List PtTableEntry}
    (he : (ptTable s).entries = e0 :: es) : ptEntry s 0 = e0 := by
  have hget := congrArg (fun l : List PtTableEntry => l[0]?) he
  cases hn : entryCnt s with
  | zero => simp [ptTable, hn] at he
  | succ n => simpa [ptTable, hn] using hget

/-- The updater takes the inactive slot of entry 0. -/
theorem iapStartAddr_eq {flash : Mem} {t : PtTable} {e0 : PtTableEntry} {es : List PtTableEntry}
    (h : selectedTable flash = some t) (he : t.entries = e0 :: es) (para : PtTableIapParam) :
    (ptTableGetIapPara flash para).1 = .success ∧
      (ptTableGetIapPara flash para).2.iapStartAddr = e0.inactiveAddress := by
  obtain ⟨b, hb, -, rfl⟩ := selectedTable_eq_some h
  have h0 := ptEntry_zero he
  have hget : ptTableGetIapPara flash para
      = (.success, iapParaOf (ptCopy flash b) (if b then 0 else 1) para) := by
    rw [ptTableGetIapPara_eq, hb]
  rw [hget]
  refine ⟨rfl, ?_⟩
  simp only [iapParaOf, h0, PtTableEntry.inactiveAddress]

theorem switchSlotUpdate_success {flash : Mem} {t : PtTable} (flashCfg : SpiFlashCfg)
    (para : PtTableIapParam) (h : selectedTable flash = some t) :
    ((switchSlotUpdate para).perform flashCfg flash).2 = .success := by
  obtain ⟨b, hb, -, -⟩ := selectedTable_eq_some h
  exact perform_ok flashCfg (switchSlotUpdate para) hb (newStuff_iap _ para) rfl rfl

/-- Below the last age, the table selected afterwards has the next age and the other slot
of entry 0 active. -/
theorem selectedTable_switchSlot {flash : Mem} {t : PtTable} (flashCfg : SpiFlashCfg)
    (para : PtTableIapParam) (h : selectedTable flash = some t) (hage : t.age + 1 < 2 ^ 32) :
    selectedTable ((switchSlotUpdate para).perform flashCfg flash).1
      = some t.nextAge.toggle0 := by
  obtain ⟨b, hb, hv, rfl⟩ := selectedTable_eq_some h
  have hsucc := switchSlotUpdate_success flashCfg para h
  obtain ⟨s, hs⟩ : ∃ s, (switchSlotUpdate para).request.newStuff (ptCopy flash b) = some s :=
    ⟨_, newStuff_iap (ptCopy flash b) para⟩
  obtain ⟨hvs, hages, hupd⟩ := newStuff_spec hv hs
  obtain ⟨o, hstore, hdone⟩ := ptStore_perform hb hs hvs (noCollision_of_success hsucc)
  obtain ⟨x, hx, -⟩ := DualCopy.exists_of_active hb
  obtain ⟨-, rfl⟩ := ptStore_eq_some hx
  have hlt : age (ptCopy flash b) < age s := by
    have hage : age (ptCopy flash b) + 1 < 2 ^ 32 := hage
    rw [hages, u32_of_lt hage]
    exact Nat.lt_succ_self _
  have hcur := DualCopy.current_put hx hb (v := (age s, ptTable s)) hlt o
  rw [← hstore, if_pos (hdone hsucc)] at hcur
  rw [selectedTable_eq, hcur]
  exact hupd.symm

/-! ## Below the last age -/

/-- Toggling entry 0 changes what a type is looked up to only when entry 0 has the type. -/
theorem lookup_toggle0 {t : PtTable} {e0 : PtTableEntry} {es : List PtTableEntry} (type : ℕ)
    (he : t.entries = e0 :: es) :
    t.toggle0.lookup type = if e0.type = type then some e0.toggle else es.find? fun e =>
      e.type = type := by
  have htype : e0.toggle.type = e0.type := PtTableEntry.setActiveIndex_type _ _
  by_cases h : e0.type = type <;> simp [PtTable.lookup, PtTable.toggle0, he, htype, h]

theorem notIndex_lt (i : ℕ) : notIndex i < 2 := by
  unfold notIndex
  split <;> decide

theorem toggle_activeIndex (e : PtTableEntry) : e.toggle.activeIndex = notIndex e.activeIndex := by
  have h := notIndex_lt e.activeIndex
  rw [PtTableEntry.toggle, PtTableEntry.setActiveIndex_activeIndex, UInt8.toNat_ofNat']
  omega

theorem toggle_activeAddress (e : PtTableEntry) : e.toggle.activeAddress = e.inactiveAddress := by
  have h := notIndex_lt e.activeIndex
  rw [PtTableEntry.activeAddress, toggle_activeIndex, Nat.mod_eq_of_lt h, PtTableEntry.toggle,
    PtTableEntry.setActiveIndex_startAddress, PtTableEntry.inactiveAddress]

theorem toggle_ne (e : PtTableEntry) : e.toggle ≠ e := by
  intro h
  have h' := toggle_activeIndex e
  rw [h] at h'
  unfold notIndex at h'
  split at h' <;> omega

/-- Below the last age, the two sides agree exactly when entry 0 is the firmware. -/
theorem slotAgreement_of_age_lt {flash : Mem} {t : PtTable} {e0 : PtTableEntry}
    {es : List PtTableEntry} (flashCfg : SpiFlashCfg) (para : PtTableIapParam)
    (hsel : selectedTable flash = some t) (he : t.entries = e0 :: es)
    (hage : t.age + 1 < 2 ^ 32) :
    SlotAgreement flashCfg flash para ↔ e0.type = ptEntryFwCpu0 := by
  have hsel' := selectedTable_switchSlot flashCfg para hsel hage
  obtain ⟨hget, haddr⟩ := iapStartAddr_eq hsel he para
  constructor
  · intro h
    by_contra hne
    obtain ⟨t1, t2, h1, h2, hsame⟩ := h.other_entries
    obtain rfl : t = t1 := Option.some.inj (hsel.symm.trans h1)
    obtain rfl : t.nextAge.toggle0 = t2 := Option.some.inj (hsel'.symm.trans h2)
    -- entry 0 is another entry, and it is toggled
    have h0 : t.entries.findIdx? (fun e => e.type = ptEntryFwCpu0) ≠ some 0 := by
      rw [he]
      simp [List.findIdx?_cons, hne]
    have htoggle := hsame 0 h0
    rw [show t.nextAge.toggle0.entries = e0.toggle :: es by
      simp [PtTable.toggle0, PtTable.nextAge, he], he] at htoggle
    exact toggle_ne e0 (Option.some.inj htoggle)
  · intro htype
    have hlook : t.lookup ptEntryFwCpu0 = some e0 := by simp [PtTable.lookup, he, htype]
    -- entry 0 is the firmware, before and after
    have hnext : t.nextAge.entries = e0 :: es := he
    have hlook' : t.nextAge.toggle0.lookup ptEntryFwCpu0 = some e0.toggle := by
      rw [lookup_toggle0 _ hnext, if_pos htype]
    refine ⟨hget, ⟨e0, (lookupActive_eq_iff hsel).2 hlook, haddr⟩,
      ⟨e0.toggle, (lookupActive_eq_iff hsel').2 hlook', ?_⟩, ⟨t, _, hsel, hsel', ?_⟩⟩
    · rw [haddr, toggle_activeAddress]
    · intro i hi
      have h0 : t.entries.findIdx? (fun e => e.type = ptEntryFwCpu0) = some 0 := by
        rw [he]
        simp [List.findIdx?_cons, htype]
      cases i with
      | zero => exact absurd h0 hi
      | succ i => simp [PtTable.toggle0, PtTable.nextAge, he]

/-! ## At the last age -/

/-- At the last age the update is lost, and the two sides agree exactly when the addresses
happen to coincide. -/
theorem slotAgreement_of_last_age {flash : Mem} {t : PtTable} {e0 e : PtTableEntry}
    {es : List PtTableEntry} (flashCfg : SpiFlashCfg) (para : PtTableIapParam)
    (hsel : selectedTable flash = some t) (he : t.entries = e0 :: es)
    (hfw : t.lookup ptEntryFwCpu0 = some e) (hage : t.age = 2 ^ 32 - 1) :
    SlotAgreement flashCfg flash para ↔
      e0.inactiveAddress = e.inactiveAddress ∧ e0.inactiveAddress = e.activeAddress := by
  have hsel' := age_wrap_selects_old hsel hage (switchSlotUpdate_success flashCfg para hsel)
  obtain ⟨hget, haddr⟩ := iapStartAddr_eq hsel he para
  constructor
  · intro h
    obtain ⟨e1, h1, hin⟩ := h.inactive_slot
    obtain ⟨e2, h2, hact⟩ := h.active_slot
    rw [lookupActive_eq_iff hsel, hfw] at h1
    rw [lookupActive_eq_iff hsel', hfw] at h2
    obtain rfl : e = e1 := Option.some.inj h1
    obtain rfl : e = e2 := Option.some.inj h2
    rw [haddr] at hin hact
    exact ⟨hin, hact.symm⟩
  · rintro ⟨hin, hact⟩
    refine ⟨hget, ⟨e, (lookupActive_eq_iff hsel).2 hfw, by rw [haddr, hin]⟩,
      ⟨e, (lookupActive_eq_iff hsel').2 hfw, by rw [haddr, hact]⟩,
      ⟨t, t, hsel, hsel', fun _ _ => rfl⟩⟩

/-! ## When the two sides agree -/

/-- The firmware is entry 0 and the age can be counted up; or the age cannot be counted up
and the inactive slot of entry 0 has the address of both slots of the firmware. -/
def SlotCondition (t : PtTable) : Prop :=
  ∃ e0 e, t.entries.head? = some e0 ∧ t.lookup ptEntryFwCpu0 = some e ∧
    ((e0.type = ptEntryFwCpu0 ∧ t.age ≠ 2 ^ 32 - 1) ∨
      (t.age = 2 ^ 32 - 1 ∧ e0.inactiveAddress = e.inactiveAddress ∧
        e0.inactiveAddress = e.activeAddress))

theorem age_le {flash : Mem} {t : PtTable} (h : selectedTable flash = some t) :
    t.age ≤ 2 ^ 32 - 1 := by
  obtain ⟨b, -, -, rfl⟩ := selectedTable_eq_some h
  exact Nat.le_of_lt_succ (le_lt (ptCopy flash b) 8 4)

theorem exists_first_entry {t : PtTable} {type : ℕ} (h : (t.lookup type).isSome) :
    ∃ e0 es, t.entries = e0 :: es := by
  cases he : t.entries with
  | nil =>
    rw [PtTable.lookup, he] at h
    cases h
  | cons e0 es => exact ⟨e0, es, rfl⟩

/-- **Slot agreement.**  On every flash whose active table has an entry for the firmware,
the updater and the boot loader agree exactly under `SlotCondition`. -/
theorem slotAgreement_iff {flash : Mem} {t : PtTable} (flashCfg : SpiFlashCfg)
    (para : PtTableIapParam) (hsel : selectedTable flash = some t)
    (hfw : (t.lookup ptEntryFwCpu0).isSome) :
    SlotAgreement flashCfg flash para ↔ SlotCondition t := by
  obtain ⟨e0, es, he⟩ := exists_first_entry hfw
  obtain ⟨e, hlook⟩ := Option.isSome_iff_exists.1 hfw
  have hhead : t.entries.head? = some e0 := by rw [he]; rfl
  have hle := age_le hsel
  by_cases hage : t.age = 2 ^ 32 - 1
  · rw [slotAgreement_of_last_age flashCfg para hsel he hlook hage]
    constructor
    · intro h
      exact ⟨e0, e, hhead, hlook, .inr ⟨hage, h⟩⟩
    · rintro ⟨e0', e', h0, h1, ⟨-, hne⟩ | ⟨-, h⟩⟩
      · exact absurd hage hne
      · obtain rfl : e0 = e0' := Option.some.inj (hhead.symm.trans h0)
        obtain rfl : e = e' := Option.some.inj (hlook.symm.trans h1)
        exact h
  · rw [slotAgreement_of_age_lt flashCfg para hsel he (by omega)]
    constructor
    · intro h
      exact ⟨e0, e, hhead, hlook, .inl ⟨h, hage⟩⟩
    · rintro ⟨e0', e', h0, -, ⟨htype, -⟩ | ⟨hlast, -⟩⟩
      · obtain rfl : e0 = e0' := Option.some.inj (hhead.symm.trans h0)
        exact htype
      · exact absurd hlast hage

/-- An entry with the given type and two slots of `len` bytes. -/
def slotEntry (type : UInt8) (addr0 addr1 len : ℕ) : PtTableEntry where
  bytes := type :: List.replicate 11 0 ++ leBytes 4 addr0 ++ leBytes 4 addr1 ++ leBytes 4 len
    ++ leBytes 4 len ++ List.replicate 8 0
  size := by simp [ptTableEntryConfigSize]

/-- A table whose only entry is the firmware. -/
def firmwareOnly : PtTableStuff := tableStuff 0 [slotEntry 0 0x2F000 0xF9000 0xca000]

/-- A table whose second entry is the firmware. -/
def firmwareSecond : PtTableStuff :=
  tableStuff 0 [slotEntry 1 0x1C3000 0x1E3000 0x20000, slotEntry 0 0x2F000 0xF9000 0xca000]

/-- With the firmware as the only entry, the two sides agree. -/
theorem slotAgreement_firmwareOnly :
    SlotAgreement ⟨true, true⟩ (tableFlash firmwareOnly) ⟨0, 0, 0, 0, 0⟩ := by
  have hsel : selectedTable (tableFlash firmwareOnly) = some (ptTable firmwareOnly) :=
    selectedTable_tableFlash (by decide +kernel) (by decide +kernel)
  refine (slotAgreement_iff ⟨true, true⟩ ⟨0, 0, 0, 0, 0⟩ hsel (by decide +kernel)).2 ?_
  refine ⟨slotEntry 0 0x2F000 0xF9000 0xca000, slotEntry 0 0x2F000 0xF9000 0xca000, by decide +kernel,
    by decide +kernel, .inl ⟨by decide, by decide +kernel⟩⟩

/-- With the firmware as the second entry, they do not: the updater takes the slot of the
first entry. -/
theorem slotAgreement_fails_firmwareSecond :
    selectedTable (tableFlash firmwareSecond) = some (ptTable firmwareSecond) ∧
      ((ptTable firmwareSecond).lookup ptEntryFwCpu0).isSome ∧
      ¬ SlotAgreement ⟨true, true⟩ (tableFlash firmwareSecond) ⟨0, 0, 0, 0, 0⟩ := by
  have hsel : selectedTable (tableFlash firmwareSecond) = some (ptTable firmwareSecond) :=
    selectedTable_tableFlash (by decide +kernel) (by decide +kernel)
  have hentries : (ptTable firmwareSecond).entries
      = [slotEntry 1 0x1C3000 0x1E3000 0x20000, slotEntry 0 0x2F000 0xF9000 0xca000] := by decide +kernel
  refine ⟨hsel, by decide +kernel, fun h => ?_⟩
  rw [slotAgreement_of_age_lt ⟨true, true⟩ ⟨0, 0, 0, 0, 0⟩ hsel hentries (by decide +kernel)] at h
  exact absurd h (by decide)

end Partition
