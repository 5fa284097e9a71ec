import LegoTrain.Partition.Table

/-!
# Updating the partition table

`pt_table_update_entry`, `pt_table_get_iap_para` and `pt_table_set_iap_para`: each takes
the active table, changes it in RAM, stores the next age and both CRCs, and writes it to
a table copy.

* `ptTable_placeEntry`, `ptTable_toggleEntry0`, `ptTable_bumpAge`, `ptTable_storeCrcs` say
  what each change in RAM does to the content of the table, in terms of
  `PtTable.place` and `PtTable.toggle0`;
* `ptTableValid_storeCrcs` : what is written back is valid;
* `writeBack_spec` : what an erase and a write of a table copy leave in flash, however
  they are interrupted.
-/

namespace Partition

open ByteMem Flash SoftCrc PtTableStuff

/-! ## The functions of the source -/

/-- The loop of `pt_table_update_entry` and what follows it: replace the entry with the
same type, or append the entry; `none` when the table is full. -/
def placeEntry (ptStuff : PtTableStuff) (ptEntry : PtTableEntry) : Option PtTableStuff :=
  match findEntry ptStuff ptEntry.type with
  | some i => some (write ptStuff (entryOffset i) ptEntry.bytes)
  | none =>
    if entryCnt ptStuff < ptEntryMax then
      some (write (write ptStuff (entryOffset (entryCnt ptStuff)) ptEntry.bytes) 6
        (leBytes 2 (entryCnt ptStuff + 1)))
    else none

/-- `pt_table->age++`. -/
def bumpAge (ptStuff : PtTableStuff) : PtTableStuff := write ptStuff 8 (leBytes 4 (age ptStuff + 1))

/-- The two CRCs are stored, that of the header and that of the entries. -/
def storeCrcs (ptStuff : PtTableStuff) : PtTableStuff :=
  let ptStuff := write ptStuff 12 (leBytes 4 (bflbSoftCrc32 (read ptStuff 0 (ptTableConfigSize - 4))))
  write ptStuff (ptTableConfigSize + entriesLen ptStuff)
    (leBytes 4 (bflbSoftCrc32 (read ptStuff ptTableConfigSize (entriesLen ptStuff))))

/-- `!(active_index & 0x01)`. -/
def notIndex (activeIndex : ℕ) : ℕ := if activeIndex % 2 = 0 then 1 else 0

/-- `pt_entries[0].active_index = !(pt_entries[0].active_index & 0x01)`. -/
def toggleEntry0 (ptStuff : PtTableStuff) : PtTableStuff :=
  write ptStuff (entryOffset 0 + 2) [UInt8.ofNat (notIndex (ptEntry ptStuff 0).activeIndex)]

/-- The erase and the write of a table copy, with the error code of a failed erase. -/
def writeBack (d : Device) (addr eraseLen : ℕ) (ptStuff : PtTableStuff)
    (eraseError : PtTableError) : Device × PtTableError :=
  match flashErase d addr eraseLen with
  | (d, .error) => (d, eraseError)
  | (d, .success) =>
    match flashWrite d addr (read ptStuff 0 ptTableStuffConfigSize) with
    | (d, .error) => (d, .falshWrite)
    | (d, .success) => (d, .success)

/-- `pt_table_update_entry`: the device, the caller's buffer and the error code. -/
def ptTableUpdateEntry (d : Device) (targetTableId : PtTableId) (ptStuff : PtTableStuff)
    (ptEntry : PtTableEntry) : Device × PtTableStuff × PtTableError :=
  match targetTableId with
  | .invalid => (d, ptStuff, .tableNotValid)
  | _ =>
    let writeAddr := if targetTableId = .id0 then bflbPtTable0Address else bflbPtTable1Address
    match placeEntry ptStuff ptEntry with
    | none => (d, ptStuff, .entryUpdateFail)
    | some ptStuff =>
      let ptStuff := storeCrcs (bumpAge ptStuff)
      let (d, err) := writeBack d writeAddr (ptTableConfigSize + entriesLen ptStuff + 4) ptStuff
        .falshWrite
      (d, ptStuff, err)

/-- `pt_table_iap_param_type`. -/
structure PtTableIapParam where
  iapStartAddr : ℕ
  iapWriteAddr : ℕ
  iapImgLen : ℕ
  inactiveIndex : ℕ
  inactiveTableIndex : ℕ
  deriving DecidableEq, Repr

/-- The parameters that entry 0 of the active table gives. -/
def iapParaOf (ptStuff : PtTableStuff) (inactiveTableIndex : ℕ) (para : PtTableIapParam) :
    PtTableIapParam :=
  let activeIndex := (ptEntry ptStuff 0).activeIndex
  let addr := (ptEntry ptStuff 0).startAddress (notIndex activeIndex)
  { iapStartAddr := addr
    iapWriteAddr := addr
    iapImgLen := para.iapImgLen
    inactiveIndex := notIndex activeIndex
    inactiveTableIndex := inactiveTableIndex }

/-- `pt_table_get_iap_para`. -/
def ptTableGetIapPara (flash : Mem) (para : PtTableIapParam) : PtTableError × PtTableIapParam :=
  let ptStuff0 := readPtStuff flash bflbPtTable0Address
  let ptStuff1 := readPtStuff flash bflbPtTable1Address
  if ptTableValid ptStuff0 = true ∧ ptTableValid ptStuff1 = true then
    if age ptStuff0 ≥ age ptStuff1 then (.success, iapParaOf ptStuff0 1 para)
    else (.success, iapParaOf ptStuff1 0 para)
  else if ptTableValid ptStuff1 then (.success, iapParaOf ptStuff1 0 para)
  else if ptTableValid ptStuff0 then (.success, iapParaOf ptStuff0 1 para)
  else (.tableNotValid, para)

/-- `pt_table_set_iap_para`.  With an `inactive_table_index` other than 0 and 1 nothing
is read and nothing is written. -/
def ptTableSetIapPara (d : Device) (para : PtTableIapParam) : Device × PtTableError :=
  match para.inactiveTableIndex with
  | 1 =>
    let ptStuffWrite := storeCrcs (toggleEntry0 (bumpAge (readPtStuff d.mem bflbPtTable0Address)))
    writeBack d bflbPtTable1Address ptTableStuffConfigSize ptStuffWrite .falshErase
  | 0 =>
    let ptStuffWrite := storeCrcs (toggleEntry0 (bumpAge (readPtStuff d.mem bflbPtTable1Address)))
    writeBack d bflbPtTable0Address ptTableStuffConfigSize ptStuffWrite .falshErase
  | _ => (d, .success)

/-! ## What the changes do to the content -/

/-- The content with an entry replaced or appended. -/
def PtTable.place (t : PtTable) (e : PtTableEntry) : Option PtTable :=
  match t.entries.findIdx? fun x => x.type = e.type with
  | some i => some { t with entries := t.entries.set i e }
  | none =>
    if t.entryCnt < ptEntryMax then
      some { t with entryCnt := t.entryCnt + 1, entries := t.entries ++ [e] }
    else none

/-- The entry with the other slot active. -/
def PtTableEntry.toggle (e : PtTableEntry) : PtTableEntry :=
  e.setActiveIndex (UInt8.ofNat (notIndex e.activeIndex))

/-- The content with the other slot of entry 0 active. -/
def PtTable.toggle0 (t : PtTable) : PtTable :=
  { t with entries := t.entries.modifyHead PtTableEntry.toggle }

/-- The content with the next age. -/
def PtTable.nextAge (t : PtTable) : PtTable := { t with age := u32 (t.age + 1) }

/-- The loop finds the entry that a search of the content finds. -/
theorem findEntry_eq (s : PtTableStuff) (type : ℕ) :
    findEntry s type = (ptTable s).entries.findIdx? fun e => e.type = type := by
  refine Option.ext fun i => ?_
  rw [List.findIdx?_eq_some_iff_getElem]
  simp only [findEntry, List.find?_range_eq_some, ptTable, List.length_map, List.length_range,
    List.getElem_map, List.getElem_range, List.mem_range, Bool.not_eq_true]
  constructor
  · rintro ⟨hp, hi, hall⟩
    exact ⟨hi, hp, fun j hj => by simpa using hall j hj⟩
  · rintro ⟨hi, hp, hall⟩
    exact ⟨hp, hi, fun j hj => by simpa using hall j hj⟩

theorem ptEntry_write_disjoint {s : PtTableStuff} {a i : ℕ} {bs : List UInt8}
    (h : entryOffset i + ptTableEntryConfigSize ≤ a ∨ a + bs.length ≤ entryOffset i) :
    ptEntry (write s a bs) i = ptEntry s i := by
  rw [ptEntry, ptEntry, PtTableEntry.mk.injEq, read_write_disjoint h]

theorem ptEntry_write_same (s : PtTableStuff) (i : ℕ) (e : PtTableEntry) :
    ptEntry (write s (entryOffset i) e.bytes) i = e := by
  have h := read_write_same s (entryOffset i) e.bytes
  rw [e.size] at h
  rw [ptEntry]
  congr

/-- A write to the header, below its CRC, or above the entries leaves the entries alone. -/
theorem entries_write_disjoint {s : PtTableStuff} {a n : ℕ} {bs : List UInt8}
    (h : a + bs.length ≤ ptTableConfigSize ∨ entryOffset n ≤ a) :
    (List.range n).map (ptEntry (write s a bs)) = (List.range n).map (ptEntry s) := by
  refine List.map_congr_left fun i hi => ptEntry_write_disjoint ?_
  have hi : i < n := by simpa using hi
  unfold entryOffset ptTableConfigSize ptTableEntryConfigSize at *
  omega

/-- The content of a buffer, field by field. -/
theorem ptTable_eq {s : PtTableStuff} {t : PtTable} (hmagic : magicCode s = t.magicCode)
    (hversion : version s = t.version) (hcnt : entryCnt s = t.entryCnt) (hage : age s = t.age)
    (hentries : (List.range (entryCnt s)).map (ptEntry s) = t.entries) : ptTable s = t := by
  cases t
  simp only at hmagic hversion hcnt hage hentries
  subst hmagic hversion hcnt hage hentries
  rfl

/-- A write behind the header leaves the header alone. -/
theorem le_write_body {s : PtTableStuff} {a o w : ℕ} {bs : List UInt8}
    (ha : ptTableConfigSize ≤ a) (ho : o + w ≤ ptTableConfigSize) :
    le (write s a bs) o w = le s o w :=
  le_write_disjoint (.inl (by omega))

theorem ptTableConfigSize_le_entryOffset (i : ℕ) : ptTableConfigSize ≤ entryOffset i :=
  Nat.le_add_right _ _

section BumpAge

variable (s : PtTableStuff)

@[simp] theorem entryCnt_bumpAge : entryCnt (bumpAge s) = entryCnt s :=
  le_write_disjoint (by simp)

@[simp] theorem magicCode_bumpAge : magicCode (bumpAge s) = magicCode s :=
  le_write_disjoint (by simp)

@[simp] theorem version_bumpAge : version (bumpAge s) = version s :=
  le_write_disjoint (by simp)

@[simp] theorem age_bumpAge : age (bumpAge s) = u32 (age s + 1) :=
  le_write_same s 8 4 _

/-- Counting the age up changes the age only, modulo `2 ^ 32`. -/
theorem ptTable_bumpAge : ptTable (bumpAge s) = (ptTable s).nextAge := by
  have hentries : (List.range (entryCnt s)).map (ptEntry (bumpAge s))
      = (List.range (entryCnt s)).map (ptEntry s) :=
    entries_write_disjoint (by simp [ptTableConfigSize])
  simp only [ptTable, PtTable.nextAge, entryCnt_bumpAge, magicCode_bumpAge, version_bumpAge,
    age_bumpAge, hentries]

end BumpAge

section StoreCrcs

variable (s : PtTableStuff)

/-- The buffer after the first of the two CRCs is stored. -/
def storeHeaderCrc : PtTableStuff :=
  write s 12 (leBytes 4 (bflbSoftCrc32 (read s 0 (ptTableConfigSize - 4))))

theorem entryCnt_storeHeaderCrc : entryCnt (storeHeaderCrc s) = entryCnt s :=
  le_write_disjoint (by simp)

theorem storeCrcs_eq : storeCrcs s = write (storeHeaderCrc s) (ptTableConfigSize + entriesLen s)
    (leBytes 4 (bflbSoftCrc32 (read (storeHeaderCrc s) ptTableConfigSize (entriesLen s)))) := by
  have h : entriesLen (storeHeaderCrc s) = entriesLen s := by
    rw [entriesLen, entriesLen, entryCnt_storeHeaderCrc]
  rw [← h]
  rfl

/-- Storing the CRCs touches neither of the fields below `12`. -/
theorem le_storeCrcs {o w : ℕ} (h : o + w ≤ 12) : le (storeCrcs s) o w = le s o w := by
  rw [storeCrcs_eq, le_write_disjoint (by unfold ptTableConfigSize; omega), storeHeaderCrc,
    le_write_disjoint (by omega)]

@[simp] theorem entryCnt_storeCrcs : entryCnt (storeCrcs s) = entryCnt s :=
  le_storeCrcs s (by decide)

@[simp] theorem magicCode_storeCrcs : magicCode (storeCrcs s) = magicCode s :=
  le_storeCrcs s (by decide)

@[simp] theorem age_storeCrcs : age (storeCrcs s) = age s :=
  le_storeCrcs s (by decide)

@[simp] theorem entriesLen_storeCrcs : entriesLen (storeCrcs s) = entriesLen s := by
  rw [entriesLen, entriesLen, entryCnt_storeCrcs]

/-- Storing the CRCs leaves the content alone. -/
theorem ptTable_storeCrcs : ptTable (storeCrcs s) = ptTable s := by
  have hentries : (List.range (entryCnt s)).map (ptEntry (storeCrcs s))
      = (List.range (entryCnt s)).map (ptEntry s) := by
    have hend : entryOffset (entryCnt s) ≤ ptTableConfigSize + entriesLen s := Nat.le_refl _
    rw [storeCrcs_eq, entries_write_disjoint (.inr hend), storeHeaderCrc,
      entries_write_disjoint (.inl (by simp [ptTableConfigSize]))]
  have hversion : version (storeCrcs s) = version s := le_storeCrcs s (by decide)
  simp only [ptTable, entryCnt_storeCrcs, magicCode_storeCrcs, age_storeCrcs, hversion, hentries]

/-- A table with its CRCs stored is valid. -/
theorem ptTableValid_storeCrcs (hmagic : magicCode s = bflbPtMagicCode)
    (hcnt : entryCnt s ≤ ptEntryMax) : ptTableValid (storeCrcs s) = true := by
  have hcrc : crc32 (storeCrcs s)
      = bflbSoftCrc32 (read (storeCrcs s) 0 (ptTableConfigSize - 4)) := by
    have hread : read (storeCrcs s) 0 (ptTableConfigSize - 4)
        = read s 0 (ptTableConfigSize - 4) := by
      rw [storeCrcs_eq, read_write_disjoint (by unfold ptTableConfigSize; omega), storeHeaderCrc,
        read_write_disjoint (by unfold ptTableConfigSize; omega)]
    rw [hread, crc32, storeCrcs_eq, le_write_disjoint (by unfold ptTableConfigSize; omega),
      storeHeaderCrc, le_write_same, Nat.mod_eq_of_lt (bflbSoftCrc32_lt _)]
  have hentries : le (storeCrcs s) (ptTableConfigSize + entriesLen s) 4
      = bflbSoftCrc32 (read (storeCrcs s) ptTableConfigSize (entriesLen s)) := by
    rw [storeCrcs_eq, le_write_same, Nat.mod_eq_of_lt (bflbSoftCrc32_lt _),
      read_write_disjoint (.inl (Nat.le_refl _))]
  unfold ptTableValid
  rw [magicCode_storeCrcs, if_pos hmagic, entryCnt_storeCrcs, if_neg (by omega), entriesLen_storeCrcs,
    if_neg (not_not_intro hcrc), if_neg (not_not_intro hentries)]

end StoreCrcs

section PlaceEntry

variable {s s' : PtTableStuff} {e : PtTableEntry}

/-- Writing an entry in use replaces it in the content. -/
theorem ptTable_write_entry (i : ℕ) (e : PtTableEntry) :
    ptTable (write s (entryOffset i) e.bytes)
      = { ptTable s with entries := (ptTable s).entries.set i e } := by
  have hoff := ptTableConfigSize_le_entryOffset i
  have hcnt : entryCnt (write s (entryOffset i) e.bytes) = entryCnt s :=
    le_write_body hoff (by decide)
  refine ptTable_eq (le_write_body hoff (by decide)) (le_write_body hoff (by decide)) hcnt
    (le_write_body hoff (by decide)) ?_
  rw [hcnt]
  refine List.ext_getElem (by simp [ptTable]) fun j h1 h2 => ?_
  rw [List.getElem_set]
  by_cases hij : i = j
  · subst hij
    simp [ptEntry_write_same]
  · simp only [ptTable, List.getElem_map, List.getElem_range, if_neg hij]
    refine ptEntry_write_disjoint ?_
    rw [e.size]
    unfold entryOffset ptTableEntryConfigSize
    omega

/-- Writing an entry behind the last one and counting it appends it to the content. -/
theorem ptTable_append_entry (e : PtTableEntry) (hlt : entryCnt s < ptEntryMax) :
    ptTable (write (write s (entryOffset (entryCnt s)) e.bytes) 6 (leBytes 2 (entryCnt s + 1)))
      = { ptTable s with
          entryCnt := entryCnt s + 1, entries := (ptTable s).entries ++ [e] } := by
  have hoff := ptTableConfigSize_le_entryOffset (entryCnt s)
  have hcnt : entryCnt (write (write s (entryOffset (entryCnt s)) e.bytes) 6
      (leBytes 2 (entryCnt s + 1))) = entryCnt s + 1 := by
    unfold ptEntryMax at hlt
    rw [entryCnt, le_write_same, Nat.mod_eq_of_lt (by omega)]
  refine ptTable_eq ?_ ?_ hcnt ?_ ?_
  · rw [magicCode, le_write_disjoint (by simp), le_write_body hoff (by decide)]
    rfl
  · rw [version, le_write_disjoint (by simp), le_write_body hoff (by decide)]
    rfl
  · rw [age, le_write_disjoint (by simp), le_write_body hoff (by decide)]
    rfl
  · rw [hcnt, entries_write_disjoint (.inl (by simp [ptTableConfigSize])), List.range_succ,
      List.map_append, entries_write_disjoint (.inr (Nat.le_refl _)), List.map_singleton,
      ptEntry_write_same]
    rfl

/-- Replacing or appending the entry in the buffer does so in the content. -/
theorem ptTable_placeEntry : (placeEntry s e).map ptTable = (ptTable s).place e := by
  unfold placeEntry PtTable.place
  rw [← findEntry_eq]
  cases hf : findEntry s e.type with
  | some i => exact congrArg some (ptTable_write_entry i e)
  | none =>
    by_cases hlt : entryCnt s < ptEntryMax
    · have hlt' : (ptTable s).entryCnt < ptEntryMax := hlt
      rw [if_pos hlt, if_pos hlt', Option.map_some, ptTable_append_entry e hlt]
      rfl
    · have hlt' : ¬ (ptTable s).entryCnt < ptEntryMax := hlt
      rw [if_neg hlt, if_neg hlt', Option.map_none]

theorem placeEntry_magicCode (h : placeEntry s e = some s') : magicCode s' = magicCode s := by
  have ht : (ptTable s).place e = some (ptTable s') := by rw [← ptTable_placeEntry, h]; rfl
  unfold PtTable.place at ht
  split at ht
  · exact (congrArg PtTable.magicCode (Option.some.inj ht)).symm
  split at ht
  · exact (congrArg PtTable.magicCode (Option.some.inj ht)).symm
  · cases ht

theorem placeEntry_age (h : placeEntry s e = some s') : age s' = age s := by
  have ht : (ptTable s).place e = some (ptTable s') := by rw [← ptTable_placeEntry, h]; rfl
  unfold PtTable.place at ht
  split at ht
  · exact (congrArg PtTable.age (Option.some.inj ht)).symm
  split at ht
  · exact (congrArg PtTable.age (Option.some.inj ht)).symm
  · cases ht

theorem placeEntry_entryCnt (h : placeEntry s e = some s') (hs : entryCnt s ≤ ptEntryMax) :
    entryCnt s' ≤ ptEntryMax := by
  have ht : (ptTable s).place e = some (ptTable s') := by rw [← ptTable_placeEntry, h]; rfl
  unfold PtTable.place at ht
  split at ht
  · have hcnt : entryCnt s = entryCnt s' := congrArg PtTable.entryCnt (Option.some.inj ht)
    rwa [← hcnt]
  split at ht
  · rename_i hlt
    have hcnt : entryCnt s + 1 = entryCnt s' := congrArg PtTable.entryCnt (Option.some.inj ht)
    rw [← hcnt]
    exact hlt
  · cases ht

/-- Looking up the type of the entry that was placed yields that entry. -/
theorem PtTable.lookup_place {t t' : PtTable} {e : PtTableEntry} (h : t.place e = some t') :
    t'.lookup e.type = some e := by
  unfold PtTable.place at h
  split at h
  · rename_i i hf
    obtain ⟨hi, -, hbefore⟩ := List.findIdx?_eq_some_iff_getElem.1 hf
    cases h
    refine List.find?_eq_some_iff_getElem.2 ⟨by simp, i, by simpa using hi, by simp, ?_⟩
    intro j hj
    have hne := hbefore j hj
    rw [List.getElem_set_ne (by omega)]
    simpa using hne
  · rename_i hf
    split at h
    · cases h
      have hnone : t.entries.find? (fun x => decide (x.type = e.type)) = none := by
        rw [List.find?_eq_none]
        rw [List.findIdx?_eq_none_iff] at hf
        intro x hx
        simpa using hf x hx
      simp [PtTable.lookup, List.find?_append, hnone]
    · cases h

end PlaceEntry

section ToggleEntry0

variable (s : PtTableStuff)

/-- Toggling the byte of `active_index` is writing back entry 0, toggled. -/
theorem toggleEntry0_eq :
    toggleEntry0 s = write s (entryOffset 0) (ptEntry s 0).toggle.bytes :=
  write_byte_eq (show 2 < ptTableEntryConfigSize by decide) _

/-- Toggling entry 0 in the buffer does so in the content. -/
theorem ptTable_toggleEntry0 : ptTable (toggleEntry0 s) = (ptTable s).toggle0 := by
  rw [toggleEntry0_eq, ptTable_write_entry, PtTable.toggle0]
  cases hn : entryCnt s with
  | zero => simp [ptTable, hn]
  | succ n => simp [ptTable, hn, List.range_succ_eq_map]

end ToggleEntry0

/-! ## The active table, as the update functions find it -/

/-- `pt_table_get_iap_para` takes its parameters from the copy in force. -/
theorem ptTableGetIapPara_eq (flash : Mem) (para : PtTableIapParam) :
    ptTableGetIapPara flash para
      = match DualCopy.active (ptStore flash) with
        | some b => (.success, iapParaOf (ptCopy flash b) (if b then 0 else 1) para)
        | none => (.tableNotValid, para) := by
  have h0 : readPtStuff flash bflbPtTable0Address = ptCopy flash false := rfl
  have h1 : readPtStuff flash bflbPtTable1Address = ptCopy flash true := rfl
  unfold ptTableGetIapPara
  simp only [h0, h1, DualCopy.active, ptStore]
  by_cases hv0 : ptTableValid (ptCopy flash false) <;>
    by_cases hv1 : ptTableValid (ptCopy flash true) <;> simp [hv0, hv1]
  by_cases hage : age (ptCopy flash true) ≤ age (ptCopy flash false) <;> simp [hage]

/-- `pt_table_set_iap_para` writes the other copy than the one it was given. -/
theorem ptTableSetIapPara_eq (d : Device) (b : Bool) {para : PtTableIapParam}
    (h : para.inactiveTableIndex = if b then 0 else 1) :
    ptTableSetIapPara d para
      = writeBack d (tableAddress !b) ptTableStuffConfigSize
          (storeCrcs (toggleEntry0 (bumpAge (ptCopy d.mem b)))) .falshErase := by
  unfold ptTableSetIapPara
  rw [h]
  cases b <;> rfl

/-- `pt_table_update_entry` on the copy that is not in force. -/
theorem ptTableUpdateEntry_eq (d : Device) (b : Bool) (s : PtTableStuff) (e : PtTableEntry) :
    ptTableUpdateEntry d (tableId b) s e
      = match placeEntry s e with
        | none => (d, s, .entryUpdateFail)
        | some s =>
          ((writeBack d (tableAddress b) (usedLen (storeCrcs (bumpAge s))) (storeCrcs (bumpAge s))
              .falshWrite).1, storeCrcs (bumpAge s),
            (writeBack d (tableAddress b) (usedLen (storeCrcs (bumpAge s))) (storeCrcs (bumpAge s))
              .falshWrite).2) := by
  unfold ptTableUpdateEntry
  cases b <;> cases placeEntry s e <;> rfl

/-! ## What a write-back leaves in flash -/

theorem sectorStart_tableAddress (b : Bool) : sectorStart (tableAddress b) = tableAddress b := by
  cases b <;> rfl

theorem tableAddress_sector_lt (b : Bool) : tableAddress b + sectorSize < 2 ^ 32 := by
  cases b <;> decide

/-- However it is interrupted, a write-back leaves the array as it was, or with the sector
of the copy erased and a prefix of the new table in it, the whole table when it reports
success. -/
theorem writeBack_spec (d : Device) (b : Bool) {eraseLen : ℕ} (s : PtTableStuff)
    {err : PtTableError} (herr : err ≠ .success) (hlen : 0 < eraseLen)
    (hlen' : eraseLen ≤ sectorSize) :
    ((writeBack d (tableAddress b) eraseLen s err).1.mem = d.mem ∧
      (writeBack d (tableAddress b) eraseLen s err).2 ≠ .success) ∨
    ∃ n, (writeBack d (tableAddress b) eraseLen s err).1.mem
        = write (Nor.erase d.mem (tableAddress b) (tableAddress b + sectorSize)) (tableAddress b)
            ((read s 0 ptTableStuffConfigSize).take n) ∧
      ((writeBack d (tableAddress b) eraseLen s err).2 = .success →
        n = ptTableStuffConfigSize) := by
  have hsec := flashErase_sector d (sectorStart_tableAddress b) hlen hlen'
    (tableAddress_sector_lt b)
  unfold writeBack
  generalize flashErase d (tableAddress b) eraseLen = r at hsec
  obtain ⟨d', ret⟩ := r
  cases ret with
  | error =>
    rcases hsec with ⟨hm, -⟩ | hm
    · exact .inl ⟨hm, herr⟩
    · refine .inr ⟨0, ?_, fun h => absurd h herr⟩
      rw [List.take_zero, write_nil]
      exact hm
  | success =>
    have hm : d'.mem = Nor.erase d.mem (tableAddress b) (tableAddress b + sectorSize) := by
      rcases hsec with ⟨-, h⟩ | hm
      · cases h
      · exact hm
    obtain ⟨n, hw, hs⟩ := flashWrite_mem d' (tableAddress b) (read s 0 ptTableStuffConfigSize)
    have hfit : ((read s 0 ptTableStuffConfigSize).take n).length ≤ ptTableStuffConfigSize := by
      rw [List.length_take, length_read]
      exact Nat.min_le_right _ _
    have hblank : Nor.Blank d'.mem (tableAddress b)
        (tableAddress b + ((read s 0 ptTableStuffConfigSize).take n).length) := by
      rw [hm]
      refine (Nor.blank_erase _ _ _).mono (Nat.le_refl _) ?_
      have : ptTableStuffConfigSize ≤ sectorSize := by decide
      omega
    have haddr := tableAddress_le b
    rw [sflashProgram_eq (by omega), Nor.program_of_blank hblank, hm] at hw
    rw [length_read] at hs
    right
    simp only
    generalize flashWrite d' (tableAddress b) (read s 0 ptTableStuffConfigSize) = r at hw hs
    obtain ⟨d'', ret⟩ := r
    cases ret with
    | error => exact ⟨n, hw, fun h => by cases h⟩
    | success => exact ⟨n, hw, fun _ => hs rfl⟩

/-- A write-back that nothing disturbs reports success. -/
theorem writeBack_ok {d : Device} (b : Bool) {eraseLen : ℕ} (s : PtTableStuff)
    (err : PtTableError) (hrun : d.running = true) (hf : d.faults = [.none, .none])
    (hlen : 0 < eraseLen) (hlen' : eraseLen ≤ sectorSize) :
    (writeBack d (tableAddress b) eraseLen s err).2 = .success := by
  have hend := sectorEnd_of_sector (sectorStart_tableAddress b) hlen hlen'
  have herase := flashErase_ok hrun (by rw [Device.fault, hf]; rfl) hlen
    (by rw [hend]; exact tableAddress_sector_lt b)
  have haddr := tableAddress_le b
  unfold writeBack
  rw [herase]
  simp only
  rw [flashWrite_ok (by exact hrun) (by rw [Device.fault, hf]; rfl) (by rw [length_read]; exact haddr)]

end Partition
