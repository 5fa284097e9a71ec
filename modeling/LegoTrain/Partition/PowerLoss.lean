import LegoTrain.Partition.Update
import LegoTrain.Lib.Transition

/-!
# Updates of the partition table and power loss

A run of table updates in which each erase and each write may fail or be cut off by a
power loss.  The flash is a two-copy store (`ptStore`), and one update of the code, with
whatever happens to it, is one update of that store (`ptStore_perform`).

* `Sound` of the store is the invariant of such runs (`sound_step`);
* `perform_atomic` : after an update the selected table is the previous one or the fully
  updated one, and the updated one when the update reported success;
* `runs_atomic` : the same after every run, as long as the age has not reached `2 ^ 32`;
* `age_wrap_selects_old` : at that age an update that reports success is lost.
-/

namespace Partition

open ByteMem Flash SoftCrc PtTableStuff

/-! ## Updates -/

/-- What an update asks for. -/
inductive Request
  /-- `pt_table_update_entry` with this entry -/
  | entry (e : PtTableEntry)
  /-- `pt_table_get_iap_para` into this record, then `pt_table_set_iap_para` with it -/
  | iap (para : PtTableIapParam)

/-- An update, and what happens to its erase and to its write. -/
structure Update where
  request : Request
  eraseFault : Fault
  writeFault : Fault

/-- The complement of a table id. -/
def PtTableId.complement : PtTableId → PtTableId
  | .id0 => .id1
  | .id1 => .id0
  | .invalid => .invalid

/-- The device right after a reset, with the faults of an update ahead. -/
def Update.device (u : Update) (flashCfg : SpiFlashCfg) (flash : Mem) : Device where
  flashCfg := flashCfg
  mem := flash
  running := true
  faults := [u.eraseFault, u.writeFault]

/-- The flash and the error code after an update. -/
def Update.perform (flashCfg : SpiFlashCfg) (u : Update) (flash : Mem) : Mem × PtTableError :=
  let d := u.device flashCfg flash
  match u.request with
  | .entry e =>
    let pt := ptTableGetActivePartitionNeedLock flash
    let active := if pt.2 = .id0 then pt.1.1 else pt.1.2
    let r := ptTableUpdateEntry d pt.2.complement active e
    (r.1.mem, r.2.2)
  | .iap para =>
    let get := ptTableGetIapPara flash para
    if get.1 = .success then
      let r := ptTableSetIapPara d get.2
      (r.1.mem, r.2)
    else (flash, get.1)

/-- The buffer that an update of the table in `ptStuff` writes back. -/
def Request.newStuff (ptStuff : PtTableStuff) : Request → Option PtTableStuff
  | .entry e => (placeEntry ptStuff e).map fun s => storeCrcs (bumpAge s)
  | .iap _ => some (storeCrcs (toggleEntry0 (bumpAge ptStuff)))

/-- The fully updated table. -/
def Request.updated (t : PtTable) : Request → Option PtTable
  | .entry e => (t.place e).map PtTable.nextAge
  | .iap _ => some t.nextAge.toggle0

/-- The entry that the updated table holds for the type the update is about. -/
def Request.updatedEntry (t : PtTable) : Request → Option PtTableEntry
  | .entry e => some e
  | .iap _ => t.entries.head?.map PtTableEntry.toggle

/-! ## What one update does -/

theorem newStuff_entry (s : PtTableStuff) (e : PtTableEntry) :
    (Request.entry e).newStuff s = (placeEntry s e).map fun s => storeCrcs (bumpAge s) := rfl

theorem newStuff_iap (s : PtTableStuff) (para : PtTableIapParam) :
    (Request.iap para).newStuff s = some (storeCrcs (toggleEntry0 (bumpAge s))) := rfl

theorem ptTableValid_spec {s : PtTableStuff} (h : ptTableValid s = true) :
    magicCode s = bflbPtMagicCode ∧ entryCnt s ≤ ptEntryMax := by
  unfold ptTableValid at h
  split at h
  · rename_i hmagic
    split at h
    · cases h
    · rename_i hcnt
      exact ⟨hmagic, Nat.not_lt.1 hcnt⟩
  · cases h

/-- What an update writes back is a valid table with the next age and the requested
content. -/
theorem newStuff_spec {s s' : PtTableStuff} {r : Request} (hv : ptTableValid s = true)
    (h : r.newStuff s = some s') : ptTableValid s' = true ∧ age s' = u32 (age s + 1) ∧
      r.updated (ptTable s) = some (ptTable s') := by
  obtain ⟨hmagic, hcnt⟩ := ptTableValid_spec hv
  cases r with
  | entry e =>
    obtain ⟨p, hp, rfl⟩ := Option.map_eq_some_iff.1 h
    have ht : (ptTable s).place e = some (ptTable p) := by rw [← ptTable_placeEntry, hp]; rfl
    refine ⟨ptTableValid_storeCrcs _ ?_ ?_, ?_, ?_⟩
    · rw [magicCode_bumpAge, placeEntry_magicCode hp, hmagic]
    · rw [entryCnt_bumpAge]
      exact placeEntry_entryCnt hp hcnt
    · rw [age_storeCrcs, age_bumpAge, placeEntry_age hp]
    · rw [Request.updated, ht, Option.map_some, ptTable_storeCrcs, ptTable_bumpAge]
  | iap para =>
    cases h
    have ht : ptTable (toggleEntry0 (bumpAge s)) = (ptTable s).nextAge.toggle0 := by
      rw [ptTable_toggleEntry0, ptTable_bumpAge]
    refine ⟨ptTableValid_storeCrcs _ ?_ ?_, ?_, ?_⟩
    · exact (congrArg PtTable.magicCode ht).trans hmagic
    · have h : entryCnt (toggleEntry0 (bumpAge s)) = entryCnt s := congrArg PtTable.entryCnt ht
      rwa [h]
    · rw [age_storeCrcs]
      exact congrArg PtTable.age ht
    · rw [Request.updated, ptTable_storeCrcs, ht]

/-- Looking up the type the update is about in the updated table yields the request. -/
theorem lookup_updated {t t' : PtTable} {r : Request} {e : PtTableEntry}
    (h : r.updated t = some t') (he : r.updatedEntry t = some e) :
    t'.lookup e.type = some e := by
  cases r with
  | entry e' =>
    obtain rfl : e' = e := Option.some.inj he
    obtain ⟨p, hp, rfl⟩ := Option.map_eq_some_iff.1 h
    have hl : p.lookup e'.type = some e' := PtTable.lookup_place hp
    exact hl
  | iap para =>
    cases h
    obtain ⟨x, hx, rfl⟩ := Option.map_eq_some_iff.1 he
    obtain ⟨xs, hxs⟩ := List.head?_eq_some_iff.1 hx
    simp [PtTable.lookup, PtTable.toggle0, PtTable.nextAge, hxs]

section Perform

variable (flashCfg : SpiFlashCfg) (u : Update) {flash : Mem} {b : Bool}
  (hb : DualCopy.active (ptStore flash) = some b)
include hb

theorem perform_entry {e : PtTableEntry} (hr : u.request = .entry e) :
    u.perform flashCfg flash
      = ((ptTableUpdateEntry (u.device flashCfg flash) (tableId !b) (ptCopy flash b) e).1.mem,
         (ptTableUpdateEntry (u.device flashCfg flash) (tableId !b) (ptCopy flash b) e).2.2) := by
  have hc : (tableId b).complement = tableId !b := by cases b <;> rfl
  have hs : (if tableId b = .id0 then ptCopy flash false else ptCopy flash true)
      = ptCopy flash b := by cases b <;> simp [tableId]
  simp only [Update.perform, hr, getActivePartition_of_active hb, hc, hs]

theorem perform_iap {para : PtTableIapParam} (hr : u.request = .iap para) :
    u.perform flashCfg flash
      = ((writeBack (u.device flashCfg flash) (tableAddress !b) ptTableStuffConfigSize
            (storeCrcs (toggleEntry0 (bumpAge (ptCopy flash b)))) .falshErase).1.mem,
         (writeBack (u.device flashCfg flash) (tableAddress !b) ptTableStuffConfigSize
            (storeCrcs (toggleEntry0 (bumpAge (ptCopy flash b)))) .falshErase).2) := by
  have h : ptTableSetIapPara (u.device flashCfg flash)
      (iapParaOf (ptCopy flash b) (if b then 0 else 1) para) = _ :=
    ptTableSetIapPara_eq (u.device flashCfg flash) b rfl
  simp only [Update.perform, hr, ptTableGetIapPara_eq, hb, h, if_true]
  rfl

/-- An update that has nothing to write does not touch the flash. -/
theorem perform_of_none (h : u.request.newStuff (ptCopy flash b) = none) :
    u.perform flashCfg flash = (flash, .entryUpdateFail) := by
  cases hr : u.request with
  | entry e =>
    rw [hr, newStuff_entry, Option.map_eq_none_iff] at h
    rw [perform_entry flashCfg u hb hr, ptTableUpdateEntry_eq, h]
    rfl
  | iap para =>
    rw [hr, newStuff_iap] at h
    cases h

/-- An update that has something to write is a write-back to the copy not in force. -/
theorem perform_of_some {s : PtTableStuff} (h : u.request.newStuff (ptCopy flash b) = some s)
    (hcnt : entryCnt s ≤ ptEntryMax) :
    ∃ eraseLen err, 0 < eraseLen ∧ eraseLen ≤ sectorSize ∧ err ≠ .success ∧
      u.perform flashCfg flash
        = ((writeBack (u.device flashCfg flash) (tableAddress !b) eraseLen s err).1.mem,
           (writeBack (u.device flashCfg flash) (tableAddress !b) eraseLen s err).2) := by
  cases hr : u.request with
  | entry e =>
    rw [hr, newStuff_entry, Option.map_eq_some_iff] at h
    obtain ⟨p, hp, rfl⟩ := h
    refine ⟨usedLen (storeCrcs (bumpAge p)), .falshWrite, Nat.succ_pos _, ?_, by decide, ?_⟩
    · unfold usedLen entriesLen ptTableConfigSize ptTableEntryConfigSize sectorSize
      unfold ptEntryMax at hcnt
      omega
    · rw [perform_entry flashCfg u hb hr, ptTableUpdateEntry_eq, hp]
  | iap para =>
    rw [hr, newStuff_iap, Option.some.injEq] at h
    subst h
    exact ⟨ptTableStuffConfigSize, .falshErase, by decide, by decide, by decide,
      perform_iap flashCfg u hb hr⟩

end Perform

/-! ## An update of the code is an update of the two-copy store -/

/-- The copy that an update writes, and its complete new content. -/
def Update.written (u : Update) (flash : Mem) : Option (Bool × PtTableStuff) :=
  (DualCopy.active (ptStore flash)).bind fun b =>
    (u.request.newStuff (ptCopy flash b)).map fun s => (!b, s)

/-- A copy that the update has touched and not completed does not pass the CRC checks. -/
def NoCollision (flashCfg : SpiFlashCfg) (flash : Mem) (u : Update) : Prop :=
  ∀ b s, u.written flash = some (b, s) →
    ptCopy (u.perform flashCfg flash).1 b ≠ ptCopy flash b →
    ptTableValid (ptCopy (u.perform flashCfg flash).1 b) = true →
    read (ptCopy (u.perform flashCfg flash).1 b) 0 (usedLen s) = read s 0 (usedLen s)

theorem written_eq {u : Update} {flash : Mem} {b : Bool} {s : PtTableStuff}
    (hb : DualCopy.active (ptStore flash) = some b)
    (h : u.request.newStuff (ptCopy flash b) = some s) : u.written flash = some (!b, s) := by
  rw [Update.written, hb, Option.bind_some, h, Option.map_some]

/-- A write-back to one copy leaves the other copy alone. -/
theorem ptCopy_writeBack_other {flash : Mem} {b : Bool} {n : ℕ} {s : PtTableStuff} :
    ptCopy (write (Nor.erase flash (tableAddress !b) (tableAddress (!b) + sectorSize))
      (tableAddress !b) ((read s 0 ptTableStuffConfigSize).take n)) b = ptCopy flash b := by
  have hlen : ((read s 0 ptTableStuffConfigSize).take n).length ≤ ptTableStuffConfigSize := by
    rw [List.length_take, length_read]
    exact Nat.min_le_right _ _
  unfold ptCopy readPtStuff
  rw [flashRead_eq (tableAddress_le b), flashRead_eq (tableAddress_le b)]
  refine congrArg ofBytes (read_congr fun i hi => ?_)
  have hfar : tableAddress b + ptTableStuffConfigSize ≤ tableAddress (!b) ∨
      tableAddress (!b) + sectorSize ≤ tableAddress b := by cases b <;> decide
  have hsec : ptTableStuffConfigSize ≤ sectorSize := by decide
  generalize tableAddress b = a at *
  generalize tableAddress (!b) = a' at *
  rw [write_outside (by omega), Nor.erase_outside (by omega)]

/-- The beginning of a copy that was written back in full. -/
theorem read_ptCopy_writeBack {flash : Mem} {b : Bool} {s : PtTableStuff} {k : ℕ}
    (hk : k ≤ ptTableStuffConfigSize) :
    read (ptCopy (write flash (tableAddress b)
      ((read s 0 ptTableStuffConfigSize).take ptTableStuffConfigSize)) b) 0 k = read s 0 k := by
  rw [List.take_of_length_le (Nat.le_of_eq (length_read _ _ _)), read_ptCopy (by omega),
    read_write_sub (by rw [length_read]; omega), read_sub (by omega)]

theorem usedLen_le {s : PtTableStuff} (h : entryCnt s ≤ ptEntryMax) :
    usedLen s ≤ ptTableStuffConfigSize := by
  unfold usedLen entriesLen ptTableConfigSize ptTableEntryConfigSize ptTableStuffConfigSize
  unfold ptEntryMax at h
  omega

/-- A copy that shows everything in use of a valid buffer holds its record. -/
theorem ptStore_of_read {flash : Mem} {b : Bool} {s : PtTableStuff} (hv : ptTableValid s = true)
    (h : read (ptCopy flash b) 0 (usedLen s) = read s 0 (usedLen s)) :
    ptStore flash b = some (age s, ptTable s) := by
  have hv' : ptTableValid (ptCopy flash b) = true := by
    rw [← ptTableValid_congr h.symm (Nat.le_refl _), hv]
  have hage : age s = age (ptCopy flash b) := age_congr h.symm (by unfold usedLen; omega)
  have htable : ptTable s = ptTable (ptCopy flash b) :=
    ptTable_congr h.symm (by unfold usedLen; omega)
  rw [ptStore, if_pos hv', hage, htable]

/-- An update that has something to write and that nothing disturbs reports success. -/
theorem perform_ok (flashCfg : SpiFlashCfg) (u : Update) {flash : Mem} {b : Bool}
    {s : PtTableStuff} (hb : DualCopy.active (ptStore flash) = some b)
    (hs : u.request.newStuff (ptCopy flash b) = some s) (he : u.eraseFault = .none)
    (hw : u.writeFault = .none) : (u.perform flashCfg flash).2 = .success := by
  obtain ⟨x, hx, -⟩ := DualCopy.active_eq_some_iff.1 hb
  obtain ⟨hv, -, -⟩ := newStuff_spec (ptStore_eq_some hx).1 hs
  obtain ⟨eraseLen, err, hlen, hlen', -, hperf⟩ :=
    perform_of_some flashCfg u hb hs (ptTableValid_spec hv).2
  have hfaults : (u.device flashCfg flash).faults = [.none, .none] := by
    rw [Update.device, he, hw]
  rw [hperf]
  exact writeBack_ok (!b) s err rfl hfaults hlen hlen'

/-- **Refinement.**  Whatever happens during an update, the flash as a two-copy store goes
through one update of that store, and a completed one when success is reported. -/
theorem ptStore_perform {flashCfg : SpiFlashCfg} {u : Update} {flash : Mem} {b : Bool}
    {s : PtTableStuff} (hb : DualCopy.active (ptStore flash) = some b)
    (hs : u.request.newStuff (ptCopy flash b) = some s) (hv : ptTableValid s = true)
    (hcol : NoCollision flashCfg flash u) :
    ∃ o, ptStore (u.perform flashCfg flash).1
        = DualCopy.put (ptStore flash) (!b) o (age s, ptTable s) ∧
      ((u.perform flashCfg flash).2 = .success → o = .done) := by
  obtain ⟨-, hcnt⟩ := ptTableValid_spec hv
  have hcol := hcol (!b) s (written_eq hb hs)
  obtain ⟨eraseLen, err, hlen, hlen', herr, hperf⟩ := perform_of_some flashCfg u hb hs hcnt
  have hspec := writeBack_spec (u.device flashCfg flash) (!b) s herr hlen hlen'
  rw [hperf] at hcol ⊢
  generalize writeBack (u.device flashCfg flash) (tableAddress !b) eraseLen s err = r at *
  obtain ⟨d, ret⟩ := r
  simp only at hcol hspec ⊢
  have hdev : (u.device flashCfg flash).mem = flash := rfl
  rw [hdev] at hspec
  rcases hspec with ⟨hm, hret⟩ | ⟨n, hm, hret⟩
  · -- the erase was not carried out
    exact ⟨.kept, by rw [hm]; rfl, fun h => absurd h hret⟩
  have hother : ptCopy d.mem b = ptCopy flash b := by rw [hm]; exact ptCopy_writeBack_other
  have hstore : ptStore d.mem b = ptStore flash b := by rw [ptStore, hother, ptStore]
  by_cases hfull : read (ptCopy d.mem !b) 0 (usedLen s) = read s 0 (usedLen s)
  · -- everything in use is there: the copy is complete
    refine ⟨.done, ?_, fun _ => rfl⟩
    refine funext fun c => ?_
    by_cases hc : c = !b
    · rw [hc, DualCopy.put_done, ptStore_of_read hv hfull]
    · have hcb : c = b := by cases b <;> cases c <;> simp_all
      rw [hcb, DualCopy.put_self_ne, hstore]
  · have hnot : ret ≠ .success := by
      intro h
      refine hfull ?_
      rw [hm, hret h, read_ptCopy_writeBack (usedLen_le hcnt)]
    by_cases hsame : ptCopy d.mem (!b) = ptCopy flash !b
    · -- the torn copy reads as before
      refine ⟨.kept, funext fun c => ?_, fun h => absurd h hnot⟩
      by_cases hc : c = !b
      · rw [hc, DualCopy.put, ptStore, hsame, ptStore]
      · have hcb : c = b := by cases b <;> cases c <;> simp_all
        rw [hcb, hstore, DualCopy.put]
    · -- the torn copy is not valid
      have hinv : ptTableValid (ptCopy d.mem !b) ≠ true := fun h => hfull (hcol hsame h)
      refine ⟨.torn, funext fun c => ?_, fun h => absurd h hnot⟩
      by_cases hc : c = !b
      · rw [hc, DualCopy.put_torn, ptStore, if_neg hinv]
      · have hcb : c = b := by cases b <;> cases c <;> simp_all
        rw [hcb, DualCopy.put_self_ne, hstore]

/-- An update that reports success has completed the copy, so it needs no assumption. -/
theorem noCollision_of_success {flashCfg : SpiFlashCfg} {u : Update} {flash : Mem}
    (h : (u.perform flashCfg flash).2 = .success) : NoCollision flashCfg flash u := by
  intro c s hw _ _
  obtain ⟨b, hb, hs⟩ := Option.bind_eq_some_iff.1 hw
  obtain ⟨s', hs', heq⟩ := Option.map_eq_some_iff.1 hs
  cases heq
  obtain ⟨x, hx, -⟩ := DualCopy.active_eq_some_iff.1 hb
  obtain ⟨hv, -, -⟩ := newStuff_spec (ptStore_eq_some hx).1 hs'
  obtain ⟨-, hcnt⟩ := ptTableValid_spec hv
  obtain ⟨eraseLen, err, hlen, hlen', herr, hperf⟩ := perform_of_some flashCfg u hb hs' hcnt
  have hspec := writeBack_spec (u.device flashCfg flash) (!b) s herr hlen hlen'
  rw [hperf] at h ⊢
  generalize writeBack (u.device flashCfg flash) (tableAddress !b) eraseLen s err = r at *
  obtain ⟨d, ret⟩ := r
  simp only at h hspec ⊢
  rcases hspec with ⟨-, hret⟩ | ⟨n, hm, hret⟩
  · exact absurd h hret
  · rw [hm, hret h, read_ptCopy_writeBack (usedLen_le hcnt)]

/-! ## Atomicity -/

/-- What an update guarantees when `t` is the selected table before it. -/
structure Atomic (flashCfg : SpiFlashCfg) (flash : Mem) (u : Update) (t : PtTable) : Prop where
  /-- afterwards the previous table is selected, or the fully updated one -/
  old_or_new : selectedTable (u.perform flashCfg flash).1 = some t ∨
    ∃ t', u.request.updated t = some t' ∧ selectedTable (u.perform flashCfg flash).1 = some t'
  /-- after success the updated table is selected -/
  success_new : (u.perform flashCfg flash).2 = .success →
    ∃ t', u.request.updated t = some t' ∧ selectedTable (u.perform flashCfg flash).1 = some t'
  /-- after success looking up the updated type yields the request -/
  success_lookup : (u.perform flashCfg flash).2 = .success →
    ∃ e, u.request.updatedEntry t = some e ∧
      lookupActive (u.perform flashCfg flash).1 e.type = (.success, some e)

/-- `pt_table_set_iap_para` is used on tables with at least one entry. -/
def Request.Applies (t : PtTable) : Request → Prop
  | .entry _ => True
  | .iap _ => 1 ≤ t.entryCnt

/-- What is assumed of the updates of a run. -/
def UpdateOk (flashCfg : SpiFlashCfg) (flash : Mem) (u : Update) : Prop :=
  (∀ t, selectedTable flash = some t → u.request.Applies t) ∧ NoCollision flashCfg flash u

theorem updatedEntry_isSome {s : PtTableStuff} {r : Request} (h : r.Applies (ptTable s)) :
    ∃ e, r.updatedEntry (ptTable s) = some e := by
  cases r with
  | entry e => exact ⟨e, rfl⟩
  | iap para =>
    have h : 1 ≤ entryCnt s := h
    obtain ⟨n, hn⟩ := Nat.exists_eq_add_of_le h
    refine ⟨(ptEntry s 0).toggle, ?_⟩
    simp [Request.updatedEntry, ptTable, hn, Nat.add_comm 1 n, List.range_succ_eq_map]

/-- **One update.**  From a sound store whose age can still be counted up, an update is
atomic and leaves the store sound, with an age at most one larger. -/
theorem perform_atomic {flashCfg : SpiFlashCfg} {flash : Mem} {u : Update} {t : PtTable}
    (hsound : DualCopy.Sound (ptStore flash)) (hsel : selectedTable flash = some t)
    (hage : t.age + 1 < 2 ^ 32) (hok : UpdateOk flashCfg flash u) :
    Atomic flashCfg flash u t ∧ DualCopy.Sound (ptStore (u.perform flashCfg flash).1) ∧
      ∃ t', selectedTable (u.perform flashCfg flash).1 = some t' ∧ t'.age ≤ t.age + 1 := by
  obtain ⟨b, hb⟩ := Option.isSome_iff_exists.1 hsound.active_isSome
  obtain ⟨x, hx, -⟩ := DualCopy.exists_of_active hb
  obtain ⟨hv, rfl⟩ := ptStore_eq_some hx
  obtain rfl : t = ptTable (ptCopy flash b) := by
    rw [selectedTable_of_active hb] at hsel
    exact (Option.some.inj hsel).symm
  cases hs : u.request.newStuff (ptCopy flash b) with
  | none =>
    -- nothing is written
    have hperf := perform_of_none flashCfg u hb hs
    have hne : (u.perform flashCfg flash).2 ≠ .success := by simp [hperf]
    have hflash : (u.perform flashCfg flash).1 = flash := by rw [hperf]
    refine ⟨⟨?_, fun h => absurd h hne, fun h => absurd h hne⟩, ?_, ptTable (ptCopy flash b), ?_⟩
    · exact .inl (by rw [hflash, hsel])
    · rwa [hflash]
    · exact ⟨by rw [hflash, hsel], Nat.le_succ _⟩
  | some s =>
    obtain ⟨hvs, hages, hupd⟩ := newStuff_spec hv hs
    have hnext : age s = (ptTable (ptCopy flash b)).age + 1 := by
      rw [hages, u32_of_lt]
      · rfl
      · exact hage
    obtain ⟨o, hstore, hsucc⟩ := ptStore_perform hb hs hvs hok.2
    have hsound' := hsound.put (v := (age s, ptTable s)) hb hx hnext o
    have hcur := DualCopy.current_put hx hb (v := (age s, ptTable s)) (by simp only; omega) o
    rw [← hstore] at hsound' hcur
    have hsel' : selectedTable (u.perform flashCfg flash).1
        = if o = .done then some (ptTable s) else some (ptTable (ptCopy flash b)) := by
      rw [selectedTable_eq, hcur]
      split <;> rfl
    refine ⟨⟨?_, fun h => ?_, fun h => ?_⟩, hsound', ?_⟩
    · by_cases ho : o = .done
      · exact .inr ⟨ptTable s, hupd, by rw [hsel', if_pos ho]⟩
      · exact .inl (by rw [hsel', if_neg ho])
    · exact ⟨ptTable s, hupd, by rw [hsel', if_pos (hsucc h)]⟩
    · obtain ⟨e, he⟩ := updatedEntry_isSome (hok.1 _ hsel)
      refine ⟨e, he, ?_⟩
      obtain ⟨b', hb'⟩ := Option.isSome_iff_exists.1 hsound'.active_isSome
      have hcopy : ptTable (ptCopy (u.perform flashCfg flash).1 b') = ptTable s := by
        have h' := selectedTable_of_active hb'
        rw [hsel', if_pos (hsucc h)] at h'
        exact (Option.some.inj h').symm
      rw [lookupActive_of_active hb', getActiveEntriesById_eq, hcopy, lookup_updated hupd he]
    · by_cases ho : o = .done
      · exact ⟨ptTable s, by rw [hsel', if_pos ho], Nat.le_of_eq hnext⟩
      · exact ⟨_, by rw [hsel', if_neg ho], Nat.le_succ _⟩

/-! ## Runs -/

open Transition

/-- One update of a run, followed by a reset. -/
def updateStep (flashCfg : SpiFlashCfg) (flash : Mem) (u : Update) : Option Mem :=
  some (u.perform flashCfg flash).1

/-- The invariant of a run: the store stays sound and its age grows by at most one with
each update. -/
theorem run_sound {flashCfg : SpiFlashCfg} {us : List Update} {flash flash' : Mem} {t : PtTable}
    (hsound : DualCopy.Sound (ptStore flash)) (hsel : selectedTable flash = some t)
    (hage : t.age + us.length < 2 ^ 32)
    (hok : Along (updateStep flashCfg) (UpdateOk flashCfg) flash us)
    (hrun : run (updateStep flashCfg) flash us = some flash') :
    DualCopy.Sound (ptStore flash') ∧
      ∃ t', selectedTable flash' = some t' ∧ t'.age ≤ t.age + us.length := by
  induction us generalizing flash t with
  | nil =>
    cases hrun
    exact ⟨hsound, t, hsel, Nat.le_refl _⟩
  | cons u us ih =>
    rw [List.length_cons] at hage
    obtain ⟨flash1, hstep, hrun⟩ := run_cons_eq_some.1 hrun
    obtain ⟨-, hsound1, t1, hsel1, hage1⟩ := perform_atomic hsound hsel (by omega) hok.1
    obtain rfl : (u.perform flashCfg flash).1 = flash1 := Option.some.inj hstep
    obtain ⟨hsound', t', hsel', hage'⟩ := ih hsound1 hsel1 (by omega) (hok.2 _ rfl) hrun
    refine ⟨hsound', t', hsel', ?_⟩
    rw [List.length_cons]
    omega

/-- **Atomicity over runs.**  From a sound store, every update of a run of interrupted
updates is atomic, as long as the age of the first table and the number of updates add up
to less than `2 ^ 32`. -/
theorem runs_atomic {flashCfg : SpiFlashCfg} {us : List Update} {u : Update}
    {flash flash' : Mem} {t0 : PtTable} (hsound : DualCopy.Sound (ptStore flash))
    (hsel : selectedTable flash = some t0) (hage : t0.age + (us ++ [u]).length < 2 ^ 32)
    (hok : Along (updateStep flashCfg) (UpdateOk flashCfg) flash (us ++ [u]))
    (hrun : run (updateStep flashCfg) flash us = some flash') :
    ∃ t, selectedTable flash' = some t ∧ Atomic flashCfg flash' u t := by
  rw [List.length_append, List.length_singleton] at hage
  obtain ⟨hok, hlast⟩ := along_append.1 hok
  obtain ⟨hsound', t, hsel', hage'⟩ := run_sound hsound hsel (by omega) hok hrun
  exact ⟨t, hsel', (perform_atomic hsound' hsel' (by omega) (hlast flash' hrun).1).1⟩

/-! ## The end of the age counter -/

/-- At the last age the counter wraps: an update that reports success writes a table with
age `0`, and the previous table stays selected. -/
theorem age_wrap_selects_old {flashCfg : SpiFlashCfg} {flash : Mem} {u : Update} {t : PtTable}
    (hsel : selectedTable flash = some t) (hage : t.age = 2 ^ 32 - 1)
    (hsucc : (u.perform flashCfg flash).2 = .success) :
    selectedTable (u.perform flashCfg flash).1 = some t := by
  rw [selectedTable_eq] at hsel
  obtain ⟨x, hcur, rfl⟩ := Option.map_eq_some_iff.1 hsel
  obtain ⟨b, hb, hx⟩ := Option.bind_eq_some_iff.1 hcur
  obtain ⟨hv, rfl⟩ := ptStore_eq_some hx
  cases hs : u.request.newStuff (ptCopy flash b) with
  | none =>
    rw [perform_of_none flashCfg u hb hs] at hsucc
    cases hsucc
  | some s =>
    obtain ⟨hvs, hages, -⟩ := newStuff_spec hv hs
    have hzero : age s = 0 := by
      have hlast : age (ptCopy flash b) = 2 ^ 32 - 1 := hage
      rw [hages, hlast]
      rfl
    obtain ⟨o, hstore, hdone⟩ := ptStore_perform hb hs hvs (noCollision_of_success hsucc)
    have hold : DualCopy.active (ptStore (u.perform flashCfg flash).1) = some b := by
      rw [hstore, hdone hsucc]
      have hlast : (ptTable (ptCopy flash b)).age = 2 ^ 32 - 1 := hage
      refine DualCopy.active_put_stale hx ?_
      simp only [hzero, hlast]
      decide
    rw [selectedTable_eq, DualCopy.current_of_active hold, hstore, DualCopy.put_self_ne, hx]
    rfl

/-- An array that is erased but for a table in copy 0: the one in the buffer, with its CRCs
stored. -/
def tableFlash (s : PtTableStuff) : Mem :=
  write (fun _ => 0xFF) (tableAddress false) (read (storeCrcs s) 0 ptTableStuffConfigSize)

/-- A buffer with the given age and entries. -/
def tableStuff (age : ℕ) (entries : List PtTableEntry) : PtTableStuff :=
  ofBytes (leBytes 4 bflbPtMagicCode ++ leBytes 2 0 ++ leBytes 2 entries.length ++ leBytes 4 age
    ++ leBytes 4 0 ++ entries.flatMap PtTableEntry.bytes)

theorem read_tableFlash (s : PtTableStuff) {k : ℕ} (hk : k ≤ ptTableStuffConfigSize) :
    read (ptCopy (tableFlash s) false) 0 k = read (storeCrcs s) 0 k := by
  rw [read_ptCopy (by omega), tableFlash, read_write_sub (by rw [length_read]; omega),
    read_sub (by omega)]

section TableFlash

variable {s : PtTableStuff} (hmagic : magicCode s = bflbPtMagicCode)
  (hcnt : entryCnt s ≤ ptEntryMax)
include hmagic hcnt

theorem ptStore_tableFlash :
    ptStore (tableFlash s) false = some (age s, ptTable s) ∧ ptStore (tableFlash s) true = none := by
  have hle : usedLen (storeCrcs s) ≤ ptTableStuffConfigSize :=
    usedLen_le (by rw [entryCnt_storeCrcs]; exact hcnt)
  have hread := read_tableFlash s hle
  constructor
  · have hv : ptTableValid (ptCopy (tableFlash s) false) = true := by
      rw [← ptTableValid_congr hread.symm (Nat.le_refl _), ptTableValid_storeCrcs s hmagic hcnt]
    have hage : age (storeCrcs s) = age (ptCopy (tableFlash s) false) :=
      age_congr hread.symm (by unfold usedLen; omega)
    have htable : ptTable (storeCrcs s) = ptTable (ptCopy (tableFlash s) false) :=
      ptTable_congr hread.symm (by unfold usedLen; omega)
    rw [ptStore, if_pos hv, ← hage, ← htable, age_storeCrcs, ptTable_storeCrcs]
  · -- copy 1 is erased
    have hblank : magicCode (ptCopy (tableFlash s) true) ≠ bflbPtMagicCode := by
      have hlen := length_read (storeCrcs s) 0 ptTableStuffConfigSize
      have hread : read (ptCopy (tableFlash s) true) 0 4 = read (fun _ => 0xFF) 0 4 := by
        rw [read_ptCopy (by decide), tableFlash, read_write_disjoint (by rw [hlen]; decide)]
        rfl
      rw [magicCode, le, hread]
      decide
    have hinv : ptTableValid (ptCopy (tableFlash s) true) ≠ true :=
      fun hv => hblank (ptTableValid_spec hv).1
    rw [ptStore, if_neg hinv]

theorem active_tableFlash : DualCopy.active (ptStore (tableFlash s)) = some false := by
  obtain ⟨h0, h1⟩ := ptStore_tableFlash hmagic hcnt
  rw [DualCopy.active, h0, h1]

theorem sound_tableFlash : DualCopy.Sound (ptStore (tableFlash s)) := by
  obtain ⟨-, h1⟩ := ptStore_tableFlash hmagic hcnt
  refine ⟨by rw [active_tableFlash hmagic hcnt]; rfl, ?_⟩
  intro x y _ hy
  rw [h1] at hy
  cases hy

theorem selectedTable_tableFlash : selectedTable (tableFlash s) = some (ptTable s) := by
  obtain ⟨h0, -⟩ := ptStore_tableFlash hmagic hcnt
  rw [selectedTable_eq, DualCopy.current_of_active (active_tableFlash hmagic hcnt), h0]
  rfl

end TableFlash

/-- An undisturbed update that adds an entry of type `PT_ENTRY_FW_CPU0`. -/
def addEntry : Update where
  request := .entry ⟨List.replicate 36 0, rfl⟩
  eraseFault := .none
  writeFault := .none

/-- An undisturbed update of the active slot. -/
def switchSlot : Update where
  request := .iap ⟨0, 0, 0, 0, 0⟩
  eraseFault := .none
  writeFault := .none

/-- With the last age in force, the second table copy erased and an undisturbed update,
success is reported and the previous table is selected, not the updated one. -/
theorem atomic_fails_at_last_age :
    DualCopy.Sound (ptStore (tableFlash (tableStuff (2 ^ 32 - 1) []))) ∧
      UpdateOk ⟨true, true⟩ (tableFlash (tableStuff (2 ^ 32 - 1) [])) addEntry ∧
      (addEntry.perform ⟨true, true⟩ (tableFlash (tableStuff (2 ^ 32 - 1) []))).2 = .success ∧
      ∀ t, ¬ Atomic ⟨true, true⟩ (tableFlash (tableStuff (2 ^ 32 - 1) [])) addEntry t := by
  have hmagic : magicCode (tableStuff (2 ^ 32 - 1) []) = bflbPtMagicCode := by decide +kernel
  have hcnt : entryCnt (tableStuff (2 ^ 32 - 1) []) ≤ ptEntryMax := by decide +kernel
  have hb := active_tableFlash hmagic hcnt
  have hsel := selectedTable_tableFlash hmagic hcnt
  have hplace : (addEntry.request.newStuff
      (ptCopy (tableFlash (tableStuff (2 ^ 32 - 1) [])) false)).isSome := by decide +kernel
  obtain ⟨s, hs⟩ := Option.isSome_iff_exists.1 hplace
  have hsucc := perform_ok ⟨true, true⟩ addEntry hb hs rfl rfl
  refine ⟨sound_tableFlash hmagic hcnt, ⟨fun _ _ => trivial, noCollision_of_success hsucc⟩,
    hsucc, ?_⟩
  intro t hatomic
  obtain ⟨t', hupd, hsel'⟩ := hatomic.success_new hsucc
  rw [age_wrap_selects_old hsel (by decide +kernel) hsucc] at hsel'
  -- the updated table has an entry, the selected one has none
  obtain ⟨p, hp, rfl⟩ := Option.map_eq_some_iff.1 hupd
  have hlook := PtTable.lookup_place hp
  have hempty : p.entries = [] := by
    have h := congrArg PtTable.entries (Option.some.inj hsel')
    exact h.symm.trans (by decide +kernel)
  rw [PtTable.lookup, hempty] at hlook
  cases hlook

/-- A run of two updates of a table without entries: an entry is added, then its slot is
switched. -/
theorem runs_atomic_fresh :
    ∃ t, selectedTable (addEntry.perform ⟨true, true⟩ (tableFlash (tableStuff 0 []))).1 = some t ∧
      Atomic ⟨true, true⟩ (addEntry.perform ⟨true, true⟩ (tableFlash (tableStuff 0 []))).1
        switchSlot t := by
  have hmagic : magicCode (tableStuff 0 []) = bflbPtMagicCode := by decide +kernel
  have hcnt : entryCnt (tableStuff 0 []) ≤ ptEntryMax := by decide +kernel
  have hb := active_tableFlash hmagic hcnt
  have hsel := selectedTable_tableFlash hmagic hcnt
  have hsound := sound_tableFlash hmagic hcnt
  have hplace : (addEntry.request.newStuff (ptCopy (tableFlash (tableStuff 0 [])) false)).isSome := by
    decide +kernel
  obtain ⟨s, hs⟩ := Option.isSome_iff_exists.1 hplace
  have hsucc := perform_ok ⟨true, true⟩ addEntry hb hs rfl rfl
  have hok : UpdateOk ⟨true, true⟩ (tableFlash (tableStuff 0 [])) addEntry :=
    ⟨fun _ _ => trivial, noCollision_of_success hsucc⟩
  have hage : (ptTable (tableStuff 0 [])).age = 0 := by decide +kernel
  obtain ⟨hatomic, hsound1, -⟩ := perform_atomic hsound hsel (by rw [hage]; decide) hok
  obtain ⟨t, hupd, hsel1⟩ := hatomic.success_new hsucc
  obtain ⟨b, hb1⟩ := Option.isSome_iff_exists.1 hsound1.active_isSome
  have hsucc1 := perform_ok ⟨true, true⟩ switchSlot hb1 rfl rfl rfl
  have hcnt1 : t.entryCnt = 1 := by
    have h : (addEntry.request.updated (ptTable (tableStuff 0 []))).map PtTable.entryCnt
        = some 1 := by decide +kernel
    rw [hupd] at h
    exact Option.some.inj h
  have hok1 : UpdateOk ⟨true, true⟩ (addEntry.perform ⟨true, true⟩ (tableFlash (tableStuff 0 []))).1
      switchSlot := by
    refine ⟨fun t' ht' => ?_, noCollision_of_success hsucc1⟩
    rw [hsel1] at ht'
    cases ht'
    exact Nat.le_of_eq hcnt1.symm
  have hbound : (ptTable (tableStuff 0 [])).age + ([addEntry] ++ [switchSlot]).length < 2 ^ 32 := by
    rw [hage]
    decide
  refine runs_atomic hsound hsel hbound ?_ rfl
  refine ⟨hok, fun flash1 hstep => ?_⟩
  obtain rfl := Option.some.inj hstep
  exact ⟨hok1, fun _ _ => trivial⟩

end Partition
