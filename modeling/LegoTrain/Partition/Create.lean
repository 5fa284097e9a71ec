import LegoTrain.Partition.Update

/-!
# Creating a partition table

`pt_table_create` erases the sector of a table copy and writes a header without entries.

* `create_mem` : what is in flash when it reports success;
* `create_header` : the header it writes is that of an empty table of age 0;
* `create_invalid` : the table is not valid, since the CRC of its entries is missing.
-/

namespace Partition

open ByteMem Flash SoftCrc PtTableStuff

/-- The `pt_table_config` that is written: magic, version, count and age, and their CRC. -/
def emptyTable : List UInt8 :=
  let fields := leBytes 4 bflbPtMagicCode ++ leBytes 2 0 ++ leBytes 2 0 ++ leBytes 4 0
  fields ++ leBytes 4 (bflbSoftCrc32 fields)

/-- `pt_table_create`. -/
def ptTableCreate (d : Device) (ptId : PtTableId) : Device × PtTableError :=
  match ptId with
  | .invalid => (d, .tableNotValid)
  | _ =>
    let writeAddr := if ptId = .id0 then bflbPtTable0Address else bflbPtTable1Address
    match flashErase d writeAddr ptTableConfigSize with
    | (d, .error) => (d, .falshErase)
    | (d, .success) =>
      match flashWrite d writeAddr emptyTable with
      | (d, .error) => (d, .falshWrite)
      | (d, .success) => (d, .success)

theorem length_emptyTable : emptyTable.length = ptTableConfigSize := by
  simp [emptyTable, ptTableConfigSize]

/-- For a copy the address is that of the copy. -/
theorem ptTableCreate_tableId (d : Device) (b : Bool) :
    ptTableCreate d (tableId b)
      = match flashErase d (tableAddress b) ptTableConfigSize with
        | (d, .error) => (d, .falshErase)
        | (d, .success) =>
          match flashWrite d (tableAddress b) emptyTable with
          | (d, .error) => (d, .falshWrite)
          | (d, .success) => (d, .success) := by
  cases b <;> rfl

variable {d : Device} {b : Bool}

/-- When success is reported, the sector of the copy is erased but for the header. -/
theorem create_mem (h : (ptTableCreate d (tableId b)).2 = .success) :
    (ptTableCreate d (tableId b)).1.mem
      = write (Nor.erase d.mem (tableAddress b) (tableAddress b + sectorSize)) (tableAddress b)
          emptyTable := by
  have hpos : 0 < ptTableConfigSize := by decide
  have hsec := flashErase_sector d (sectorStart_tableAddress b) hpos (by decide)
    (tableAddress_sector_lt b)
  rw [ptTableCreate_tableId] at h ⊢
  generalize flashErase d (tableAddress b) ptTableConfigSize = r at h hsec
  obtain ⟨d', ret⟩ := r
  cases ret with
  | error => cases h
  | success =>
    have hm : d'.mem = Nor.erase d.mem (tableAddress b) (tableAddress b + sectorSize) := by
      rcases hsec with ⟨-, herr⟩ | hm
      · cases herr
      · exact hm
    obtain ⟨n, hw, hs⟩ := flashWrite_mem d' (tableAddress b) emptyTable
    simp only at h ⊢
    generalize flashWrite d' (tableAddress b) emptyTable = r at h hw hs
    obtain ⟨d'', ret⟩ := r
    cases ret with
    | error => cases h
    | success =>
      have haddr := tableAddress_le b
      have hblank : Nor.Blank d'.mem (tableAddress b) (tableAddress b + emptyTable.length) := by
        rw [hm, length_emptyTable]
        refine (Nor.blank_erase _ _ _).mono (Nat.le_refl _) ?_
        have : ptTableConfigSize ≤ sectorSize := by decide
        omega
      have hfit : tableAddress b + emptyTable.length ≤ 2 ^ 32 := by
        rw [length_emptyTable]
        have : ptTableConfigSize ≤ ptTableStuffConfigSize := by decide
        omega
      rw [hs rfl, List.take_length, sflashProgram_eq hfit, Nor.program_of_blank hblank, hm] at hw
      exact hw

/-- The header of the copy is that of a table without entries and of age 0. -/
theorem create_header (h : (ptTableCreate d (tableId b)).2 = .success) :
    read (ptCopy (ptTableCreate d (tableId b)).1.mem b) 0 ptTableConfigSize = emptyTable := by
  rw [read_ptCopy (by decide), create_mem h, Nat.add_zero, ← length_emptyTable]
  exact read_write_same _ _ _

/-- The word behind the header is erased. -/
theorem create_behind (h : (ptTableCreate d (tableId b)).2 = .success) :
    read (ptCopy (ptTableCreate d (tableId b)).1.mem b) ptTableConfigSize 4
      = read (fun _ => 0xFF) ptTableConfigSize 4 := by
  rw [read_ptCopy (by decide), create_mem h,
    read_write_disjoint (.inr (by rw [length_emptyTable]))]
  refine read_congr fun i hi => Nor.erase_inside (by omega) ?_
  unfold ptTableConfigSize sectorSize
  omega

/-- The word behind the header of a valid table without entries is the CRC of nothing. -/
theorem crc_of_noEntries {s : PtTableStuff} (hcnt : entryCnt s = 0) (hv : ptTableValid s = true) :
    le s ptTableConfigSize 4 = 0 := by
  have hlen : entriesLen s = 0 := by rw [entriesLen, hcnt, Nat.mul_zero]
  have hnone : bflbSoftCrc32 [] = 0 := rfl
  unfold ptTableValid at hv
  rw [hlen, read_zero, hnone] at hv
  by_contra hcrc
  simp [hcrc] at hv

/-- A table that `pt_table_create` reports as created is not valid: the word that should
hold the CRC of its entries is erased. -/
theorem create_invalid (d : Device) (b : Bool)
    (h : (ptTableCreate d (tableId b)).2 = .success) :
    ptTableValid (ptCopy (ptTableCreate d (tableId b)).1.mem b) = false := by
  have hcnt : entryCnt (ptCopy (ptTableCreate d (tableId b)).1.mem b) = 0 := by
    have hread := congrArg (fun bs => (bs.drop 6).take 2) (create_header h)
    simp only [read_sub (show 6 + 2 ≤ ptTableConfigSize by decide)] at hread
    exact le_of_read (x := 0) hread
  have hcrc : le (ptCopy (ptTableCreate d (tableId b)).1.mem b) ptTableConfigSize 4
      = 0xFFFFFFFF := by
    rw [le, create_behind h]
    rfl
  by_contra hv
  rw [crc_of_noEntries hcnt (Bool.eq_true_of_not_eq_false hv)] at hcrc
  cases hcrc

/-- Success is reported when nothing fails. -/
theorem ptTableCreate_ok (b : Bool) (hrun : d.running = true) (hf : d.faults = []) :
    (ptTableCreate d (tableId b)).2 = .success := by
  have hpos : 0 < ptTableConfigSize := by decide
  have hfault : d.fault = .none := by rw [Device.fault, hf]; rfl
  have hend := sectorEnd_of_sector (sectorStart_tableAddress b) hpos (by decide)
  have herase := flashErase_ok hrun hfault hpos (hend ▸ tableAddress_sector_lt b)
  have hfit : tableAddress b + emptyTable.length ≤ 2 ^ 32 := by
    have haddr := tableAddress_le b
    have hsize : ptTableConfigSize ≤ ptTableStuffConfigSize := by decide
    rw [length_emptyTable]
    omega
  rw [ptTableCreate_tableId, herase]
  simp only
  rw [flashWrite_ok (by exact hrun) (by rw [Device.fault, hf]; rfl) hfit]

/-- An erased flash of which nothing fails. -/
def erasedDevice : Device := ⟨⟨true, true⟩, fun _ => 0xFF, true, []⟩

theorem create_invalid_erased :
    ptTableValid (ptCopy (ptTableCreate erasedDevice (tableId false)).1.mem false) = false :=
  create_invalid erasedDevice false (ptTableCreate_ok false rfl rfl)

/-- On an erased flash success is reported, and the copy is not taken for a table. -/
theorem created_not_valid :
    ¬ ∀ (d : Device) (b : Bool), (ptTableCreate d (tableId b)).2 = .success →
      ptTableValid (ptCopy (ptTableCreate d (tableId b)).1.mem b) = true ∧
        entryCnt (ptCopy (ptTableCreate d (tableId b)).1.mem b) = 0 ∧
        age (ptCopy (ptTableCreate d (tableId b)).1.mem b) = 0 := by
  intro h
  have hok := ptTableCreate_ok (d := erasedDevice) false rfl rfl
  obtain ⟨hv, hcnt, -⟩ := h erasedDevice false hok
  have hcrc := crc_of_noEntries hcnt hv
  rw [le, create_behind hok] at hcrc
  exact absurd hcrc (by decide)

end Partition
