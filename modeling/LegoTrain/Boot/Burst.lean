import LegoTrain.Common.CrcRecord
import LegoTrain.Partition.PowerLoss
import LegoTrain.Boot.Acceptance
import LegoTrain.Boot.SecureBoot

/-!
# Damaged tables and headers

A burst in the flash changes four consecutive bytes at most: one word that was programmed
wrong, or the cells of a page that lost their charge.

* `valid_unique` : it does not lead from one valid partition table to another;
* `burst_falls_back` : the copy of the table that it hits is out, and the other copy decides;
* `burst_not_booted` : the image whose boot header it hits is refused, unless the header then
  asks for its CRC to be ignored.
-/

namespace Boot

open ByteMem Flash Partition PtTableStuff SoftCrc Checked

/-- One byte that is written wrong is a burst. -/
theorem burst_write (m : Mem) (x : ℕ) (b : UInt8) : Burst m (write m x [b]) x := by
  intro y hy
  by_contra hout
  refine hy (write_outside ?_)
  rw [List.length_singleton]
  omega

/-! ## The partition table -/

/-- A copy of the table holds a sealed record where the flash does. -/
theorem sealed_ptCopy {flash : Mem} {b : Bool} {a n : ℕ}
    (h : a + n + 4 ≤ ptTableStuffConfigSize) :
    Sealed (ptCopy flash b) a n ↔ Sealed flash (tableAddress b + a) n := by
  have hcrc : le (ptCopy flash b) (a + n) 4 = le flash (tableAddress b + a + n) 4 := by
    rw [le, le, read_ptCopy h, Nat.add_assoc (tableAddress b)]
  rw [Sealed, Sealed, hcrc, read_ptCopy (by omega)]

/-- A valid table is two sealed records. -/
theorem ptTableValid_iff {s : PtTableStuff} : ptTableValid s = true ↔
    magicCode s = bflbPtMagicCode ∧ entryCnt s ≤ ptEntryMax ∧
      Sealed s 0 (ptTableConfigSize - 4) ∧ Sealed s ptTableConfigSize (entriesLen s) := by
  have hhead : Sealed s 0 (ptTableConfigSize - 4) ↔
      PtTableStuff.crc32 s = bflbSoftCrc32 (read s 0 (ptTableConfigSize - 4)) := Iff.rfl
  have hbody : Sealed s ptTableConfigSize (entriesLen s) ↔
      le s (ptTableConfigSize + entriesLen s) 4 =
        bflbSoftCrc32 (read s ptTableConfigSize (entriesLen s)) := Iff.rfl
  rw [hhead, hbody, ptTableValid]
  split
  · rename_i hmagic
    split
    · rename_i hcnt
      simp [Nat.not_le.2 hcnt]
    · rename_i hcnt
      simp [hmagic, Nat.not_lt.1 hcnt]
  · rename_i hmagic
    simp [hmagic]

/-- A burst does not lead from one valid table to another. -/
theorem valid_unique {flash flash' : Mem} {b : Bool} {i : ℕ}
    (h : ptTableValid (ptCopy flash b) = true) (h' : ptTableValid (ptCopy flash' b) = true)
    (hburst : Burst flash flash' i) :
    read flash' (tableAddress b) (usedLen (ptCopy flash b)) =
      read flash (tableAddress b) (usedLen (ptCopy flash b)) := by
  obtain ⟨-, hcnt, hhead, hbody⟩ := ptTableValid_iff.1 h
  obtain ⟨-, -, hhead', hbody'⟩ := ptTableValid_iff.1 h'
  have hlen := usedLen_le hcnt
  have hused : usedLen (ptCopy flash b) =
      ptTableConfigSize + (entriesLen (ptCopy flash b) + 4) := by rw [usedLen, Nat.add_assoc]
  -- the header first, for it says how many entries there are
  have hfst : read flash' (tableAddress b) ptTableConfigSize =
      read flash (tableAddress b) ptTableConfigSize :=
    ((sealed_ptCopy (by decide)).1 hhead).unique ((sealed_ptCopy (by decide)).1 hhead') hburst
  have hcopy : read (ptCopy flash' b) 0 ptTableConfigSize =
      read (ptCopy flash b) 0 ptTableConfigSize := by
    rw [read_ptCopy (by decide), read_ptCopy (by decide), Nat.add_zero, hfst]
  have hentries : entriesLen (ptCopy flash' b) = entriesLen (ptCopy flash b) := by
    rw [entriesLen, entriesLen, entryCnt_congr hcopy (Nat.le_refl _)]
  rw [hentries] at hbody'
  have hsnd := ((sealed_ptCopy (by omega)).1 hbody).unique ((sealed_ptCopy (by omega)).1 hbody') hburst
  rw [hused, read_append _ _ ptTableConfigSize, read_append _ _ ptTableConfigSize, hfst, hsnd]

/-- **A burst that hits a valid copy of the table puts that copy out, and the other copy
decides**, as it stood before. -/
theorem burst_falls_back {flash flash' : Mem} {b : Bool} {i x : ℕ}
    (hvalid : ptTableValid (ptCopy flash b) = true) (hburst : Burst flash flash' i)
    (hx : x < usedLen (ptCopy flash b))
    (hhit : flash' (tableAddress b + x) ≠ flash (tableAddress b + x)) :
    ptStore flash' b = none ∧ ptStore flash' (!b) = ptStore flash (!b) ∧
      selectedTable flash' = (ptStore flash (!b)).map Prod.snd := by
  have hlen := usedLen_le (ptTableValid_iff.1 hvalid).2.1
  have hout : ptStore flash' b = none := by
    rw [ptStore, if_neg]
    intro hvalid'
    have hread := valid_unique hvalid hvalid' hburst
    have hbyte := congrArg (fun bs => bs.getD x 0) hread
    simp only [getD_read hx] at hbyte
    exact hhit hbyte
  have hother : ptCopy flash' (!b) = ptCopy flash (!b) := by
    have haddr := tableAddress_le (!b)
    have hat := hburst _ hhit
    unfold ptTableStuffConfigSize at hlen
    unfold ptCopy readPtStuff
    refine congrArg ofBytes (flashRead_congr fun j hj => ?_)
    by_contra hne
    unfold ptTableStuffConfigSize at hj haddr
    rw [u32_of_lt (by omega)] at hne
    have hat' := hburst _ hne
    cases b
    · simp only [tableAddress, Bool.not_false, if_true, Bool.false_eq_true, if_false,
        bflbPtTable0Address, bflbPtTable1Address] at hat hat'
      omega
    · simp only [tableAddress, Bool.not_true, if_true, Bool.false_eq_true, if_false,
        bflbPtTable0Address, bflbPtTable1Address] at hat hat'
      omega
  have hstore : ptStore flash' (!b) = ptStore flash (!b) := by rw [ptStore, ptStore, hother]
  exact ⟨hout, hstore, by rw [selectedTable_eq, DualCopy.current_of_none hout, hstore]⟩

/-- The theorem for the magic code of a table without entries. -/
theorem burst_falls_back_empty :
    selectedTable (write (tableFlash (tableStuff 0 [])) (tableAddress false) [0]) = none := by
  obtain ⟨hstore, hother⟩ := ptStore_tableFlash (s := tableStuff 0 []) (by decide) (by decide)
  have hvalid : ptTableValid (ptCopy (tableFlash (tableStuff 0 [])) false) = true := by
    by_contra hno
    rw [ptStore, if_neg hno] at hstore
    cases hstore
  have hhit : write (tableFlash (tableStuff 0 [])) (tableAddress false) [0] (tableAddress false + 0) ≠
      tableFlash (tableStuff 0 []) (tableAddress false + 0) := by decide +kernel
  have hused : 0 < usedLen (ptCopy (tableFlash (tableStuff 0 [])) false) := by
    unfold usedLen
    omega
  obtain ⟨-, -, hselected⟩ := burst_falls_back hvalid (burst_write _ _ _) hused hhit
  rw [hselected, Bool.not_false, hother]
  rfl

/-! ## The boot header -/

/-- The boot header in flash, with its CRC at the end. -/
theorem sealed_headerAt {flash : Mem} {addr : ℕ} (h : addr + bootHeaderConfigSize ≤ 2 ^ 32) :
    BootHeader.crc32 (headerAt flash addr) =
        bflbSoftCrc32 (read (headerAt flash addr) 0 (bootHeaderConfigSize - 4)) ↔
      Sealed flash addr (bootHeaderConfigSize - 4) := by
  have hread : ∀ o n, o + n ≤ bootHeaderConfigSize →
      read (headerAt flash addr) o n = read flash (addr + o) n := by
    intro o n hn
    rw [headerAt, flashRead_eq h, read_ofBytes (by rw [length_read]; exact hn), read_sub hn]
  rw [Sealed, BootHeader.crc32, le, le, hread 172 4 (by decide), hread 0 _ (by decide)]
  rfl

/-- **A burst that hits a boot header with a right CRC takes the image out**: it is refused,
unless the damaged header asks for the CRC to be ignored. -/
theorem burst_not_booted {sec : SecEng} {g : Globals} {flash flash' : Mem} {addr imgAddr i x : ℕ}
    {s : BootState} (ha : addr + bootHeaderConfigSize ≤ 2 ^ 32)
    (hcrc : BootHeader.crc32 (headerAt flash addr) =
      bflbSoftCrc32 (read (headerAt flash addr) 0 (bootHeaderConfigSize - 4)))
    (hburst : Burst flash flash' i) (hx : x < bootHeaderConfigSize)
    (hhit : flash' (addr + x) ≠ flash (addr + x))
    (hchecked : ¬ (BootHeader.crcIgnore (headerAt flash' addr) = 1 ∧
      BootHeader.crc32 (headerAt flash' addr) = bflbBoot2DeadbeefVal))
    (h0 : s.cfg.imgValid = 0) :
    (finalState (blspMediabootParseOneFw sec g flash' addr imgAddr s)).cfg.imgValid ≠ 1 := by
  intro hbooted
  obtain ⟨hok, -, -⟩ := (imgValid_iff sec g flash' addr imgAddr s h0).1 hbooted
  rcases crcPass_iff.1 hok.header.crc with hcrc' | hignore
  · have hread := ((sealed_headerAt ha).1 hcrc).unique ((sealed_headerAt ha).1 hcrc') hburst
    have hbyte := congrArg (fun bs => bs.getD x 0) hread
    have hx' : x < bootHeaderConfigSize - 4 + 4 := hx
    simp only [getD_read hx'] at hbyte
    exact absurd hbyte hhit
  · exact hchecked hignore

/-- A header of zeros with its CRC. -/
def zeroHeaderFlash : Mem :=
  write (fun _ => 0xFF) 0 (List.replicate 172 0 ++ leBytes 4 (bflbSoftCrc32 (List.replicate 172 0)))

/-- The theorem for a byte of the magic code. -/
theorem burst_not_booted_zero :
    (finalState (blspMediabootParseOneFw strictSecEng signedGlobals (write zeroHeaderFlash 0 [1])
      0 0x1000 ⟨BootImgCfg.zero, fun _ => 0, []⟩)).cfg.imgValid ≠ 1 := by
  have hcrc : BootHeader.crc32 (headerAt zeroHeaderFlash 0) =
      bflbSoftCrc32 (read (headerAt zeroHeaderFlash 0) 0 (bootHeaderConfigSize - 4)) := by
    have hseal := sealed_write (fun _ => 0xFF) 0 (List.replicate 172 0)
    rw [List.length_replicate] at hseal
    exact (sealed_headerAt (by decide)).2 hseal
  have hhit : write zeroHeaderFlash 0 [1] (0 + 0) ≠ zeroHeaderFlash (0 + 0) := by decide +kernel
  have hchecked : ¬ (BootHeader.crcIgnore (headerAt (write zeroHeaderFlash 0 [1]) 0) = 1 ∧
      BootHeader.crc32 (headerAt (write zeroHeaderFlash 0 [1]) 0) = bflbBoot2DeadbeefVal) := by
    decide +kernel
  exact burst_not_booted (by decide) hcrc (burst_write _ _ _) (by decide) hhit hchecked rfl

end Boot
