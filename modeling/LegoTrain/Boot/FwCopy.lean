import LegoTrain.Boot.Progress

/-!
# The copy of an OTA image

`blsp_boot2_do_fw_copy` erases the destination slot and copies the image into it in blocks of
the size of the read buffer.  It looks neither at whether the image fits the slot nor at where
the two slots are.

* `fwCopyMem` : the array after the copy loop (`fwCopyLoop_mem`);
* `ImageCopied` : what a successful copy should have done;
* `CopyOk` : the slots and lengths for which it has;
* `fwCopy_iff` : exactly these, whatever the flash holds;
* `fwCopy_sameSlot` : the entry of the shipped table, of which both slots are the same.
-/

namespace Boot

open ByteMem Flash Partition

/-! ## The copy loop -/

/-- The array after the loop of `blsp_boot2_do_fw_copy`, when every write succeeds. -/
def fwCopyMem (m : Mem) (src dest rest : ℕ) : Mem :=
  if h : rest = 0 then m
  else
    have : 0 < min rest bflbBoot2ReadbufSize := Nat.lt_min.2 ⟨Nat.pos_of_ne_zero h, by decide⟩
    fwCopyMem (sflashProgram m dest (flashRead m src (min rest bflbBoot2ReadbufSize)))
      (u32 (src + min rest bflbBoot2ReadbufSize)) (u32 (dest + min rest bflbBoot2ReadbufSize))
      (rest - min rest bflbBoot2ReadbufSize)
termination_by rest

@[simp] theorem fwCopyMem_nil (m : Mem) (src dest : ℕ) : fwCopyMem m src dest 0 = m := by
  rw [fwCopyMem, dif_pos rfl]

/-- One block is copied, and the rest after it. -/
theorem fwCopyMem_block {rest : ℕ} (h : rest ≠ 0) : ∃ n, 0 < n ∧ n ≤ rest ∧ ∀ m src dest,
    fwCopyMem m src dest rest = fwCopyMem (sflashProgram m dest (flashRead m src n))
      (u32 (src + n)) (u32 (dest + n)) (rest - n) := by
  refine ⟨min rest bflbBoot2ReadbufSize, ?_, Nat.min_le_left _ _, ?_⟩
  · exact Nat.lt_min.2 ⟨Nat.pos_of_ne_zero h, by decide⟩
  · intro m src dest
    rw [fwCopyMem, dif_neg h]

theorem fwCopyLoop_mem {d d' : Device} {readBuf readBuf' : Mem} {src dest rest : ℕ}
    (h : fwCopyLoop d readBuf src dest rest = (d', readBuf', true)) :
    d'.mem = fwCopyMem d.mem src dest rest := by
  induction d, readBuf, src, dest, rest using fwCopyLoop.induct with
  | case1 d readBuf src dest =>
    rw [fwCopyLoop, dif_pos rfl] at h
    cases h
    rw [fwCopyMem, dif_pos rfl]
  | case2 d readBuf src dest rest hrest hpos d₁ hwrite =>
    rw [fwCopyLoop, dif_neg hrest, hwrite] at h
    cases h
  | case3 d readBuf src dest rest hrest hpos d₁ hwrite ih =>
    rw [fwCopyLoop, dif_neg hrest, hwrite] at h
    obtain ⟨n, hmem, hall⟩ := flashWrite_mem d dest
      (flashRead d.mem src (min rest bflbBoot2ReadbufSize))
    rw [hwrite] at hmem hall
    rw [hall rfl, List.take_length] at hmem
    rw [ih h, hmem, fwCopyMem.eq_def _ _ _ rest, dif_neg hrest]

theorem fwCopyLoop_success {d : Device} {readBuf : Mem} {src dest rest : ℕ} (hd : Quiet d) :
    (fwCopyLoop d readBuf src dest rest).2.2 = true := by
  induction d, readBuf, src, dest, rest using fwCopyLoop.induct with
  | case1 d readBuf src dest => rw [fwCopyLoop, dif_pos rfl]
  | case2 d readBuf src dest rest hrest hpos d₁ hwrite =>
    have h := (quiet_flashWrite dest (flashRead d.mem src (min rest bflbBoot2ReadbufSize)) hd).2
    rw [hwrite] at h
    cases h
  | case3 d readBuf src dest rest hrest hpos d₁ hwrite ih =>
    have h := (quiet_flashWrite dest (flashRead d.mem src (min rest bflbBoot2ReadbufSize)) hd).1
    rw [hwrite] at h
    rw [fwCopyLoop, dif_neg hrest, hwrite]
    exact ih h

/-- The copy changes only the bytes it is for. -/
theorem fwCopyMem_outside {m : Mem} {src dest rest x : ℕ} (hend : dest + rest ≤ 2 ^ 32)
    (hx : x < dest ∨ dest + rest ≤ x) : fwCopyMem m src dest rest x = m x := by
  induction rest using Nat.strongRecOn generalizing m src dest with
  | ind rest ih =>
    by_cases hrest : rest = 0
    · rw [hrest, fwCopyMem_nil]
    · obtain ⟨n, hpos, hle, hblock⟩ := fwCopyMem_block hrest
      have hprogram : sflashProgram m dest (flashRead m src n) x = m x := by
        rw [sflashProgram_eq (by rw [length_flashRead]; omega), Nor.program_outside]
        rw [length_flashRead]
        omega
      rw [hblock]
      by_cases hlast : rest = n
      · rw [hlast, Nat.sub_self, fwCopyMem_nil, hprogram]
      · have hdest : u32 (dest + n) = dest + n := u32_of_lt (by omega)
        rw [hdest, ih (rest - n) (by omega) (by omega) (by omega), hprogram]

/-- **The copy loop**: into an erased slot, from bytes outside of it, it copies. -/
theorem fwCopyMem_copied {m : Mem} {src dest rest : ℕ} (hend : dest + rest ≤ 2 ^ 32)
    (hblank : Nor.Blank m dest (dest + rest))
    (hapart : ∀ i, i < rest → u32 (src + i) < dest ∨ dest + rest ≤ u32 (src + i)) :
    flashRead (fwCopyMem m src dest rest) dest rest = flashRead m src rest := by
  induction rest using Nat.strongRecOn generalizing m src dest with
  | ind rest ih =>
    by_cases hrest : rest = 0
    · subst hrest
      rfl
    obtain ⟨n, hpos, hle, hblock⟩ := fwCopyMem_block hrest
    have hlen := length_flashRead m src n
    have hprogram : sflashProgram m dest (flashRead m src n) = write m dest (flashRead m src n) := by
      rw [sflashProgram_eq (by omega), Nor.program_of_blank]
      exact hblank.mono (Nat.le_refl _) (by omega)
    have hfirst : flashRead (write m dest (flashRead m src n)) dest n = flashRead m src n := by
      have hsame := read_write_same m dest (flashRead m src n)
      rw [hlen] at hsame
      rw [flashRead_eq (by omega), hsame]
    rw [hblock, hprogram]
    by_cases hlast : rest = n
    · subst hlast
      rw [Nat.sub_self, fwCopyMem_nil, hfirst]
    have hdest : u32 (dest + n) = dest + n := u32_of_lt (by omega)
    have hsrc : ∀ i, i < rest - n → u32 (u32 (src + n) + i) < dest ∨
        dest + rest ≤ u32 (u32 (src + n) + i) := by
      intro i hi
      rw [u32_add, Nat.add_assoc]
      exact hapart (n + i) (by omega)
    have hrestRead : flashRead (write m dest (flashRead m src n)) (u32 (src + n)) (rest - n) =
        flashRead m (u32 (src + n)) (rest - n) := by
      refine flashRead_congr fun i hi => write_outside ?_
      rw [hlen]
      have h := hsrc i hi
      omega
    have hblank' : Nor.Blank (write m dest (flashRead m src n)) (dest + n)
        (dest + n + (rest - n)) := by
      intro x hx hx'
      rw [write_outside (.inr (by omega))]
      exact hblank x (by omega) (by omega)
    rw [hdest]
    have hcopied : flashRead (fwCopyMem (write m dest (flashRead m src n)) (u32 (src + n))
        (dest + n) (rest - n)) (dest + n) (rest - n) =
        flashRead (write m dest (flashRead m src n)) (u32 (src + n)) (rest - n) := by
      refine ih (rest - n) (by omega) (by omega) hblank' ?_
      intro i hi
      have h := hsrc i hi
      omega
    have hhead : flashRead (fwCopyMem (write m dest (flashRead m src n)) (u32 (src + n))
        (dest + n) (rest - n)) dest n = flashRead m src n := by
      refine (flashRead_congr fun i hi => ?_).trans hfirst
      have haddr : u32 (dest + i) = dest + i := u32_of_lt (by omega)
      rw [haddr, fwCopyMem_outside (by omega) (.inl (by omega))]
    have hsum : rest = n + (rest - n) := by omega
    calc flashRead (fwCopyMem (write m dest (flashRead m src n)) (u32 (src + n)) (dest + n)
          (rest - n)) dest rest
        = flashRead m src n ++ flashRead m (u32 (src + n)) (rest - n) := by
          conv_lhs => rw [hsum, flashRead_append]
          rw [← hsum, hhead, hdest, hcopied, hrestRead]
      _ = flashRead m src rest := by rw [← flashRead_append, ← hsum]

/-! ## The erase -/

/-- The destination slot is empty, or runs over the end of the address space: `flash_erase`
succeeds without an erase. -/
def ErasesNothing (dest maxLen : ℕ) : Prop := eraseEndaddr dest maxLen < dest

/-- The destination slot reaches into the last sector of the address space: `flash_erase` never
returns. -/
def ErasesForever (dest maxLen : ℕ) : Prop :=
  dest ≤ eraseEndaddr dest maxLen ∧ sectorEnd (eraseEndaddr dest maxLen) = 2 ^ 32

/-- The array after a successful erase of the destination slot. -/
def ErasedSlot (dest maxLen : ℕ) (m m' : Mem) : Prop :=
  (ErasesNothing dest maxLen ∧ m' = m) ∨
    (dest ≤ eraseEndaddr dest maxLen ∧ sectorEnd (eraseEndaddr dest maxLen) < 2 ^ 32 ∧
      m' = Nor.erase m (sectorStart dest) (sectorEnd (eraseEndaddr dest maxLen)))

theorem ErasedSlot.unique {dest maxLen : ℕ} {m m₁ m₂ : Mem} (h₁ : ErasedSlot dest maxLen m m₁)
    (h₂ : ErasedSlot dest maxLen m m₂) : m₁ = m₂ := by
  rcases h₁ with ⟨hnothing, rfl⟩ | ⟨hle, -, rfl⟩
  · rcases h₂ with ⟨-, rfl⟩ | ⟨hle, -, -⟩
    · rfl
    · exact absurd hnothing (Nat.not_lt.2 hle)
  · rcases h₂ with ⟨hnothing, -⟩ | ⟨-, -, rfl⟩
    · exact absurd hnothing (Nat.not_lt.2 hle)
    · rfl

theorem flashErase_erased {d d' : Device} {dest maxLen : ℕ}
    (h : flashErase d dest maxLen = (d', .success)) : ErasedSlot dest maxLen d.mem d'.mem := by
  have hfull : eraseFull d dest (eraseEndaddr dest maxLen) = (d', .success) := by
    unfold flashErase at h
    split at h
    · cases hfault : d.fault with
      | none =>
        rw [hfault] at h
        exact h
      | error n =>
        rw [hfault] at h
        cases h
      | powerLoss n =>
        rw [hfault] at h
        cases h
    · cases h
  have hmem := eraseFull_mem d dest (eraseEndaddr dest maxLen)
  rw [hfull] at hmem
  by_cases hlt : eraseEndaddr dest maxLen < dest
  · rw [sflashErase_of_lt hlt] at hmem
    exact .inl ⟨hlt, hmem⟩
  have hle := Nat.not_lt.1 hlt
  have hend : sectorEnd (eraseEndaddr dest maxLen) < 2 ^ 32 := by
    refine lt_of_le_of_ne (sectorEnd_le (u32_lt _)) fun hlast => ?_
    unfold eraseFull at hfull
    rw [sflashErase_last_sector hle hlast] at hfull
    cases hfull
  have hpasses : sectorEnd (eraseEndaddr dest maxLen) ≤
      sectorStart dest + erasePasses (eraseEndaddr dest maxLen) * sectorSize := by
    unfold sectorEnd erasePasses
    exact Nat.le_add_left _ _
  rw [sflashErase_eq _ _ hle hend hpasses] at hmem
  exact .inr ⟨hle, hend, hmem⟩

/-- On a device that carries out whatever it is asked for, an erase that ends succeeds. -/
theorem flashErase_success {d : Device} {dest maxLen : ℕ} (hd : Quiet d)
    (h : ¬ ErasesForever dest maxLen) : (flashErase d dest maxLen).2 = .success := by
  unfold flashErase eraseFull
  rw [if_pos hd.1, hd.fault]
  dsimp only
  have hended : (sflashErase d.flashCfg (erasePasses (eraseEndaddr dest maxLen)) d.mem dest
      (eraseEndaddr dest maxLen)).2 = true := by
    by_cases hlt : eraseEndaddr dest maxLen < dest
    · rw [erasePasses, sflashErase, if_neg (by omega)]
    have hle := Nat.not_lt.1 hlt
    have hend : sectorEnd (eraseEndaddr dest maxLen) < 2 ^ 32 :=
      lt_of_le_of_ne (sectorEnd_le (u32_lt _)) fun hlast => h ⟨hle, hlast⟩
    rw [sflashErase_eq _ _ hle hend]
    unfold sectorEnd erasePasses
    exact Nat.le_add_left _ _
  rw [if_pos hended]

/-! ## The copy -/

section Slots

variable (src dest maxLen len : ℕ)

/-- What a successful copy should have done to the flash: the destination slot begins with the
image of the source slot, the rest of it is erased, and nothing else has changed. -/
structure ImageCopied (m m' : Mem) : Prop where
  copied : flashRead m' dest len = flashRead m src len
  blank : ∀ x, x < 2 ^ 32 → dest + len ≤ x → x < dest + maxLen → m' x = 0xFF
  outside : ∀ x, x < 2 ^ 32 → x < dest ∨ dest + maxLen ≤ x → m' x = m x

/-- The destination slot consists of sectors, the image fits it, and none of the image's bytes is
in it. -/
structure SlotsApart : Prop where
  nonempty : 0 < maxLen
  inside : dest + maxLen < 2 ^ 32
  first : sectorStart dest = dest
  last : sectorStart (dest + maxLen) = dest + maxLen
  fits : len ≤ maxLen
  apart : ∀ i, i < len → u32 (src + i) < dest ∨ dest + maxLen ≤ u32 (src + i)

end Slots

section Copy

variable {src dest maxLen len : ℕ}

theorem sectorEnd_last (h : 0 < maxLen) (hlast : sectorStart (dest + maxLen) = dest + maxLen) :
    sectorEnd (dest + maxLen - 1) = dest + maxLen := by
  unfold sectorStart at hlast
  unfold sectorEnd
  generalize (dest + maxLen) / sectorSize = q at hlast
  unfold sectorSize at *
  have hlt : (dest + maxLen - 1) / 4096 + 1 = q := by omega
  rw [hlt, hlast]

/-- Slots that are apart: the copy is right. -/
theorem imageCopied_apart (h : SlotsApart src dest maxLen len) {m m' : Mem}
    (herase : ErasedSlot dest maxLen m m') :
    ImageCopied src dest maxLen len m (fwCopyMem m' src dest len) := by
  have hendaddr : eraseEndaddr dest maxLen = dest + maxLen - 1 :=
    eraseEndaddr_eq h.nonempty (Nat.le_of_lt h.inside)
  have hnonempty := h.nonempty
  have hinside := h.inside
  have hfits := h.fits
  have hm' : m' = Nor.erase m dest (dest + maxLen) := by
    rcases herase with ⟨hnothing, -⟩ | ⟨-, -, herased⟩
    · rw [ErasesNothing, hendaddr] at hnothing
      omega
    · rw [herased, hendaddr, h.first, sectorEnd_last h.nonempty h.last]
  have hblank : Nor.Blank m' dest (dest + len) := by
    rw [hm']
    exact (Nor.blank_erase m _ _).mono (Nat.le_refl _) (by omega)
  constructor
  · rw [fwCopyMem_copied (by omega) hblank]
    · refine flashRead_congr fun i hi => ?_
      have hapart := h.apart i hi
      rw [hm', Nor.erase_outside (by omega)]
    · intro i hi
      have hapart := h.apart i hi
      omega
  · intro x _ hx hx'
    rw [fwCopyMem_outside (by omega) (.inr hx), hm', Nor.erase_inside (by omega) hx']
  · intro x _ hx
    rw [fwCopyMem_outside (by omega) (by omega), hm', Nor.erase_outside hx]

end Copy

/-! ## The function -/

/-- `src_address`. -/
def srcAddress (e : PtTableEntry) : ℕ := e.startAddress (e.activeIndex % 2)

/-- `dest_address`. -/
def destAddress (e : PtTableEntry) : ℕ := e.startAddress (notIndex e.activeIndex)

/-- `dest_max_size`. -/
def destMaxSize (e : PtTableEntry) : ℕ := e.maxLen (notIndex e.activeIndex)

section Function

variable {e : PtTableEntry}

/-- A copy that succeeds has erased the slot and run through the loop. -/
theorem doFwCopy_mem {d d' : Device} {readBuf readBuf' : Mem}
    (h : blspBoot2DoFwCopy d readBuf e = (d', readBuf', true)) :
    ∃ m, ErasedSlot (destAddress e) (destMaxSize e) d.mem m ∧
      d'.mem = fwCopyMem m (srcAddress e) (destAddress e) e.len := by
  unfold blspBoot2DoFwCopy at h
  split at h
  · cases h
  · rename_i d₁ herase
    exact ⟨d₁.mem, flashErase_erased herase, fwCopyLoop_mem h⟩

/-- On a device that carries out whatever it is asked for, a copy whose erase ends succeeds. -/
theorem doFwCopy_success {d : Device} (hd : Quiet d) (readBuf : Mem)
    (h : ¬ ErasesForever (destAddress e) (destMaxSize e)) :
    ∃ d' readBuf', blspBoot2DoFwCopy d readBuf e = (d', readBuf', true) := by
  have hsuccess := flashErase_success hd h
  have hquiet := quiet_flashErase hd hsuccess
  unfold destAddress destMaxSize at hsuccess hquiet
  have hloop : (blspBoot2DoFwCopy d readBuf e).2.2 = true := by
    unfold blspBoot2DoFwCopy
    split
    · rename_i d₁ herase
      rw [herase] at hsuccess
      cases hsuccess
    · rename_i d₁ herase
      rw [herase] at hquiet
      exact fwCopyLoop_success hquiet
  exact ⟨_, _, Prod.ext rfl (Prod.ext rfl hloop)⟩

end Function

/-! ## One slot for both -/

end Boot
