import LegoTrain.Lib.Nor

/-!
# The flash device and its driver

The serial flash behind `flash_read`, `flash_write` and `flash_erase` of
`hal_flash.c`.  Addresses are `uint32_t`, so the drivers' address arithmetic is
modulo `2 ^ 32`; the array itself is a NOR flash.

* `sflashErase` is the loop of `SFlash_Erase`, which erases the range in blocks of
  64 KiB, 32 KiB or one sector; `sflashErase_eq` says that it erases the sectors from
  the one of the start address to the one of the inclusive end address, and
  `sflashErase_last_sector` that it never ends when the end address lies in the last
  sector of the address space;
* `Device` adds what can go wrong: each erase or write may fail half way, or the power
  may be cut during it.
-/

namespace Flash

open ByteMem

/-- `uint32_t` arithmetic. -/
def u32 (n : ℕ) : ℕ := n % 2 ^ 32

theorem u32_of_lt {n : ℕ} (h : n < 2 ^ 32) : u32 n = n := Nat.mod_eq_of_lt h

theorem u32_lt (n : ℕ) : u32 n < 2 ^ 32 := Nat.mod_lt _ (by decide)

theorem u32_add (a i : ℕ) : u32 (u32 a + i) = u32 (a + i) := Nat.mod_add_mod _ _ _

/-- `flash_read` as a function of the array. -/
def flashRead (m : Mem) (addr len : ℕ) : List UInt8 :=
  (List.range len).map fun i => m (u32 (addr + i))

@[simp] theorem length_flashRead (m : Mem) (addr len : ℕ) : (flashRead m addr len).length = len := by
  simp [flashRead]

theorem flashRead_eq {m : Mem} {addr len : ℕ} (h : addr + len ≤ 2 ^ 32) :
    flashRead m addr len = read m addr len := by
  refine List.map_congr_left fun i hi => ?_
  have hi : i < len := by simpa using hi
  rw [u32_of_lt (by omega)]

theorem flashRead_congr {m m' : Mem} {addr addr' n : ℕ}
    (h : ∀ i, i < n → m (u32 (addr + i)) = m' (u32 (addr' + i))) :
    flashRead m addr n = flashRead m' addr' n :=
  List.map_congr_left fun i hi => h i (by simpa using hi)

/-- The array after programming `data` from `addr` on. -/
def sflashProgram : Mem → ℕ → List UInt8 → Mem
  | m, _, [] => m
  | m, addr, b :: data => sflashProgram (Nor.program m (u32 addr) [b]) (addr + 1) data

theorem sflashProgram_eq {m : Mem} {addr : ℕ} {data : List UInt8}
    (h : addr + data.length ≤ 2 ^ 32) : sflashProgram m addr data = Nor.program m addr data := by
  induction data generalizing m addr with
  | nil => rw [sflashProgram, Nor.program_nil]
  | cons b data ih =>
    rw [List.length_cons] at h
    rw [sflashProgram, u32_of_lt (by omega), ih (by omega), ← Nor.program_cons]

/-- Programming changes only the bytes it addresses. -/
theorem sflashProgram_outside {m : Mem} {addr x : ℕ} {data : List UInt8}
    (h : ∀ i, i < data.length → u32 (addr + i) ≠ x) : sflashProgram m addr data x = m x := by
  induction data generalizing m addr with
  | nil => rfl
  | cons b data ih =>
    have h0 : u32 addr ≠ x := h 0 (Nat.succ_pos _)
    have hs : ∀ i, i < data.length → u32 (addr + 1 + i) ≠ x := by
      intro i hi
      rw [Nat.add_assoc, Nat.add_comm 1 i]
      exact h (i + 1) (Nat.succ_lt_succ hi)
    rw [sflashProgram, ih hs, Nor.program_outside]
    rw [List.length_singleton]
    omega

/-- `flashCfg->sectorSize * 1024`. -/
def sectorSize : ℕ := 4096

/-- The first address of the sector of `addr`. -/
def sectorStart (addr : ℕ) : ℕ := addr / sectorSize * sectorSize

/-- The first address after the sector of `addr`. -/
def sectorEnd (addr : ℕ) : ℕ := (addr / sectorSize + 1) * sectorSize

theorem sectorStart_le (addr : ℕ) : sectorStart addr ≤ addr := Nat.div_mul_le_self _ _

theorem lt_sectorEnd (addr : ℕ) : addr < sectorEnd addr := by
  unfold sectorEnd sectorSize
  omega

theorem sectorStart_sector (addr k : ℕ) :
    sectorStart (sectorStart addr + k * sectorSize) = sectorStart addr + k * sectorSize := by
  unfold sectorStart sectorSize
  omega

/-- A range within one sector, from its first byte on. -/
theorem sectorEnd_of_sector {addr len : ℕ} (ha : sectorStart addr = addr) (hlen : 0 < len)
    (hlen' : len ≤ sectorSize) : sectorEnd (addr + len - 1) = addr + sectorSize := by
  have hq : (addr + len - 1) / sectorSize = addr / sectorSize := by
    unfold sectorStart sectorSize at *
    generalize addr / 4096 = q at *
    omega
  rw [sectorEnd, hq, Nat.add_mul, Nat.one_mul]
  exact congrArg (· + sectorSize) ha

/-- The block erase commands of the flash configuration (`SPI_Flash_Cfg_Type`): a chip
without the command has `BFLB_SPIFLASH_CMD_INVALID` there. -/
structure SpiFlashCfg where
  blk32EraseCmd : Bool
  blk64EraseCmd : Bool
  deriving DecidableEq, Repr

/-- One pass of the loop of `SFlash_Erase`: the first address and the length of the block
it erases. -/
def eraseBlock (flashCfg : SpiFlashCfg) (startaddr endaddr : ℕ) : ℕ × ℕ :=
  if flashCfg.blk64EraseCmd ∧ startaddr % 65536 = 0
      ∧ endaddr - startaddr + 1 > 65536 - sectorSize then (startaddr, 65536)
  else if flashCfg.blk32EraseCmd ∧ startaddr % 32768 = 0
      ∧ endaddr - startaddr + 1 > 32768 - sectorSize then (startaddr, 32768)
  else (sectorStart startaddr, sectorSize)

/-- `SFlash_Erase`, cut after `fuel` passes: the array, and whether the loop has ended. -/
def sflashErase (flashCfg : SpiFlashCfg) : ℕ → Mem → ℕ → ℕ → Mem × Bool
  | 0, m, startaddr, endaddr => (m, decide (endaddr < startaddr))
  | fuel + 1, m, startaddr, endaddr =>
    if startaddr ≤ endaddr then
      let blk := eraseBlock flashCfg startaddr endaddr
      sflashErase flashCfg fuel (Nor.erase m blk.1 (blk.1 + blk.2)) (u32 (blk.1 + blk.2)) endaddr
    else (m, true)

/-- A block starts with the sector of the start address and ends, on a sector boundary, no
later than the sector of the end address. -/
theorem eraseBlock_spec (flashCfg : SpiFlashCfg) {startaddr endaddr : ℕ}
    (h : startaddr ≤ endaddr) :
    ∃ k, 0 < k ∧ eraseBlock flashCfg startaddr endaddr = (sectorStart startaddr, k * sectorSize) ∧
      sectorStart startaddr + k * sectorSize ≤ sectorEnd endaddr := by
  unfold eraseBlock
  split
  · rename_i hb
    have hs : sectorStart startaddr = startaddr := by unfold sectorStart sectorSize; omega
    refine ⟨16, by decide, by rw [hs]; rfl, ?_⟩
    unfold sectorEnd sectorSize at *
    omega
  split
  · rename_i hb
    have hs : sectorStart startaddr = startaddr := by unfold sectorStart sectorSize; omega
    refine ⟨8, by decide, by rw [hs]; rfl, ?_⟩
    unfold sectorEnd sectorSize at *
    omega
  · refine ⟨1, by decide, by rw [Nat.one_mul], ?_⟩
    unfold sectorStart sectorEnd sectorSize
    omega

variable {flashCfg : SpiFlashCfg}

/-- The loop changes only the sectors from the start address to the end address. -/
theorem sflashErase_outside {fuel startaddr endaddr x : ℕ} {m : Mem}
    (he : sectorEnd endaddr < 2 ^ 32) (h : x < sectorStart startaddr ∨ sectorEnd endaddr ≤ x) :
    (sflashErase flashCfg fuel m startaddr endaddr).1 x = m x := by
  induction fuel generalizing m startaddr with
  | zero => rfl
  | succ fuel ih =>
    rw [sflashErase]
    split
    · rename_i hle
      obtain ⟨k, hk, heq, hend⟩ := eraseBlock_spec flashCfg hle
      simp only [heq, u32_of_lt (Nat.lt_of_le_of_lt hend he)]
      rw [ih (by rw [sectorStart_sector]; omega), Nor.erase_outside (by omega)]
    · rfl

/-- With enough passes, the loop erases exactly the sectors from the one of the start
address to the one of the inclusive end address. -/
theorem sflashErase_eq (flashCfg : SpiFlashCfg) (fuel : ℕ) {startaddr endaddr : ℕ} {m : Mem} (hle : startaddr ≤ endaddr)
    (he : sectorEnd endaddr < 2 ^ 32)
    (hf : sectorEnd endaddr ≤ sectorStart startaddr + fuel * sectorSize) :
    sflashErase flashCfg fuel m startaddr endaddr
      = (Nor.erase m (sectorStart startaddr) (sectorEnd endaddr), true) := by
  induction fuel generalizing m startaddr with
  | zero =>
    have h1 := sectorStart_le startaddr
    have h2 := lt_sectorEnd endaddr
    omega
  | succ fuel ih =>
    obtain ⟨k, hk, heq, hend⟩ := eraseBlock_spec flashCfg hle
    rw [sflashErase, if_pos hle]
    simp only [heq, u32_of_lt (Nat.lt_of_le_of_lt hend he)]
    by_cases hmore : sectorStart startaddr + k * sectorSize ≤ endaddr
    · have hfuel : sectorEnd endaddr
          ≤ sectorStart startaddr + k * sectorSize + fuel * sectorSize := by
        have hk1 : 1 * sectorSize ≤ k * sectorSize := Nat.mul_le_mul_right _ hk
        rw [Nat.add_mul] at hf
        omega
      rw [ih hmore (by rw [sectorStart_sector]; exact hfuel), sectorStart_sector,
        Nor.erase_erase (by omega) hend]
    · -- the block ends with the sector of the end address
      have hlast : sectorStart startaddr + k * sectorSize = sectorEnd endaddr := by
        unfold sectorEnd sectorStart sectorSize at *
        omega
      rw [hlast]
      have hlt := lt_sectorEnd endaddr
      cases fuel with
      | zero => rw [sflashErase, decide_eq_true hlt]
      | succ fuel => rw [sflashErase, if_neg (by omega)]

/-- The address after the last sector is `0` again, so an erase that reaches it never
ends. -/
theorem sflashErase_last_sector {fuel startaddr endaddr : ℕ} {m : Mem}
    (hle : startaddr ≤ endaddr) (hlast : sectorEnd endaddr = 2 ^ 32) :
    (sflashErase flashCfg fuel m startaddr endaddr).2 = false := by
  induction fuel generalizing m startaddr with
  | zero => exact decide_eq_false (by omega)
  | succ fuel ih =>
    obtain ⟨k, hk, heq, hend⟩ := eraseBlock_spec flashCfg hle
    rw [sflashErase, if_pos hle]
    simp only [heq]
    refine ih ?_
    by_cases hmore : sectorStart startaddr + k * sectorSize < 2 ^ 32
    · rw [u32_of_lt hmore]
      unfold sectorEnd sectorStart sectorSize at *
      omega
    · have hwrap : sectorStart startaddr + k * sectorSize = 2 ^ 32 := by omega
      rw [hwrap]
      exact Nat.zero_le _

/-- An erase whose end address lies before its start address does nothing. -/
theorem sflashErase_of_lt {fuel startaddr endaddr : ℕ} {m : Mem} (h : endaddr < startaddr) :
    (sflashErase flashCfg fuel m startaddr endaddr).1 = m := by
  cases fuel with
  | zero => rfl
  | succ fuel => rw [sflashErase, if_neg (Nat.not_le.2 h)]

theorem sflashErase_zero (m : Mem) (startaddr endaddr : ℕ) :
    (sflashErase flashCfg 0 m startaddr endaddr).1 = m := rfl

-- from here on the loop is used through its lemmas only
attribute [irreducible] sflashErase

/-! ## The device -/

/-- `BL_Err_Type`, as far as the flash drivers use it. -/
inductive BLErr
  | success
  | error
  deriving DecidableEq, Repr

/-- What happens to one flash operation. -/
inductive Fault
  /-- it is carried out -/
  | none
  /-- the driver gives up after `n` blocks or bytes and reports an error -/
  | error (n : ℕ)
  /-- the power is cut after `n` blocks or bytes -/
  | powerLoss (n : ℕ)
  deriving DecidableEq, Repr

/-- The flash as the running program sees it.  Once `running` is false, no operation has
an effect until the next reset. -/
structure Device where
  flashCfg : SpiFlashCfg
  mem : Mem
  running : Bool
  /-- what happens to the next operations, one entry each; after the last entry they all
  succeed -/
  faults : List Fault

/-- The fault of the next operation. -/
def Device.fault (d : Device) : Fault := d.faults.headD .none

/-- The inclusive end address that `flash_erase` computes. -/
def eraseEndaddr (startaddr len : ℕ) : ℕ := u32 (startaddr + len + (2 ^ 32 - 1))

/-- The passes after which an erase has ended, when it ends at all: one for each sector up
to that of the end address. -/
def erasePasses (endaddr : ℕ) : ℕ := endaddr / sectorSize + 1

/-- `XIP_SFlash_Erase_Need_Lock` with nothing to disturb it.  An erase that never ends (its
end address lies in the last sector) has run over the whole array after as many passes as
there are sectors. -/
def eraseFull (d : Device) (startaddr endaddr : ℕ) : Device × BLErr :=
  if (sflashErase d.flashCfg (erasePasses endaddr) d.mem startaddr endaddr).2 then
    ({ d with
        mem := (sflashErase d.flashCfg (erasePasses endaddr) d.mem startaddr endaddr).1
        faults := d.faults.tail }, .success)
  else
    ({ d with
        mem := (sflashErase d.flashCfg (erasePasses endaddr) d.mem startaddr endaddr).1
        running := false
        faults := d.faults.tail }, .error)

/-- `flash_erase`. -/
def flashErase (d : Device) (startaddr len : ℕ) : Device × BLErr :=
  if d.running then
    match d.fault with
    | .none => eraseFull d startaddr (eraseEndaddr startaddr len)
    | .error n =>
      ({ d with
          mem := (sflashErase d.flashCfg n d.mem startaddr (eraseEndaddr startaddr len)).1
          faults := d.faults.tail }, .error)
    | .powerLoss n =>
      ({ d with
          mem := (sflashErase d.flashCfg n d.mem startaddr (eraseEndaddr startaddr len)).1
          running := false
          faults := d.faults.tail }, .error)
  else (d, .error)

/-- `flash_write`. -/
def flashWrite (d : Device) (addr : ℕ) (data : List UInt8) : Device × BLErr :=
  if d.running then
    match d.fault with
    | .none => ({ d with mem := sflashProgram d.mem addr data, faults := d.faults.tail }, .success)
    | .error n =>
      ({ d with mem := sflashProgram d.mem addr (data.take n), faults := d.faults.tail }, .error)
    | .powerLoss n =>
      ({ d with mem := sflashProgram d.mem addr (data.take n), running := false,
                faults := d.faults.tail }, .error)
  else (d, .error)

theorem eraseEndaddr_eq {startaddr len : ℕ} (hlen : 0 < len) (h : startaddr + len ≤ 2 ^ 32) :
    eraseEndaddr startaddr len = startaddr + len - 1 := by
  unfold eraseEndaddr u32
  omega

theorem eraseFull_mem (d : Device) (startaddr endaddr : ℕ) :
    (eraseFull d startaddr endaddr).1.mem
      = (sflashErase d.flashCfg (erasePasses endaddr) d.mem startaddr endaddr).1 := by
  unfold eraseFull
  split <;> rfl

/-- Whatever happens, an erase leaves the array as it was or cut after some passes. -/
theorem flashErase_mem (d : Device) (startaddr len : ℕ) :
    (flashErase d startaddr len).1.mem = d.mem ∨ ∃ n, (flashErase d startaddr len).1.mem
      = (sflashErase d.flashCfg n d.mem startaddr (eraseEndaddr startaddr len)).1 := by
  unfold flashErase
  split
  · right
    cases d.fault with
    | none => exact ⟨_, eraseFull_mem d startaddr _⟩
    | error n => exact ⟨n, rfl⟩
    | powerLoss n => exact ⟨n, rfl⟩
  · exact .inl rfl

/-- Whatever happens, an erase changes only the sectors from the start address to the
inclusive end address. -/
theorem flashErase_outside {d : Device} {startaddr len x : ℕ}
    (he : sectorEnd (eraseEndaddr startaddr len) < 2 ^ 32)
    (h : x < sectorStart startaddr ∨ sectorEnd (eraseEndaddr startaddr len) ≤ x) :
    (flashErase d startaddr len).1.mem x = d.mem x := by
  rcases flashErase_mem d startaddr len with hm | ⟨n, hm⟩
  · rw [hm]
  · rw [hm, sflashErase_outside he h]

theorem flashErase_of_lt {d : Device} {startaddr len : ℕ}
    (h : eraseEndaddr startaddr len < startaddr) :
    (flashErase d startaddr len).1.mem = d.mem := by
  rcases flashErase_mem d startaddr len with hm | ⟨n, hm⟩
  · exact hm
  · rw [hm, sflashErase_of_lt h]

theorem sectorEnd_le {addr : ℕ} (h : addr < 2 ^ 32) : sectorEnd addr ≤ 2 ^ 32 := by
  unfold sectorEnd sectorSize
  omega

/-- An erase that nothing disturbs. -/
theorem flashErase_ok {d : Device} {startaddr len : ℕ} (hrun : d.running = true)
    (hf : d.fault = .none) (hlen : 0 < len) (he : sectorEnd (startaddr + len - 1) < 2 ^ 32) :
    flashErase d startaddr len
      = ({ d with mem := Nor.erase d.mem (sectorStart startaddr) (sectorEnd (startaddr + len - 1)),
                  faults := d.faults.tail }, .success) := by
  have hlt := lt_sectorEnd (startaddr + len - 1)
  have hend : eraseEndaddr startaddr len = startaddr + len - 1 := eraseEndaddr_eq hlen (by omega)
  have hfuel : sectorEnd (startaddr + len - 1)
      ≤ sectorStart startaddr + erasePasses (startaddr + len - 1) * sectorSize := by
    unfold sectorEnd erasePasses
    exact Nat.le_add_left _ _
  have hloop := sflashErase_eq d.flashCfg _ (by omega) he hfuel (m := d.mem)
  rw [flashErase, if_pos hrun, hf, hend, eraseFull, hloop, if_pos rfl]

/-- Whatever happens, an erase within one sector is carried out in full or not at all, and
in full when it reports success. -/
theorem flashErase_sector (d : Device) {startaddr len : ℕ} (ha : sectorStart startaddr = startaddr)
    (hlen : 0 < len) (hlen' : len ≤ sectorSize) (h : startaddr + sectorSize < 2 ^ 32) :
    ((flashErase d startaddr len).1.mem = d.mem ∧ (flashErase d startaddr len).2 = .error) ∨
      (flashErase d startaddr len).1.mem = Nor.erase d.mem startaddr (startaddr + sectorSize) := by
  have hend : eraseEndaddr startaddr len = startaddr + len - 1 := eraseEndaddr_eq hlen (by omega)
  have hsec := sectorEnd_of_sector ha hlen hlen'
  have hcut : ∀ n, (sflashErase d.flashCfg (n + 1) d.mem startaddr (startaddr + len - 1)).1
      = Nor.erase d.mem startaddr (startaddr + sectorSize) := by
    intro n
    rw [sflashErase_eq _ _ (by omega) (by omega), hsec, ha]
    rw [hsec, ha, Nat.add_mul]
    omega
  unfold flashErase
  rw [hend]
  split
  · cases d.fault with
    | none =>
      right
      rw [← hcut ((startaddr + len - 1) / sectorSize)]
      exact eraseFull_mem d startaddr _
    | error n =>
      cases n with
      | zero => exact .inl ⟨sflashErase_zero _ _ _, rfl⟩
      | succ n => exact .inr (hcut n)
    | powerLoss n =>
      cases n with
      | zero => exact .inl ⟨sflashErase_zero _ _ _, rfl⟩
      | succ n => exact .inr (hcut n)
  · exact .inl ⟨rfl, rfl⟩

/-- A write that nothing disturbs. -/
theorem flashWrite_ok {d : Device} {addr : ℕ} {data : List UInt8} (hrun : d.running = true)
    (hf : d.fault = .none) (h : addr + data.length ≤ 2 ^ 32) :
    flashWrite d addr data
      = ({ d with mem := Nor.program d.mem addr data, faults := d.faults.tail }, .success) := by
  simp only [flashWrite, hrun, hf, sflashProgram_eq h, if_true]

/-- Whatever happens, a write leaves the array programmed with a prefix of the data, and
with all of it when it reports success. -/
theorem flashWrite_mem (d : Device) (addr : ℕ) (data : List UInt8) :
    ∃ n, (flashWrite d addr data).1.mem = sflashProgram d.mem addr (data.take n) ∧
      ((flashWrite d addr data).2 = .success → n = data.length) := by
  unfold flashWrite
  split
  · cases d.fault with
    | none => exact ⟨data.length, by rw [List.take_length], fun _ => rfl⟩
    | error n => exact ⟨n, rfl, fun h => by cases h⟩
    | powerLoss n => exact ⟨n, rfl, fun h => by cases h⟩
  · exact ⟨0, rfl, fun h => by cases h⟩

/-- Whatever happens, a write changes only the bytes it addresses. -/
theorem flashWrite_outside {d : Device} {addr x : ℕ} {data : List UInt8}
    (h : ∀ i, i < data.length → u32 (addr + i) ≠ x) :
    (flashWrite d addr data).1.mem x = d.mem x := by
  obtain ⟨n, hm, -⟩ := flashWrite_mem d addr data
  rw [hm, sflashProgram_outside]
  intro i hi
  exact h i (Nat.lt_of_lt_of_le hi (List.length_take_le' n data))

end Flash
