import LegoTrain.Flash.Device

/-!
# The flash driver over the chip

`Flash.Device` says what `flash_erase` and `flash_write` do to the array.  Here the two are
carried out command by command, as `bl702_sflash.c` does it, against a serial NOR chip that
takes its time over every erase and every page.

* `Chip` : the chip, with its write enable latch and the time that is left until it is ready;
* `sflashErase`, `sflashProgram` : the loops of the driver, which wait for the chip and give up
  when it is late;
* `pageProgram_eq` : the chip wraps within a page, and the pieces of the driver never do;
* `driver_refines` : a run of erases and writes, up to the first that fails, is a run of the
  device with some list of faults, and without faults when the chip keeps its times;
* `write_ignored` : past that, a write may report success although the late chip took no notice.
-/

namespace Spi

open ByteMem Flash

/-! ## The chip -/

/-- A serial NOR flash of `size` bytes.  Time is counted in reads of the status register. -/
structure Chip where
  size : ℕ
  mem : Mem
  /-- write enable latch -/
  wel : Bool
  /-- the reads of the status register that still find the chip busy -/
  busy : ℕ
  /-- the times of the next operations; after the last one they take no time -/
  delays : List ℕ

namespace Chip

/-- The bytes of a page are programmed one after the other, and the address wraps at the end of
the page of 256 bytes. -/
def pageProgram (m : Mem) (addr : ℕ) : List UInt8 → Mem
  | [] => m
  | b :: data => pageProgram (Nor.program m addr [b]) (addr / 256 * 256 + (addr + 1) % 256) data

/-- Start an operation that leaves the array as `mem`; the latch falls with its end. -/
def start (c : Chip) (mem : Mem) : Chip :=
  { c with mem := mem, busy := c.delays.headD 0, wel := decide (c.delays.headD 0 ≠ 0),
           delays := c.delays.tail }

/-- A command word, with the opcode in its top byte and the address below, and the data after
it.  While it is busy, the chip takes no command. -/
def command (c : Chip) (word : ℕ) (data : List UInt8) : Chip :=
  let addr := word % 2 ^ 24 % c.size
  if c.busy ≠ 0 then c
  else if word / 2 ^ 24 = 0x06 then { c with wel := true }
  else if c.wel = false then c
  else if word / 2 ^ 24 = 0x20 then
    c.start (Nor.erase c.mem (addr / 4096 * 4096) (addr / 4096 * 4096 + 4096))
  else if word / 2 ^ 24 = 0x52 then
    c.start (Nor.erase c.mem (addr / 32768 * 32768) (addr / 32768 * 32768 + 32768))
  else if word / 2 ^ 24 = 0xD8 then
    c.start (Nor.erase c.mem (addr / 65536 * 65536) (addr / 65536 * 65536 + 65536))
  else if word / 2 ^ 24 = 0x02 ∨ word / 2 ^ 24 = 0x32 then c.start (pageProgram c.mem addr data)
  else c

/-- Time goes by. -/
def tick (c : Chip) : Chip :=
  { c with busy := c.busy - 1, wel := if c.busy = 1 then false else c.wel }

/-- Read a status register: the first one has the busy bit and the latch. -/
def readReg (c : Chip) (index : ℕ) : Chip × ℕ :=
  (c.tick, if index = 0 then (if c.busy ≠ 0 then 1 else 0) + (if c.wel then 2 else 0) else 0)

end Chip

/-! ## The driver -/

/-- `SPI_Flash_Cfg_Type`, as far as erasing and programming use it. -/
structure SpiFlashCfgType where
  sectorSize : ℕ
  pageSize : ℕ
  sectorEraseCmd : ℕ
  blk32EraseCmd : ℕ
  blk64EraseCmd : ℕ
  writeEnableCmd : ℕ
  pageProgramCmd : ℕ
  qpageProgramCmd : ℕ
  wrEnableIndex : ℕ
  busyIndex : ℕ
  wrEnableBit : ℕ
  busyBit : ℕ
  timeEsector : ℕ
  timeE32k : ℕ
  timeE64k : ℕ
  timePagePgm : ℕ
  deriving DecidableEq, Repr

/-- `SF_Ctrl_IO_Type`; `other` stands for the values that are none of them. -/
inductive SfCtrlIoType
  | nioMode
  | doMode
  | qoMode
  | dioMode
  | qioMode
  | other
  deriving DecidableEq, Repr

/-- `BFLB_SPIFLASH_CMD_INVALID`. -/
def bflbSpiflashCmdInvalid : ℕ := 0xFF

/-- `BFLB_SPIFLASH_BLK32K_SIZE`. -/
def bflbSpiflashBlk32kSize : ℕ := 32 * 1024

/-- `BFLB_SPIFLASH_BLK64K_SIZE`. -/
def bflbSpiflashBlk64kSize : ℕ := 64 * 1024

section Driver

variable (flashCfg : SpiFlashCfgType)

/-- `SFlash_Busy`. -/
def sflashBusy (c : Chip) : Chip × Bool :=
  ((c.readReg flashCfg.busyIndex).1,
    decide ((c.readReg flashCfg.busyIndex).2 &&& (1 <<< flashCfg.busyBit) ≠ 0))

/-- `while (SET == SFlash_Busy(flashCfg))`, which returns an error when `cnt` has been exceeded:
`n` is what is left of it. -/
def waitBusy : ℕ → Chip → Chip × BLErr
  | 0, c => (c, .error)
  | n + 1, c =>
    if (sflashBusy flashCfg c).2 then waitBusy n (sflashBusy flashCfg c).1
    else ((sflashBusy flashCfg c).1, .success)

/-- `SFlash_Write_Enable`. -/
def sflashWriteEnable (c : Chip) : Chip × BLErr :=
  let r := (c.command (flashCfg.writeEnableCmd <<< 24) []).readReg flashCfg.wrEnableIndex
  if r.2 &&& (1 <<< flashCfg.wrEnableBit) ≠ 0 then (r.1, .success) else (r.1, .error)

/-- One erase command and the wait for its end, for up to `limit` reads of the register. -/
def sflashEraseCmd (cmd addr limit : ℕ) (c : Chip) : Chip × BLErr :=
  match sflashWriteEnable flashCfg c with
  | (c, .error) => (c, .error)
  | (c, .success) => waitBusy flashCfg (limit + 1) (c.command ((cmd <<< 24) ||| addr) [])

/-- `SFlash_Sector_Erase`. -/
def sflashSectorErase (secNum : ℕ) : Chip → Chip × BLErr :=
  sflashEraseCmd flashCfg flashCfg.sectorEraseCmd (u32 (flashCfg.sectorSize * 1024 * secNum))
    (flashCfg.timeEsector * 3)

/-- `SFlash_Blk32_Erase`. -/
def sflashBlk32Erase (blkNum : ℕ) : Chip → Chip × BLErr :=
  sflashEraseCmd flashCfg flashCfg.blk32EraseCmd (u32 (bflbSpiflashBlk32kSize * blkNum))
    (flashCfg.timeE32k * 3)

/-- `SFlash_Blk64_Erase`. -/
def sflashBlk64Erase (blkNum : ℕ) : Chip → Chip × BLErr :=
  sflashEraseCmd flashCfg flashCfg.blk64EraseCmd (u32 (bflbSpiflashBlk64kSize * blkNum))
    (flashCfg.timeE64k * 3)

/-- One pass of the loop of `SFlash_Erase`: the chip, the result and the next start address. -/
def sflashErasePass (startaddr endaddr : ℕ) (c : Chip) : (Chip × BLErr) × ℕ :=
  let len := endaddr - startaddr + 1
  if flashCfg.blk64EraseCmd ≠ bflbSpiflashCmdInvalid ∧
      startaddr &&& (bflbSpiflashBlk64kSize - 1) = 0 ∧
      len > bflbSpiflashBlk64kSize - flashCfg.sectorSize * 1024 then
    (sflashBlk64Erase flashCfg (startaddr / bflbSpiflashBlk64kSize) c,
      u32 (startaddr + bflbSpiflashBlk64kSize))
  else if flashCfg.blk32EraseCmd ≠ bflbSpiflashCmdInvalid ∧
      startaddr &&& (bflbSpiflashBlk32kSize - 1) = 0 ∧
      len > bflbSpiflashBlk32kSize - flashCfg.sectorSize * 1024 then
    (sflashBlk32Erase flashCfg (startaddr / bflbSpiflashBlk32kSize) c,
      u32 (startaddr + bflbSpiflashBlk32kSize))
  else
    let startaddr := startaddr &&& (2 ^ 32 - 1 - (flashCfg.sectorSize * 1024 - 1))
    (sflashSectorErase flashCfg (startaddr / flashCfg.sectorSize / 1024) c,
      u32 (startaddr + flashCfg.sectorSize * 1024))

/-- `SFlash_Erase`; `none` when `fuel` passes do not end it. -/
def sflashErase : ℕ → Chip → ℕ → ℕ → Option (Chip × BLErr)
  | 0, _, _, _ => none
  | fuel + 1, c, startaddr, endaddr =>
    if startaddr ≤ endaddr then
      match sflashErasePass flashCfg startaddr endaddr c with
      | ((c, .error), _) => some (c, .error)
      | ((c, .success), startaddr) => sflashErase fuel c startaddr endaddr
    else some (c, .success)

/-- The program command of an IO mode. -/
def programCmd : SfCtrlIoType → Option ℕ
  | .nioMode | .doMode | .dioMode => some flashCfg.pageProgramCmd
  | .qioMode | .qoMode => some flashCfg.qpageProgramCmd
  | .other => none

/-- The loop of `SFlash_Program`, one page each time; `none` when `fuel` passes do not end it. -/
def sflashProgramLoop (cmd : ℕ) : ℕ → Chip → ℕ → List UInt8 → Option (Chip × BLErr)
  | 0, _, _, _ => none
  | fuel + 1, c, addr, data =>
    if data = [] then some (c, .success)
    else
      match sflashWriteEnable flashCfg c with
      | (c, .error) => some (c, .error)
      | (c, .success) =>
        let curLen := min (flashCfg.pageSize - addr % flashCfg.pageSize) data.length
        match waitBusy flashCfg (flashCfg.timePagePgm * 20 + 1)
            (c.command ((cmd <<< 24) ||| addr) (data.take curLen)) with
        | (c, .error) => some (c, .error)
        | (c, .success) => sflashProgramLoop cmd fuel c (u32 (addr + curLen)) (data.drop curLen)

/-- `SFlash_Program`. -/
def sflashProgram (ioMode : SfCtrlIoType) (c : Chip) (addr : ℕ) (data : List UInt8) :
    Option (Chip × BLErr) :=
  match programCmd flashCfg ioMode with
  | none => some (c, .error)
  | some cmd => sflashProgramLoop flashCfg cmd (data.length + 1) c addr data

end Driver

/-! ## One operation -/

/-- The configuration is that of the chip. -/
structure SpiFlashCfgType.Fits (flashCfg : SpiFlashCfgType) : Prop where
  sectorSize : flashCfg.sectorSize = 4
  pageSize : flashCfg.pageSize = 256
  sectorErase : flashCfg.sectorEraseCmd = 0x20
  blk32Erase : flashCfg.blk32EraseCmd = 0x52 ∨ flashCfg.blk32EraseCmd = bflbSpiflashCmdInvalid
  blk64Erase : flashCfg.blk64EraseCmd = 0xD8 ∨ flashCfg.blk64EraseCmd = bflbSpiflashCmdInvalid
  writeEnable : flashCfg.writeEnableCmd = 0x06
  pageProgram : flashCfg.pageProgramCmd = 0x02
  qpageProgram : flashCfg.qpageProgramCmd = 0x32
  wrEnableIndex : flashCfg.wrEnableIndex = 0
  busyIndex : flashCfg.busyIndex = 0
  wrEnableBit : flashCfg.wrEnableBit = 1
  busyBit : flashCfg.busyBit = 0

/-- The reads of the status register that the driver always has the patience for. -/
def SpiFlashCfgType.patience (flashCfg : SpiFlashCfgType) : ℕ :=
  min (min (flashCfg.timeEsector * 3) (flashCfg.timeE32k * 3))
    (min (flashCfg.timeE64k * 3) (flashCfg.timePagePgm * 20))

/-- The configuration of the device: which block erase commands there are. -/
def SpiFlashCfgType.device (flashCfg : SpiFlashCfgType) : SpiFlashCfg where
  blk32EraseCmd := decide (flashCfg.blk32EraseCmd ≠ bflbSpiflashCmdInvalid)
  blk64EraseCmd := decide (flashCfg.blk64EraseCmd ≠ bflbSpiflashCmdInvalid)

/-- What one operation makes of an idle chip: the array is `mem`, the time of the operation is
spent, and it succeeds when that time is no longer than `limit`. -/
structure Carried (c : Chip) (mem : Mem) (limit : ℕ) (r : Chip × BLErr) : Prop where
  mem : r.1.mem = mem
  size : r.1.size = c.size
  delays : r.1.delays = c.delays.tail
  idle : r.2 = .success → r.1.busy = 0
  inTime : c.delays.headD 0 ≤ limit → r.2 = .success

theorem Carried.mono {c : Chip} {mem : Mem} {k limit : ℕ} {r : Chip × BLErr}
    (h : Carried c mem limit r) (hk : k ≤ limit) : Carried c mem k r :=
  ⟨h.mem, h.size, h.delays, h.idle, fun hle => h.inTime (Nat.le_trans hle hk)⟩

section Operation

variable {flashCfg : SpiFlashCfgType} (h : flashCfg.Fits)
include h

theorem sflashBusy_eq (c : Chip) : sflashBusy flashCfg c = (c.tick, decide (c.busy ≠ 0)) := by
  rw [sflashBusy, h.busyIndex, h.busyBit]
  cases hw : c.wel <;> by_cases hb : c.busy = 0 <;> simp [Chip.readReg, hw, hb]

/-- The wait ends with the chip, or gives up before. -/
theorem waitBusy_spec (n : ℕ) (c : Chip) :
    (waitBusy flashCfg n c).1.mem = c.mem ∧ (waitBusy flashCfg n c).1.size = c.size ∧
      (waitBusy flashCfg n c).1.delays = c.delays ∧
      ((waitBusy flashCfg n c).2 = .success → (waitBusy flashCfg n c).1.busy = 0) ∧
      (c.busy < n → (waitBusy flashCfg n c).2 = .success) := by
  induction n generalizing c with
  | zero => exact ⟨rfl, rfl, rfl, nofun, fun hlt => absurd hlt (Nat.not_lt_zero _)⟩
  | succ n ih =>
    rw [waitBusy, sflashBusy_eq h]
    by_cases hb : c.busy = 0
    · have hidle : c.tick.busy = 0 := by simp [Chip.tick, hb]
      simp only [hb, ne_eq, not_true_eq_false, decide_false, Bool.false_eq_true, if_false]
      exact ⟨rfl, rfl, rfl, fun _ => hidle, fun _ => trivial⟩
    · simp only [hb, ne_eq, not_false_eq_true, decide_true, if_true]
      obtain ⟨hmem, hsize, hdelays, hidle, htime⟩ := ih c.tick
      refine ⟨hmem, hsize, hdelays, hidle, fun hlt => htime ?_⟩
      show c.busy - 1 < n
      omega

theorem sflashWriteEnable_idle {c : Chip} (hidle : c.busy = 0) :
    sflashWriteEnable flashCfg c = ({ c with wel := true }, .success) := by
  have hcmd : c.command (flashCfg.writeEnableCmd <<< 24) [] = { c with wel := true } := by
    rw [h.writeEnable]
    simp [Chip.command, hidle]
  rw [sflashWriteEnable, hcmd, h.wrEnableIndex, h.wrEnableBit]
  simp [Chip.readReg, Chip.tick, hidle]

/-- The wait for an operation that has just been started. -/
theorem carried_waitBusy (c : Chip) (mem : Mem) (limit : ℕ) :
    Carried c mem limit (waitBusy flashCfg (limit + 1) (c.start mem)) := by
  obtain ⟨hmem, hsize, hdelays, hidle, htime⟩ := waitBusy_spec h (limit + 1) (c.start mem)
  exact ⟨hmem, hsize, hdelays, hidle, fun hle => htime (Nat.lt_succ_of_le hle)⟩

end Operation

/-- The command word holds its opcode and its address, as long as the address has 24 bits. -/
theorem word_fields (cmd : ℕ) {addr : ℕ} (h : addr < 2 ^ 24) :
    ((cmd <<< 24) ||| addr) / 2 ^ 24 = cmd ∧ ((cmd <<< 24) ||| addr) % 2 ^ 24 = addr := by
  rw [← Nat.shiftLeft_add_eq_or_of_lt h, Nat.shiftLeft_eq]
  omega

/-- The address wraps in the page only when the data goes past its end. -/
theorem pageProgram_eq {m : Mem} {addr : ℕ} {data : List UInt8}
    (h : addr % 256 + data.length ≤ 256) : Chip.pageProgram m addr data = Nor.program m addr data := by
  induction data generalizing m addr with
  | nil => rw [Chip.pageProgram, Nor.program_nil]
  | cons b data ih =>
    rw [List.length_cons] at h
    rw [Chip.pageProgram]
    cases data with
    | nil => rw [Chip.pageProgram]
    | cons b' data =>
      rw [List.length_cons] at h ih
      have hnext : addr / 256 * 256 + (addr + 1) % 256 = addr + 1 := by omega
      rw [hnext, ih (by omega), ← Nor.program_cons m addr b (b' :: data)]

section Operation

variable {flashCfg : SpiFlashCfgType} (h : flashCfg.Fits) {c : Chip} (hidle : c.busy = 0)
  (hsize : c.size ≤ 2 ^ 24)
include h hidle hsize

/-- One erase command. -/
theorem carried_eraseCmd {cmd blk addr : ℕ} (limit : ℕ) (haddr : addr < c.size)
    (hcmd : cmd = 0x20 ∧ blk = 4096 ∨ cmd = 0x52 ∧ blk = 32768 ∨ cmd = 0xD8 ∧ blk = 65536) :
    Carried c (Nor.erase c.mem (addr / blk * blk) (addr / blk * blk + blk)) limit
      (sflashEraseCmd flashCfg cmd addr limit c) := by
  obtain ⟨hop, ha⟩ := word_fields cmd (Nat.lt_of_lt_of_le haddr hsize)
  have hstart : Chip.command { c with wel := true } ((cmd <<< 24) ||| addr) [] =
      c.start (Nor.erase c.mem (addr / blk * blk) (addr / blk * blk + blk)) := by
    simp only [Chip.command, hidle, hop, ha, Nat.mod_eq_of_lt haddr]
    rcases hcmd with ⟨rfl, rfl⟩ | ⟨rfl, rfl⟩ | ⟨rfl, rfl⟩ <;> rfl
  rw [sflashEraseCmd, sflashWriteEnable_idle h hidle]
  simp only [hstart]
  exact carried_waitBusy h c _ limit

omit h in
/-- A page on its way. -/
theorem command_program {cmd addr : ℕ} {data : List UInt8} (haddr : addr < c.size)
    (hcmd : cmd = 0x02 ∨ cmd = 0x32) (hpage : addr % 256 + data.length ≤ 256) :
    Chip.command { c with wel := true } ((cmd <<< 24) ||| addr) data =
      c.start (Nor.program c.mem addr data) := by
  obtain ⟨hop, ha⟩ := word_fields cmd (Nat.lt_of_lt_of_le haddr hsize)
  simp only [Chip.command, hidle, hop, ha, Nat.mod_eq_of_lt haddr]
  rw [← pageProgram_eq hpage]
  rcases hcmd with rfl | rfl <;> rfl

/-- One page. -/
theorem carried_page {cmd addr : ℕ} {data : List UInt8} (haddr : addr < c.size)
    (hcmd : cmd = 0x02 ∨ cmd = 0x32) (hpage : addr % 256 + data.length ≤ 256) :
    Carried c (Nor.program c.mem addr data) (flashCfg.timePagePgm * 20)
      (waitBusy flashCfg (flashCfg.timePagePgm * 20 + 1)
        (Chip.command { c with wel := true } ((cmd <<< 24) ||| addr) data)) := by
  rw [command_program hidle hsize haddr hcmd hpage]
  exact carried_waitBusy h c _ _

end Operation

/-! ## The loops -/

/-- What a loop makes of an idle chip: it ends, and either all of it has been carried out, or it
has given up with the array that some number of steps leave. -/
structure Ended (c : Chip) (limit : ℕ) (all : Mem) (cut : ℕ → Mem) (r : Chip × BLErr) : Prop where
  size : r.1.size = c.size
  delays : ∀ δ ∈ r.1.delays, δ ∈ c.delays
  outcome : r.2 = .success ∧ r.1.busy = 0 ∧ r.1.mem = all ∨ r.2 = .error ∧ ∃ n, r.1.mem = cut n
  inTime : (∀ δ ∈ c.delays, δ ≤ limit) → r.2 = .success

theorem headD_le {ds : List ℕ} {limit : ℕ} (h : ∀ δ ∈ ds, δ ≤ limit) : ds.headD 0 ≤ limit := by
  cases ds with
  | nil => exact Nat.zero_le _
  | cons d ds => exact h d List.mem_cons_self

/-- A step that fails ends the loop. -/
theorem Carried.failed {c : Chip} {mem all : Mem} {cut : ℕ → Mem} {limit : ℕ} {r : Chip × BLErr}
    (h : Carried c mem limit r) (hr : r.2 = .error) {n : ℕ} (hcut : mem = cut n) :
    Ended c limit all cut r where
  size := h.size
  delays := fun δ hδ => by
    rw [h.delays] at hδ
    exact List.mem_of_mem_tail hδ
  outcome := .inr ⟨hr, n, h.mem.trans hcut⟩
  inTime := fun hle => h.inTime (headD_le hle)

/-- After a step that succeeds comes the rest of the loop. -/
theorem Carried.then {c : Chip} {mem all : Mem} {cut cut' : ℕ → Mem} {limit : ℕ}
    {r r' : Chip × BLErr} (h : Carried c mem limit r) (hrest : Ended r.1 limit all cut' r')
    (hcut : ∀ n, ∃ n', cut' n = cut n') : Ended c limit all cut r' where
  size := hrest.size.trans h.size
  delays := fun δ hδ => by
    have hmem := hrest.delays δ hδ
    rw [h.delays] at hmem
    exact List.mem_of_mem_tail hmem
  outcome := by
    rcases hrest.outcome with hok | ⟨herr, n, hn⟩
    · exact .inl hok
    · obtain ⟨n', hn'⟩ := hcut n
      exact .inr ⟨herr, n', hn.trans hn'⟩
  inTime := fun hle => hrest.inTime fun δ hδ => hle δ (by
    rw [h.delays] at hδ
    exact List.mem_of_mem_tail hδ)

theorem and_sector_mask {x : ℕ} (hx : x < 2 ^ 32) :
    x &&& (2 ^ 32 - 1 - (4 * 1024 - 1)) = sectorStart x := by
  have hmask : 2 ^ 32 - 1 - (4 * 1024 - 1) = 2 ^ 12 * (2 ^ 20 - 1) := by decide
  have hstart : sectorStart x = 2 ^ 12 * (x / 2 ^ 12) := Nat.mul_comm _ _
  rw [hmask, hstart]
  apply Nat.eq_of_testBit_eq
  intro i
  rw [Nat.testBit_and, Nat.testBit_two_pow_mul, Nat.testBit_two_pow_mul,
    Nat.testBit_two_pow_sub_one, Nat.testBit_div_two_pow]
  by_cases hi : 12 ≤ i
  · have hsum : i - 12 + 12 = i := by omega
    rw [hsum]
    by_cases hhigh : i < 32
    · simp [hi, show i - 12 < 20 by omega]
    · have hbit : x.testBit i = false :=
        Nat.testBit_lt_two_pow
          (Nat.lt_of_lt_of_le hx (Nat.pow_le_pow_right (by omega) (by omega)))
      simp [hbit]
  · simp [hi]

section Loop

variable {flashCfg : SpiFlashCfgType} (h : flashCfg.Fits)
include h

/-- One pass of the erase loop erases the block of the device's pass. -/
theorem sflashErasePass_spec {c : Chip} (hidle : c.busy = 0) (hsize : c.size ≤ 2 ^ 24)
    {startaddr endaddr : ℕ} (hle : startaddr ≤ endaddr) (hend : endaddr < c.size) :
    ∃ blk, eraseBlock flashCfg.device startaddr endaddr = blk ∧
      (sflashErasePass flashCfg startaddr endaddr c).2 = u32 (blk.1 + blk.2) ∧
      Carried c (Nor.erase c.mem blk.1 (blk.1 + blk.2)) flashCfg.patience
        (sflashErasePass flashCfg startaddr endaddr c).1 := by
  have h64 : startaddr &&& (bflbSpiflashBlk64kSize - 1) = startaddr % 65536 :=
    Nat.and_two_pow_sub_one_eq_mod startaddr 16
  have h32 : startaddr &&& (bflbSpiflashBlk32kSize - 1) = startaddr % 32768 :=
    Nat.and_two_pow_sub_one_eq_mod startaddr 15
  have hword : startaddr < 2 ^ 32 := by omega
  have hmask := and_sector_mask hword
  have hlt : startaddr < c.size := by omega
  have hpatience : flashCfg.patience ≤ flashCfg.timeEsector * 3 ∧
      flashCfg.patience ≤ flashCfg.timeE32k * 3 ∧ flashCfg.patience ≤ flashCfg.timeE64k * 3 := by
    unfold SpiFlashCfgType.patience
    omega
  have hsize64 : bflbSpiflashBlk64kSize = 65536 := by decide
  have hsize32 : bflbSpiflashBlk32kSize = 32768 := by decide
  have hsector4 : 4 * 1024 = sectorSize := by decide
  unfold eraseBlock sflashErasePass
  simp only [h64, h32, h.sectorSize, hmask, SpiFlashCfgType.device, decide_eq_true_eq]
  simp only [hsize64, hsize32, hsector4]
  by_cases hb : flashCfg.blk64EraseCmd ≠ bflbSpiflashCmdInvalid ∧ startaddr % 65536 = 0 ∧
      endaddr - startaddr + 1 > 65536 - sectorSize
  · -- a block of 64 KiB
    simp only [if_pos hb]
    have haddr : u32 (bflbSpiflashBlk64kSize * (startaddr / bflbSpiflashBlk64kSize)) = startaddr := by
      rw [hsize64, Nat.mul_div_cancel' (Nat.dvd_of_mod_eq_zero hb.2.1), u32_of_lt hword]
    have hcmd := h.blk64Erase.resolve_right hb.1
    have hstart : startaddr / 65536 * 65536 = startaddr :=
      Nat.div_mul_cancel (Nat.dvd_of_mod_eq_zero hb.2.1)
    have hblk : Carried c (Nor.erase c.mem (startaddr / 65536 * 65536)
        (startaddr / 65536 * 65536 + 65536)) (flashCfg.timeE64k * 3)
        (sflashEraseCmd flashCfg 0xD8 startaddr (flashCfg.timeE64k * 3) c) :=
      carried_eraseCmd h hidle hsize _ hlt (.inr (.inr ⟨rfl, rfl⟩))
    rw [hstart] at hblk
    refine ⟨(startaddr, 65536), rfl, by dsimp only, ?_⟩
    rw [sflashBlk64Erase, ← hsize64, haddr, hcmd]
    exact hblk.mono hpatience.2.2
  simp only [if_neg hb]
  clear hb
  by_cases hb : flashCfg.blk32EraseCmd ≠ bflbSpiflashCmdInvalid ∧ startaddr % 32768 = 0 ∧
      endaddr - startaddr + 1 > 32768 - sectorSize
  · -- a block of 32 KiB
    simp only [if_pos hb]
    have haddr : u32 (bflbSpiflashBlk32kSize * (startaddr / bflbSpiflashBlk32kSize)) = startaddr := by
      rw [hsize32, Nat.mul_div_cancel' (Nat.dvd_of_mod_eq_zero hb.2.1), u32_of_lt hword]
    have hcmd := h.blk32Erase.resolve_right hb.1
    have hstart : startaddr / 32768 * 32768 = startaddr :=
      Nat.div_mul_cancel (Nat.dvd_of_mod_eq_zero hb.2.1)
    have hblk : Carried c (Nor.erase c.mem (startaddr / 32768 * 32768)
        (startaddr / 32768 * 32768 + 32768)) (flashCfg.timeE32k * 3)
        (sflashEraseCmd flashCfg 0x52 startaddr (flashCfg.timeE32k * 3) c) :=
      carried_eraseCmd h hidle hsize _ hlt (.inr (.inl ⟨rfl, rfl⟩))
    rw [hstart] at hblk
    refine ⟨(startaddr, 32768), rfl, by dsimp only, ?_⟩
    rw [sflashBlk32Erase, ← hsize32, haddr, hcmd]
    exact hblk.mono hpatience.2.1
  · -- a sector
    simp only [if_neg hb]
    have hstart := sectorStart_le startaddr
    have hsector : sectorStart startaddr / 4096 * 4096 = sectorStart startaddr :=
      Nat.div_mul_cancel (Nat.dvd_mul_left 4096 _)
    have haddr : u32 (4 * 1024 * (sectorStart startaddr / 4 / 1024)) = sectorStart startaddr := by
      rw [Nat.div_div_eq_div_mul, Nat.mul_comm (4 * 1024), hsector,
        u32_of_lt (Nat.lt_of_le_of_lt hstart hword)]
    have hblk : Carried c (Nor.erase c.mem (sectorStart startaddr / 4096 * 4096)
        (sectorStart startaddr / 4096 * 4096 + 4096)) (flashCfg.timeEsector * 3)
        (sflashEraseCmd flashCfg 0x20 (sectorStart startaddr) (flashCfg.timeEsector * 3) c) :=
      carried_eraseCmd h hidle hsize _ (Nat.lt_of_le_of_lt hstart hlt) (.inl ⟨rfl, rfl⟩)
    rw [hsector] at hblk
    refine ⟨(sectorStart startaddr, sectorSize), rfl, by dsimp only, ?_⟩
    rw [sflashSectorErase, h.sectorSize, haddr, h.sectorErase]
    exact hblk.mono hpatience.1

/-- **The erase loop** ends as that of the device does, in full or cut after some passes. -/
theorem sflashErase_ended {fuel : ℕ} {c : Chip} (hidle : c.busy = 0) (hsize : c.size ≤ 2 ^ 24)
    {startaddr endaddr : ℕ} (hend : endaddr < c.size)
    (hfuel : (Flash.sflashErase flashCfg.device fuel c.mem startaddr endaddr).2 = true) :
    ∃ r, sflashErase flashCfg (fuel + 1) c startaddr endaddr = some r ∧
      Ended c flashCfg.patience
        (Flash.sflashErase flashCfg.device fuel c.mem startaddr endaddr).1
        (fun n => (Flash.sflashErase flashCfg.device n c.mem startaddr endaddr).1) r := by
  induction fuel generalizing c startaddr with
  | zero =>
    rw [Flash.sflashErase] at hfuel
    have hlt : ¬ startaddr ≤ endaddr := Nat.not_le.2 (of_decide_eq_true hfuel)
    rw [sflashErase, if_neg hlt, Flash.sflashErase]
    exact ⟨_, rfl, rfl, fun δ hδ => hδ, .inl ⟨rfl, hidle, rfl⟩, fun _ => rfl⟩
  | succ fuel ih =>
    rw [Flash.sflashErase] at hfuel ⊢
    by_cases hle : startaddr ≤ endaddr
    · rw [if_pos hle] at hfuel ⊢
      obtain ⟨blk, hblk, hnext, hpass⟩ := sflashErasePass_spec h hidle hsize hle hend
      simp only [hblk] at hfuel ⊢
      rw [sflashErase, if_pos hle]
      generalize hrun : sflashErasePass flashCfg startaddr endaddr c = run at hnext hpass
      obtain ⟨⟨c', ret⟩, next⟩ := run
      obtain rfl : next = u32 (blk.1 + blk.2) := hnext
      -- one pass more than the rest has made
      have hcut : ∀ n, (Flash.sflashErase flashCfg.device n
            (Nor.erase c.mem blk.1 (blk.1 + blk.2)) (u32 (blk.1 + blk.2)) endaddr).1 =
          (Flash.sflashErase flashCfg.device (n + 1) c.mem startaddr endaddr).1 := by
        intro n
        rw [Flash.sflashErase, if_pos hle, hblk]
      cases ret with
      | error =>
        refine ⟨_, rfl, hpass.failed rfl (n := 1) ?_⟩
        rw [← hcut 0, Flash.sflashErase]
      | success =>
        have hmem : c'.mem = Nor.erase c.mem blk.1 (blk.1 + blk.2) := hpass.mem
        rw [← hmem] at hfuel
        obtain ⟨r, hr, hended⟩ := ih (hpass.idle rfl) (hpass.size.le.trans hsize)
          (hend.trans_eq hpass.size.symm) hfuel
        rw [hmem] at hended
        exact ⟨r, hr, hpass.then hended fun n => ⟨n + 1, hcut n⟩⟩
    · rw [if_neg hle, sflashErase, if_neg hle]
      exact ⟨_, rfl, rfl, fun δ hδ => hδ, .inl ⟨rfl, hidle, rfl⟩, fun _ => rfl⟩

/-- **The program loop** ends with the data in the array, or with a prefix of it. -/
theorem sflashProgramLoop_ended {cmd fuel : ℕ} (hcmd : cmd = 0x02 ∨ cmd = 0x32) {c : Chip}
    (hidle : c.busy = 0) (hsize : c.size ≤ 2 ^ 24) {addr : ℕ} {data : List UInt8}
    (haddr : addr + data.length ≤ c.size) (hfuel : data.length < fuel) :
    ∃ r, sflashProgramLoop flashCfg cmd fuel c addr data = some r ∧
      Ended c flashCfg.patience (Nor.program c.mem addr data)
        (fun n => Nor.program c.mem addr (data.take n)) r := by
  induction fuel generalizing c addr data with
  | zero => exact absurd hfuel (Nat.not_lt_zero _)
  | succ fuel ih =>
    rw [sflashProgramLoop]
    by_cases hnil : data = []
    · rw [if_pos hnil, hnil, Nor.program_nil]
      exact ⟨_, rfl, rfl, fun δ hδ => hδ, .inl ⟨rfl, hidle, rfl⟩, fun _ => rfl⟩
    rw [if_neg hnil, sflashWriteEnable_idle h hidle]
    have hpos := List.length_pos_iff.2 hnil
    obtain ⟨curLen, hcur⟩ : ∃ curLen,
        curLen = min (flashCfg.pageSize - addr % flashCfg.pageSize) data.length := ⟨_, rfl⟩
    simp only [← hcur]
    rw [h.pageSize] at hcur
    have hmod : addr % 256 < 256 := Nat.mod_lt _ (by decide)
    have htake : (data.take curLen).length = curLen := List.length_take_of_le (by omega)
    have hpatience : flashCfg.patience ≤ flashCfg.timePagePgm * 20 := by
      unfold SpiFlashCfgType.patience
      omega
    have hpage : Carried c (Nor.program c.mem addr (data.take curLen)) flashCfg.patience
        (waitBusy flashCfg (flashCfg.timePagePgm * 20 + 1)
          (Chip.command { c with wel := true } ((cmd <<< 24) ||| addr) (data.take curLen))) :=
      (carried_page h hidle hsize (by omega) hcmd (by omega)).mono hpatience
    -- the page, and what comes after it
    have hcut : ∀ n, Nor.program (Nor.program c.mem addr (data.take curLen)) (addr + curLen)
        ((data.drop curLen).take n) = Nor.program c.mem addr (data.take (curLen + n)) := by
      intro n
      rw [List.take_add, Nor.program_append, htake]
    generalize waitBusy flashCfg (flashCfg.timePagePgm * 20 + 1) (Chip.command { c with wel := true }
      ((cmd <<< 24) ||| addr) (data.take curLen)) = run at hpage
    obtain ⟨c', ret⟩ := run
    cases ret with
    | error => exact ⟨_, rfl, hpage.failed rfl (n := curLen) rfl⟩
    | success =>
      have hmem : c'.mem = Nor.program c.mem addr (data.take curLen) := hpage.mem
      have hcsize : c'.size = c.size := hpage.size
      have hnext : u32 (addr + curLen) = addr + curLen := u32_of_lt (by omega)
      have hdrop : (data.drop curLen).length = data.length - curLen := List.length_drop
      have hbound : addr + curLen + (data.drop curLen).length ≤ c'.size := by omega
      obtain ⟨r, hr, hended⟩ := ih (hpage.idle rfl) (hcsize.le.trans hsize) hbound (by omega)
      simp only [hmem, hcut] at hended
      have hall : Nor.program (Nor.program c.mem addr (data.take curLen)) (addr + curLen)
          (data.drop curLen) = Nor.program c.mem addr data := by
        have happ := Nor.program_append c.mem addr (data.take curLen) (data.drop curLen)
        rw [List.take_append_drop, htake] at happ
        exact happ.symm
      rw [hall] at hended
      refine ⟨r, ?_, hpage.then hended fun n => ⟨curLen + n, rfl⟩⟩
      rw [← hr]
      simp only [hnext]

end Loop

/-! ## Runs -/

/-- A call of the flash layer. -/
inductive FlashOp
  | erase (startaddr len : ℕ)
  | write (addr : ℕ) (data : List UInt8)
  deriving Repr

/-- The call stays within the array. -/
def FlashOp.Inside (size : ℕ) : FlashOp → Prop
  | .erase startaddr len => 0 < len ∧ startaddr + len ≤ size
  | .write addr data => addr + data.length ≤ size

/-- `flash_erase` and `flash_write` over the chip. -/
def FlashOp.drive (flashCfg : SpiFlashCfgType) (ioMode : SfCtrlIoType) (c : Chip) :
    FlashOp → Option (Chip × BLErr)
  | .erase startaddr len =>
    sflashErase flashCfg (erasePasses (eraseEndaddr startaddr len) + 1) c startaddr
      (eraseEndaddr startaddr len)
  | .write addr data => sflashProgram flashCfg ioMode c addr data

/-- `flash_erase` and `flash_write` of the device. -/
def FlashOp.perform (d : Device) : FlashOp → Device × BLErr
  | .erase startaddr len => flashErase d startaddr len
  | .write addr data => flashWrite d addr data

/-- The calls one after the other, up to the first that fails; with what each of them returned. -/
def driveAll (flashCfg : SpiFlashCfgType) (ioMode : SfCtrlIoType) :
    Chip → List FlashOp → Option (Chip × List BLErr)
  | c, [] => some (c, [])
  | c, op :: ops =>
    match op.drive flashCfg ioMode c with
    | none => none
    | some (c, .error) => some (c, [.error])
    | some (c, .success) =>
      (driveAll flashCfg ioMode c ops).map fun r => (r.1, .success :: r.2)

/-- The same calls of the device. -/
def performAll : Device → List FlashOp → Device × List BLErr
  | d, [] => (d, [])
  | d, op :: ops =>
    match op.perform d with
    | (d, .error) => (d, [.error])
    | (d, .success) => ((performAll d ops).1, .success :: (performAll d ops).2)

/-- A device that shows the array of the chip, and what will happen to its calls. -/
def deviceOf (flashCfg : SpiFlashCfgType) (c : Chip) (faults : List Fault) : Device :=
  ⟨flashCfg.device, c.mem, true, faults⟩

theorem programCmd_isSome {flashCfg : SpiFlashCfgType} (h : flashCfg.Fits) {ioMode : SfCtrlIoType}
    (hmode : ioMode ≠ .other) : ∃ cmd,
    programCmd flashCfg ioMode = some cmd ∧ (cmd = 0x02 ∨ cmd = 0x32) := by
  cases ioMode with
  | other => exact absurd rfl hmode
  | nioMode => exact ⟨_, rfl, .inl h.pageProgram⟩
  | doMode => exact ⟨_, rfl, .inl h.pageProgram⟩
  | dioMode => exact ⟨_, rfl, .inl h.pageProgram⟩
  | qioMode => exact ⟨_, rfl, .inr h.qpageProgram⟩
  | qoMode => exact ⟨_, rfl, .inr h.qpageProgram⟩

section Runs

variable {flashCfg : SpiFlashCfgType} {ioMode : SfCtrlIoType} {c : Chip} {op : FlashOp}
  {ops : List FlashOp}

/-- What a call of the device returns, in terms of the loops. -/
theorem perform_ended {all : Mem} {cut : ℕ → Mem} {r : Chip × BLErr}
    (hended : Ended c flashCfg.patience all cut r)
    (hnone : ∀ faults, op.perform (deviceOf flashCfg c (.none :: faults)) =
      (⟨flashCfg.device, all, true, faults⟩, .success))
    (herror : ∀ n faults, op.perform (deviceOf flashCfg c (.error n :: faults)) =
      (⟨flashCfg.device, cut n, true, faults⟩, .error)) :
    ∃ fault, ∀ faults, op.perform (deviceOf flashCfg c (fault :: faults)) =
      (deviceOf flashCfg r.1 faults, r.2) := by
  rcases hended.outcome with ⟨hr, -, hmem⟩ | ⟨hr, n, hmem⟩
  · exact ⟨.none, fun faults => by rw [hnone, deviceOf, hmem, hr]⟩
  · exact ⟨.error n, fun faults => by rw [herror, deviceOf, hmem, hr]⟩

/-- One call: what the driver makes of an idle chip, the device makes with some fault. -/
theorem drive_ended (h : flashCfg.Fits) (hmode : ioMode ≠ .other) (hidle : c.busy = 0)
    (hsize : c.size ≤ 2 ^ 24) (hin : op.Inside c.size) :
    ∃ r, op.drive flashCfg ioMode c = some r ∧ r.1.size = c.size ∧
      (r.2 = .success → r.1.busy = 0) ∧ (∀ δ ∈ r.1.delays, δ ∈ c.delays) ∧
      ((∀ δ ∈ c.delays, δ ≤ flashCfg.patience) → r.2 = .success) ∧
      ∃ fault, ∀ faults, op.perform (deviceOf flashCfg c (fault :: faults)) =
        (deviceOf flashCfg r.1 faults, r.2) := by
  have hidle' : ∀ {all : Mem} {cut : ℕ → Mem} {r : Chip × BLErr},
      Ended c flashCfg.patience all cut r → r.2 = .success → r.1.busy = 0 := by
    intro all cut r hended hr
    rcases hended.outcome with ⟨-, hbusy, -⟩ | ⟨herr, -⟩
    · exact hbusy
    · rw [hr] at herr
      cases herr
  cases op with
  | erase startaddr len =>
    obtain ⟨hlen, hle⟩ := hin
    have hend : eraseEndaddr startaddr len = startaddr + len - 1 :=
      eraseEndaddr_eq hlen (by omega)
    have hlast : sectorEnd (startaddr + len - 1) < 2 ^ 32 := by
      have hsec := sectorStart_le (startaddr + len - 1)
      unfold sectorStart sectorSize at hsec
      unfold sectorEnd sectorSize
      omega
    have hfuel : sectorEnd (startaddr + len - 1)
        ≤ sectorStart startaddr + erasePasses (startaddr + len - 1) * sectorSize :=
      Nat.le_add_left _ _
    have hloop := sflashErase_eq flashCfg.device (erasePasses (startaddr + len - 1)) (m := c.mem)
      (show startaddr ≤ startaddr + len - 1 by omega) hlast hfuel
    obtain ⟨r, hr, hended⟩ := sflashErase_ended h hidle hsize
      (show startaddr + len - 1 < c.size by omega) (by rw [hloop])
    refine ⟨r, ?_, hended.size, hidle' hended, hended.delays, hended.inTime, ?_⟩
    · rw [FlashOp.drive, hend, hr]
    · refine perform_ended hended (fun faults => ?_) fun n faults => ?_
      · rw [FlashOp.perform, flashErase_ok rfl rfl hlen hlast, hloop]
        rfl
      · simp only [FlashOp.perform, flashErase, deviceOf, Device.fault, List.headD_cons,
          List.tail_cons, hend, ↓reduceIte]
  | write addr data =>
    have hle : addr + data.length ≤ c.size := hin
    obtain ⟨cmd, hcmd, hop⟩ := programCmd_isSome h hmode
    obtain ⟨r, hr, hended⟩ := sflashProgramLoop_ended h hop hidle hsize hle (Nat.lt_succ_self _)
    refine ⟨r, ?_, hended.size, hidle' hended, hended.delays, hended.inTime, ?_⟩
    · rw [FlashOp.drive, sflashProgram, hcmd]
      exact hr
    · refine perform_ended hended (fun faults => ?_) fun n faults => ?_
      · rw [FlashOp.perform, flashWrite_ok rfl rfl (by omega)]
        rfl
      · have htake : (data.take n).length ≤ data.length := List.length_take_le' n data
        have hprogram : Flash.sflashProgram c.mem addr (data.take n) =
            Nor.program c.mem addr (data.take n) := sflashProgram_eq (by omega)
        simp only [FlashOp.perform, flashWrite, deviceOf, Device.fault, List.headD_cons,
          List.tail_cons, hprogram, ↓reduceIte]

/-- **The driver refines the device.**  From an idle chip, whatever time its operations take,
the calls up to the first that fails return what those of the device return with some list of
faults, and leave the same array; and they all succeed when the chip keeps its times. -/
theorem driver_refines (h : flashCfg.Fits) (hmode : ioMode ≠ .other) (hidle : c.busy = 0)
    (hsize : c.size ≤ 2 ^ 24) (hin : ∀ op ∈ ops, op.Inside c.size) :
    ∃ r faults, driveAll flashCfg ioMode c ops = some r ∧
      performAll (deviceOf flashCfg c faults) ops = (deviceOf flashCfg r.1 [], r.2) ∧
      ((∀ δ ∈ c.delays, δ ≤ flashCfg.patience) → r.2 = List.replicate ops.length .success) := by
  induction ops generalizing c with
  | nil => exact ⟨(c, []), [], rfl, rfl, fun _ => rfl⟩
  | cons op ops ih =>
    obtain ⟨⟨c', ret⟩, hdrive, hsize', hidle', hdelays, htime, fault, hfault⟩ :=
      drive_ended h hmode hidle hsize (hin op List.mem_cons_self)
    rw [driveAll, hdrive]
    cases ret with
    | error =>
      refine ⟨_, [fault], rfl, ?_, fun hle => nomatch htime hle⟩
      rw [performAll, hfault]
    | success =>
      have hrest : ∀ op ∈ ops, op.Inside c'.size := by
        intro op hop
        rw [show c'.size = c.size from hsize']
        exact hin op (List.mem_cons_of_mem _ hop)
      obtain ⟨r, faults, hrun, hperform, htimes⟩ :=
        ih (hidle' rfl) ((show c'.size = c.size from hsize').le.trans hsize) hrest
      refine ⟨(r.1, .success :: r.2), fault :: faults, ?_, ?_, fun hle => ?_⟩
      · simp only [hrun, Option.map_some]
      · rw [performAll, hfault]
        simp only [hperform]
      · simp only [List.length_cons, List.replicate_succ]
        rw [htimes fun δ hδ => hle δ (hdelays δ hδ)]

end Runs

/-- The configuration of the common chips. -/
def commonCfg : SpiFlashCfgType where
  sectorSize := 4
  pageSize := 256
  sectorEraseCmd := 0x20
  blk32EraseCmd := 0x52
  blk64EraseCmd := 0xD8
  writeEnableCmd := 0x06
  pageProgramCmd := 0x02
  qpageProgramCmd := 0x32
  wrEnableIndex := 0
  busyIndex := 0
  wrEnableBit := 1
  busyBit := 0
  timeEsector := 300
  timeE32k := 1200
  timeE64k := 1200
  timePagePgm := 5

theorem fits_commonCfg : commonCfg.Fits :=
  ⟨rfl, rfl, rfl, .inl rfl, .inl rfl, rfl, rfl, rfl, rfl, rfl, rfl, rfl⟩

/-- The theorem for an erase and a write in an erased chip of 1 MiB. -/
theorem driver_refines_common : ∃ r,
    driveAll commonCfg .nioMode ⟨2 ^ 20, fun _ => 0xFF, false, 0, [60, 2]⟩
      [.erase 0x2F000 4096, .write 0x2F0F0 (List.replicate 32 0)] = some r ∧
      r.2 = [.success, .success] := by
  have hin : ∀ op ∈ [FlashOp.erase 0x2F000 4096, .write 0x2F0F0 (List.replicate 32 0)],
      op.Inside (2 ^ 20) := by
    simp [FlashOp.Inside]
  have hmode : SfCtrlIoType.nioMode ≠ .other := by decide
  obtain ⟨r, -, hrun, -, htimes⟩ := driver_refines (c := ⟨2 ^ 20, fun _ => 0xFF, false, 0, [60, 2]⟩)
    fits_commonCfg hmode rfl (by decide) hin
  exact ⟨r, hrun, htimes (by decide)⟩

/-! ## A late chip -/

section Late

variable {flashCfg : SpiFlashCfgType} (h : flashCfg.Fits) {ioMode : SfCtrlIoType}
include h

/-- The wait gives up on a chip that is busy for longer. -/
theorem waitBusy_late {n : ℕ} {c : Chip} (hlate : n < c.busy) :
    waitBusy flashCfg n c = ({ c with busy := c.busy - n }, .error) := by
  induction n generalizing c with
  | zero => rfl
  | succ n ih =>
    have htick : c.tick = { c with busy := c.busy - 1 } := by
      rw [Chip.tick, if_neg (by omega)]
    have hbusy : c.busy ≠ 0 := by omega
    have hleft : c.busy - 1 - n = c.busy - (n + 1) := by omega
    have hrest := ih (show n < c.tick.busy by rw [htick]; show n < c.busy - 1; omega)
    rw [waitBusy, sflashBusy_eq h, if_pos (decide_eq_true hbusy), hrest, htick]
    simp only [hleft]

/-- A busy chip still shows its latch. -/
theorem sflashWriteEnable_busy {c : Chip} (hbusy : 1 < c.busy) (hwel : c.wel = true) :
    sflashWriteEnable flashCfg c = ({ c with busy := c.busy - 1 }, .success) := by
  have hcmd : c.command (flashCfg.writeEnableCmd <<< 24) [] = c := by
    rw [Chip.command, if_pos (by omega)]
  have htick : c.tick = { c with busy := c.busy - 1 } := by
    rw [Chip.tick, if_neg (by omega)]
  have hne : c.busy ≠ 0 := by omega
  rw [sflashWriteEnable, hcmd, h.wrEnableIndex, h.wrEnableBit]
  simp [Chip.readReg, htick, hne, hwel]

/-- One page takes one pass of the loop. -/
theorem sflashProgram_page {cmd addr : ℕ} {data : List UInt8} {c c' : Chip}
    (hcmd : programCmd flashCfg ioMode = some cmd) (hne : data ≠ [])
    (hpage : addr % 256 + data.length ≤ 256)
    (hen : sflashWriteEnable flashCfg c = (c', .success)) :
    sflashProgram flashCfg ioMode c addr data =
      some (waitBusy flashCfg (flashCfg.timePagePgm * 20 + 1)
        (c'.command ((cmd <<< 24) ||| addr) data)) := by
  have hpos := List.length_pos_iff.2 hne
  obtain ⟨k, hk⟩ : ∃ k, data.length + 1 = k + 2 := ⟨data.length - 1, by omega⟩
  have hcur : min (flashCfg.pageSize - addr % flashCfg.pageSize) data.length = data.length := by
    rw [h.pageSize]
    omega
  rw [sflashProgram, hcmd]
  simp only [hk]
  rw [sflashProgramLoop, if_neg hne, hen]
  simp only [hcur, List.take_length, List.drop_length]
  generalize waitBusy flashCfg (flashCfg.timePagePgm * 20 + 1)
    (c'.command ((cmd <<< 24) ||| addr) data) = r
  obtain ⟨c'', ret⟩ := r
  cases ret with
  | error => rfl
  | success => simp only [sflashProgramLoop, if_true]

/-- **After a page that took too long, a write can be lost without an error**: the driver gives
up on the first page although the chip goes on with it; while it does, the chip takes no notice
of the second page, and the driver finds it ready in the end. -/
theorem write_ignored {c : Chip} (hmode : ioMode ≠ .other) (hidle : c.busy = 0)
    (hsize : c.size ≤ 2 ^ 24) {addr addr' : ℕ} {data data' : List UInt8}
    (hne : data ≠ []) (hne' : data' ≠ []) (haddr : addr < c.size)
    (hpage : addr % 256 + data.length ≤ 256) (hpage' : addr' % 256 + data'.length ≤ 256)
    (hlate : flashCfg.timePagePgm * 20 + 2 < c.delays.headD 0)
    (hready : c.delays.headD 0 ≤ 2 * (flashCfg.timePagePgm * 20 + 1)) :
    ∃ c' c'', sflashProgram flashCfg ioMode c addr data = some (c', .error) ∧
      sflashProgram flashCfg ioMode c' addr' data' = some (c'', .success) ∧
      c''.mem = Nor.program c.mem addr data := by
  obtain ⟨cmd, hcmd, hop⟩ := programCmd_isSome h hmode
  have hbusy : flashCfg.timePagePgm * 20 + 1 < (c.start (Nor.program c.mem addr data)).busy := by
    show _ < c.delays.headD 0
    omega
  have hfirst := sflashProgram_page h hcmd hne hpage (sflashWriteEnable_idle h hidle)
  rw [command_program hidle hsize haddr hop hpage, waitBusy_late h hbusy] at hfirst
  -- the chip is still at it, with its latch up
  generalize hc' : ({ c.start (Nor.program c.mem addr data) with
    busy := (c.start (Nor.program c.mem addr data)).busy - (flashCfg.timePagePgm * 20 + 1) } :
      Chip) = c' at hfirst
  have hmem : c'.mem = Nor.program c.mem addr data := by rw [← hc']; rfl
  have hleft : c'.busy = c.delays.headD 0 - (flashCfg.timePagePgm * 20 + 1) := by rw [← hc']; rfl
  have hwel : c'.wel = true := by
    rw [← hc']
    exact decide_eq_true (by omega)
  have hsecond := sflashProgram_page h hcmd hne' hpage'
    (sflashWriteEnable_busy h (c := c') (by omega) hwel)
  have hignored : Chip.command { c' with busy := c'.busy - 1 } ((cmd <<< 24) ||| addr') data' =
      { c' with busy := c'.busy - 1 } := by
    rw [Chip.command, if_pos]
    show c'.busy - 1 ≠ 0
    omega
  rw [hignored] at hsecond
  obtain ⟨hmem', -, -, -, htime⟩ := waitBusy_spec h (flashCfg.timePagePgm * 20 + 1)
    { c' with busy := c'.busy - 1 }
  have hok := htime (by show c'.busy - 1 < _; omega)
  exact ⟨c', _, hfirst, by rw [hsecond, ← hok], hmem'.trans hmem⟩

end Late

/-- The theorem for two bytes of one page. -/
theorem write_ignored_common : ∃ c' c'',
    sflashProgram commonCfg .nioMode ⟨2 ^ 20, fun _ => 0xFF, false, 0, [150]⟩ 0x2F000 [0] =
        some (c', .error) ∧
      sflashProgram commonCfg .nioMode c' 0x2F001 [0] = some (c'', .success) ∧
      c''.mem = Nor.program (fun _ => 0xFF) 0x2F000 [0] :=
  write_ignored fits_commonCfg (by decide) rfl (by decide) (by decide) (by decide) (by decide)
    (by decide) (by decide) (by decide) (by decide)

end Spi
