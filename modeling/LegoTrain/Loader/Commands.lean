import LegoTrain.Partition.Update

/-!
# The commands of the flash loader

`bflb_eflash_loader_cmds.c`, as built for this robot (loading to RAM off, flash commands
on): the acknowledgement, each command, and the dispatch over the command table.

A command sees the receive buffer behind the four header bytes and the length that the
header claims.  `State` holds what the commands read and change: the flash device, the
parameters of the update (`p_iap_param`), the remembered write error, and the responses
sent so far.
-/

namespace Loader

open ByteMem Flash Partition

/-! ## Constants -/

def cmdReset : ℕ := 0x21
def cmdFlashErase : ℕ := 0x30
def cmdFlashWrite : ℕ := 0x31
def cmdFlashRead : ℕ := 0x32
def cmdFlashReadJedecid : ℕ := 0x36
def cmdFlashWriteCheck : ℕ := 0x3A
def cmdFlashSetPara : ℕ := 0x3B
def cmdFlashReadsha : ℕ := 0x3D
def cmdFlashXipReadsha : ℕ := 0x3E
def cmdXipReadStart : ℕ := 0x60
def cmdXipReadFinish : ℕ := 0x61

/-- `BFLB_EFLASH_LOADER_SUCCESS`. -/
def success : ℕ := 0
def flashEraseParaError : ℕ := 0x0002
def flashEraseError : ℕ := 0x0003
def flashWriteParaError : ℕ := 0x0004
def flashWriteAddrError : ℕ := 0x0005
def flashWriteError : ℕ := 0x0006
def cmdCrcError : ℕ := 0x0103

/-- What the loader uses and does not compute itself: the hash engine and the id that the
flash chip reports. -/
structure Env where
  sha256 : List UInt8 → List UInt8
  jedecId : List UInt8

/-- The state of the loader. -/
structure State where
  dev : Device
  /-- `p_iap_param` -/
  iapParam : PtTableIapParam
  /-- `g_eflash_loader_error` -/
  eflashLoaderError : ℕ
  /-- `err_cnt` -/
  errCnt : ℕ
  /-- `to_cnt` -/
  toCnt : ℕ
  /-- the responses sent, oldest first -/
  sent : List (List UInt8)
  /-- the loop has been left, or the chip has been reset -/
  ended : Bool

/-! ## Responses -/

/-- The bytes of a positive acknowledgement. -/
def ackBytes : List UInt8 := [0x4F, 0x4B]

/-- The bytes of a negative acknowledgement with its error code. -/
def nackBytes (result : ℕ) : List UInt8 := [0x46, 0x4C] ++ leBytes 2 result

/-- `bflb_eflash_loader_if_write`: a stopped CPU sends nothing. -/
def ifWrite (s : State) (data : List UInt8) : State :=
  if s.dev.running then { s with sent := s.sent ++ [data] } else s

/-- `bflb_eflash_loader_cmd_ack`. -/
def cmdAck (s : State) (result : ℕ) : State :=
  if result = 0 then ifWrite s ackBytes else ifWrite s (nackBytes result)

/-! ## The commands -/

/-- `bflb_eflash_loader_cmd_read_jedec_id`. -/
def cmdReadJedecIdRun (env : Env) (s : State) : State × ℕ :=
  (ifWrite s (ackBytes ++ [4, 0] ++ env.jedecId.take 3 ++ [0]), success)

/-- `bflb_eflash_loader_cmd_reset`: the parameters are made permanent, and the chip is
reset. -/
def cmdResetRun (s : State) : State × ℕ :=
  let s := { s with dev := (ptTableSetIapPara s.dev s.iapParam).1 }
  ({ cmdAck s success with ended := true }, success)

/-- `endaddr - startaddr + 1`, on `uint32_t`. -/
def hostLen (startaddr endaddr : ℕ) : ℕ := u32 (endaddr + (2 ^ 32 - startaddr) + 1)

/-- The erase of `imgLen` bytes from `iap_start_addr` on, and its acknowledgement. -/
def eraseImg (s : State) (imgLen : ℕ) : State × ℕ :=
  let r := flashErase s.dev s.iapParam.iapStartAddr imgLen
  let ret := if r.2 = .success then success else flashEraseError
  (cmdAck { s with dev := r.1 } ret, ret)

/-- `bflb_eflash_loader_cmd_erase_flash`: the host's addresses give the length only, the
erase starts at `iap_start_addr`. -/
def cmdEraseFlash (s : State) (data : Mem) (len : ℕ) : State × ℕ :=
  if len ≠ 8 then (cmdAck s flashEraseParaError, flashEraseParaError)
  else
    let imgLen := hostLen (le data 0 4) (le data 4 4)
    eraseImg { s with
      eflashLoaderError := success, iapParam := { s.iapParam with iapImgLen := imgLen } } imgLen

/-- The write address that the parameters remember. -/
def setWriteAddr (s : State) (addr : ℕ) : State :=
  { s with iapParam := { s.iapParam with iapWriteAddr := u32 addr } }

/-- The write of `data` to `writeAddr`, and its acknowledgement. -/
def writeImg (s : State) (writeAddr : ℕ) (data : List UInt8) : State × ℕ :=
  if (flashWrite s.dev writeAddr data).2 = .success then
    (setWriteAddr (cmdAck { s with dev := (flashWrite s.dev writeAddr data).1 } success)
      (writeAddr + data.length), success)
  else
    (cmdAck { s with dev := (flashWrite s.dev writeAddr data).1,
                     eflashLoaderError := flashWriteError } flashWriteError, flashWriteError)

/-- `bflb_eflash_loader_cmd_write_flash`: the host's address is used as it is. -/
def cmdWriteFlash (s : State) (data : Mem) (len : ℕ) : State × ℕ :=
  if len ≤ 4 then (cmdAck s flashWriteParaError, flashWriteParaError)
  else if le data 0 4 < 0xffffffff then writeImg s (le data 0 4) (read data 4 (len - 4))
  else (cmdAck s flashWriteAddrError, flashWriteAddrError)

/-- `bflb_eflash_loader_cmd_xip_readSha_flash`.  The hash engine is fed in pieces of
`BFLB_EFLASH_LOADER_READBUF_SIZE`, which it strings together. -/
def cmdXipReadShaFlash (env : Env) (s : State) (len : ℕ) : State × ℕ :=
  if len ≠ 8 then (cmdAck s flashWriteParaError, flashWriteParaError)
  else
    let digest := env.sha256 (flashRead s.dev.mem s.iapParam.iapStartAddr s.iapParam.iapImgLen)
    (ifWrite s (ackBytes ++ leBytes 2 32 ++ digest.take 32), success)

/-- `bflb_eflash_loader_cmd_process`: the command table.  An id that is not in the table
is no error and gets no response. -/
def cmdProcess (env : Env) (s : State) (cmdid : ℕ) (data : Mem) (len : ℕ) : State × ℕ :=
  if cmdid = cmdReset then cmdResetRun s
  else if cmdid = cmdFlashErase then cmdEraseFlash s data len
  else if cmdid = cmdFlashWrite then cmdWriteFlash s data len
  else if cmdid = cmdFlashRead then (s, success)
  else if cmdid = cmdFlashWriteCheck then (cmdAck s s.eflashLoaderError, success)
  else if cmdid = cmdFlashSetPara then (cmdAck s success, success)
  else if cmdid = cmdFlashReadsha then (s, success)
  else if cmdid = cmdFlashXipReadsha then cmdXipReadShaFlash env s len
  else if cmdid = cmdXipReadStart then (cmdAck s success, success)
  else if cmdid = cmdXipReadFinish then (cmdAck s success, success)
  else if cmdid = cmdFlashReadJedecid then cmdReadJedecIdRun env s
  else (s, success)

/-! ## What the commands leave alone -/

@[simp] theorem ifWrite_dev (s : State) (data : List UInt8) : (ifWrite s data).dev = s.dev := by
  unfold ifWrite
  split <;> rfl

@[simp] theorem ifWrite_iapParam (s : State) (data : List UInt8) :
    (ifWrite s data).iapParam = s.iapParam := by
  unfold ifWrite
  split <;> rfl

@[simp] theorem ifWrite_errCnt (s : State) (data : List UInt8) :
    (ifWrite s data).errCnt = s.errCnt := by
  unfold ifWrite
  split <;> rfl

@[simp] theorem ifWrite_ended (s : State) (data : List UInt8) :
    (ifWrite s data).ended = s.ended := by
  unfold ifWrite
  split <;> rfl

theorem ifWrite_sent {s : State} (data : List UInt8) (h : s.dev.running = true) :
    (ifWrite s data).sent = s.sent ++ [data] := by
  rw [ifWrite, if_pos h]

@[simp] theorem cmdAck_dev (s : State) (result : ℕ) : (cmdAck s result).dev = s.dev := by
  unfold cmdAck
  split <;> simp

@[simp] theorem cmdAck_iapParam (s : State) (result : ℕ) :
    (cmdAck s result).iapParam = s.iapParam := by
  unfold cmdAck
  split <;> simp

@[simp] theorem cmdAck_errCnt (s : State) (result : ℕ) :
    (cmdAck s result).errCnt = s.errCnt := by
  unfold cmdAck
  split <;> simp

@[simp] theorem cmdAck_ended (s : State) (result : ℕ) : (cmdAck s result).ended = s.ended := by
  unfold cmdAck
  split <;> simp

theorem cmdAck_success_sent {s : State} (h : s.dev.running = true) :
    (cmdAck s success).sent = s.sent ++ [ackBytes] :=
  ifWrite_sent ackBytes h

/-! ## Erase and write -/

theorem eraseImg_dev (s : State) (imgLen : ℕ) :
    (eraseImg s imgLen).1.dev = (flashErase s.dev s.iapParam.iapStartAddr imgLen).1 := by
  rw [eraseImg, cmdAck_dev]

theorem eraseImg_iapParam (s : State) (imgLen : ℕ) :
    (eraseImg s imgLen).1.iapParam = s.iapParam := by
  rw [eraseImg, cmdAck_iapParam]

theorem writeImg_dev (s : State) (writeAddr : ℕ) (data : List UInt8) :
    (writeImg s writeAddr data).1.dev = (flashWrite s.dev writeAddr data).1 := by
  unfold writeImg
  split
  · exact cmdAck_dev _ _
  · exact cmdAck_dev _ _

theorem writeImg_iapParam (s : State) (writeAddr : ℕ) (data : List UInt8) :
    (writeImg s writeAddr data).1.iapParam.iapStartAddr = s.iapParam.iapStartAddr ∧
      (writeImg s writeAddr data).1.iapParam.inactiveTableIndex
        = s.iapParam.inactiveTableIndex := by
  unfold writeImg
  split
  · simp only [setWriteAddr, cmdAck_iapParam]
    exact ⟨trivial, trivial⟩
  · simp only [cmdAck_iapParam]
    exact ⟨trivial, trivial⟩

theorem mem_cmdAck_sent {s : State} {result : ℕ} {response : List UInt8}
    (h : response ∈ (cmdAck s result).sent) :
    response ∈ s.sent ∨ response = if result = 0 then ackBytes else nackBytes result := by
  unfold cmdAck ifWrite at h
  split
  · rename_i h0
    rw [if_pos h0] at h
    split at h
    · simpa using h
    · exact .inl h
  · rename_i h0
    rw [if_neg h0] at h
    split at h
    · simpa using h
    · exact .inl h

/-- Whatever befalls the flash, a write programs a prefix of the data, and all of it when it
is acknowledged with `OK`. -/
theorem writeImg_spec (s : State) (writeAddr : ℕ) (data : List UInt8) :
    ∃ n, (writeImg s writeAddr data).1.dev.mem = sflashProgram s.dev.mem writeAddr (data.take n) ∧
      ∀ response ∈ (writeImg s writeAddr data).1.sent, response ∈ s.sent ∨
        response = ackBytes ∧ n = data.length ∨ response = nackBytes flashWriteError := by
  obtain ⟨n, hmem, hn⟩ := flashWrite_mem s.dev writeAddr data
  refine ⟨n, by rw [writeImg_dev, hmem], ?_⟩
  intro response hresp
  unfold writeImg at hresp
  split at hresp
  · rename_i hok
    rcases mem_cmdAck_sent hresp with h | h
    · exact .inl h
    · exact .inr (.inl ⟨h, hn hok⟩)
  · rcases mem_cmdAck_sent hresp with h | h
    · exact .inl h
    · exact .inr (.inr h)

/-- An erase that nothing disturbs is acknowledged with `OK`. -/
theorem eraseImg_ok {s : State} {imgLen : ℕ} (hrun : s.dev.running = true)
    (hf : s.dev.fault = .none) (hlen : 0 < imgLen)
    (he : sectorEnd (s.iapParam.iapStartAddr + imgLen - 1) < 2 ^ 32) :
    eraseImg s imgLen
      = ({ s with
            dev := { s.dev with
              mem := Nor.erase s.dev.mem (sectorStart s.iapParam.iapStartAddr)
                (sectorEnd (s.iapParam.iapStartAddr + imgLen - 1))
              faults := s.dev.faults.tail }
            sent := s.sent ++ [ackBytes] }, success) := by
  rw [eraseImg, flashErase_ok hrun hf hlen he]
  simp only [if_true, cmdAck, success, ifWrite, hrun]

/-- A write that nothing disturbs is acknowledged with `OK`. -/
theorem writeImg_ok {s : State} {writeAddr : ℕ} {data : List UInt8} (hrun : s.dev.running = true)
    (hf : s.dev.fault = .none) (h : writeAddr + data.length ≤ 2 ^ 32) :
    writeImg s writeAddr data
      = ({ s with
            dev := { s.dev with
              mem := Nor.program s.dev.mem writeAddr data
              faults := s.dev.faults.tail }
            iapParam := { s.iapParam with iapWriteAddr := u32 (writeAddr + data.length) }
            sent := s.sent ++ [ackBytes] }, success) := by
  rw [writeImg, flashWrite_ok hrun hf h]
  simp only [if_true, setWriteAddr, cmdAck, success, ifWrite, hrun]

end Loader
