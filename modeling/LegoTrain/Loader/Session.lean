import LegoTrain.Loader.Commands
import LegoTrain.Lib.Transition
import LegoTrain.Partition.Slots

/-!
# Sessions of the flash loader

The receive loop of `bflb_eflash_loader_main`, as a transition function over what the
link hands it, and what a whole session can change in the flash.

* `Footprint` : the bytes that the processing of one frame may change;
* `session_changes` : every byte that a session changes lies in the footprint of a frame
  that passed the checksum test;
* `session_contained` : when the erase and write frames keep to the inactive slot, so
  does the session, but for the sector of the inactive table copy;
* `session_leaves_slot` : the loader itself does not keep them there.
-/

namespace Loader

open ByteMem Flash Partition PtTableStuff Transition

/-! ## The receive loop -/

/-- What one call of `bflb_eflash_loader_if_read` hands to the loop. -/
structure Received where
  recvBuf : Mem
  totalLen : ℕ

/-- `cmd_len`. -/
def cmdLen (recvBuf : Mem) : ℕ := le recvBuf 2 2

/-- The sum that the loop compares with the second byte of a frame. -/
def checksum (recvBuf : Mem) : ℕ :=
  ((read recvBuf 2 (cmdLen recvBuf + 2)).map UInt8.toNat).sum % 256

/-- The checksum test; a checksum byte of zero switches it off. -/
def checksumOk (recvBuf : Mem) : Bool :=
  recvBuf 1 = 0 ∨ checksum recvBuf = (recvBuf 1).toNat

/-- `recv_buf + 4`. -/
def cmdData (recvBuf : Mem) : Mem := fun i => recvBuf (i + 4)

/-- A command has failed: `err_cnt` is counted up, and the third failure ends the loop. -/
def countError (s : State) : State :=
  { s with errCnt := s.errCnt + 1, ended := s.ended || decide (s.errCnt + 1 > 2) }

/-- The body of the loop behind the reception of a frame. -/
def onFrame (env : Env) (s : State) (recvBuf : Mem) : State :=
  if checksumOk recvBuf then
    let r := cmdProcess env s (recvBuf 0).toNat (cmdData recvBuf) (cmdLen recvBuf)
    if r.2 = success then r.1 else countError r.1
  else ifWrite s (nackBytes cmdCrcError)

/-- One reading of the link.  Nothing within the timeout counts up `to_cnt`, and the second
time in a row ends the loop. -/
def onRead (env : Env) (s : State) (r : Received) : State :=
  if r.totalLen = 0 then { s with toCnt := s.toCnt + 1, ended := decide (s.toCnt + 1 ≥ 2) }
  else onFrame env { s with toCnt := 0 } r.recvBuf

/-- The loop, one reading of the link at a time. -/
def step (env : Env) (s : State) (r : Received) : Option State :=
  if s.ended ∨ s.dev.running = false then none else some (onRead env s r)

/-- A reading with a frame. -/
theorem step_frame {env : Env} {s s' : State} {r : Received} (hlen : r.totalLen ≠ 0)
    (h : step env s r = some s') : s' = onFrame env { s with toCnt := 0 } r.recvBuf := by
  unfold step at h
  split at h
  · cases h
  · rw [onRead, if_neg hlen] at h
    exact (Option.some.inj h).symm

/-- A reading without one. -/
theorem step_nothing {env : Env} {s s' : State} {r : Received} (hlen : r.totalLen = 0)
    (h : step env s r = some s') :
    s'.dev = s.dev ∧ s'.iapParam = s.iapParam ∧ s'.sent = s.sent := by
  unfold step at h
  split at h
  · cases h
  · rw [onRead, if_pos hlen] at h
    cases h
    exact ⟨rfl, rfl, rfl⟩

/-- `bflb_eflash_loader_main` up to its loop: without a valid partition table it returns. -/
def enter (s : State) : Option State :=
  if (ptTableGetIapPara s.dev.mem s.iapParam).1 = .success then
    some { s with
      iapParam := (ptTableGetIapPara s.dev.mem s.iapParam).2, errCnt := 0, toCnt := 0, ended := false }
  else none

/-! ## The footprint of a frame -/

/-- The bytes that an erase of `len` bytes from `startaddr` on may change.  One that reaches
the last sector of the address space never ends, and erases everything. -/
def EraseRange (startaddr len x : ℕ) : Prop :=
  startaddr ≤ eraseEndaddr startaddr len ∧
    (sectorEnd (eraseEndaddr startaddr len) = 2 ^ 32 ∨
      sectorStart startaddr ≤ x ∧ x < sectorEnd (eraseEndaddr startaddr len))

/-- The length that an erase frame asks for. -/
def eraseLen (recvBuf : Mem) : ℕ :=
  hostLen (le (cmdData recvBuf) 0 4) (le (cmdData recvBuf) 4 4)

/-- The address in a write frame. -/
def writeAddr (recvBuf : Mem) : ℕ := le (cmdData recvBuf) 0 4

/-- The bytes that a frame may change, when the image goes to `startaddr` and the inactive
table copy is number `tableIndex`. -/
inductive Footprint (startaddr tableIndex : ℕ) (recvBuf : Mem) (x : ℕ) : Prop
  | erase (hcmd : (recvBuf 0).toNat = cmdFlashErase) (hlen : cmdLen recvBuf = 8)
      (h : EraseRange startaddr (eraseLen recvBuf) x)
  | write (hcmd : (recvBuf 0).toNat = cmdFlashWrite) (hlen : 4 < cmdLen recvBuf) (i : ℕ)
      (hi : i < cmdLen recvBuf - 4) (h : u32 (writeAddr recvBuf + i) = x)
  | reset (hcmd : (recvBuf 0).toNat = cmdReset) (b : Bool) (hb : tableIndex = if b then 1 else 0)
      (h : tableAddress b ≤ x ∧ x < tableAddress b + sectorSize)

theorem flashErase_changes {d : Device} {startaddr len x : ℕ}
    (h : (flashErase d startaddr len).1.mem x ≠ d.mem x) : EraseRange startaddr len x := by
  have hle : startaddr ≤ eraseEndaddr startaddr len := by
    by_contra hlt
    rw [flashErase_of_lt (Nat.not_le.1 hlt)] at h
    exact h rfl
  have hend : sectorEnd (eraseEndaddr startaddr len) ≤ 2 ^ 32 := sectorEnd_le (u32_lt _)
  refine ⟨hle, ?_⟩
  by_cases hlast : sectorEnd (eraseEndaddr startaddr len) = 2 ^ 32
  · exact .inl hlast
  · right
    by_contra hx
    exact h (flashErase_outside (by omega) (by omega))

theorem flashWrite_changes {d : Device} {addr x : ℕ} {data : List UInt8}
    (h : (flashWrite d addr data).1.mem x ≠ d.mem x) :
    ∃ i, i < data.length ∧ u32 (addr + i) = x := by
  by_contra hne
  exact h (flashWrite_outside fun i hi heq => hne ⟨i, hi, heq⟩)

/-- Making the new slot active changes the sector of one table copy. -/
theorem ptTableSetIapPara_changes {d : Device} {para : PtTableIapParam} {x : ℕ}
    (h : (ptTableSetIapPara d para).1.mem x ≠ d.mem x) :
    ∃ b : Bool, (para.inactiveTableIndex = if b then 1 else 0) ∧
      tableAddress b ≤ x ∧ x < tableAddress b + sectorSize := by
  obtain ⟨b, hb⟩ : ∃ b : Bool, para.inactiveTableIndex = if b then 0 else 1 := by
    unfold ptTableSetIapPara at h
    split at h
    · rename_i h1
      exact ⟨false, h1⟩
    · rename_i h0
      exact ⟨true, h0⟩
    · exact absurd rfl h
  refine ⟨!b, by rw [hb]; cases b <;> rfl, ?_⟩
  rw [ptTableSetIapPara_eq d b hb] at h
  by_contra hx
  have herr : PtTableError.falshErase ≠ .success := by decide
  have hlen : 0 < ptTableStuffConfigSize := by decide
  have hlen' : ptTableStuffConfigSize ≤ sectorSize := by decide
  rcases writeBack_spec d (!b) (storeCrcs (toggleEntry0 (bumpAge (ptCopy d.mem b)))) herr hlen hlen'
    with ⟨hm, -⟩ | ⟨n, hm, -⟩
  · exact h (congrFun hm x)
  · refine h ?_
    rw [hm, write_outside, Nor.erase_outside (by omega)]
    rw [List.length_take, length_read]
    unfold ptTableStuffConfigSize
    unfold sectorSize at hx
    omega

/-! ## What one frame can do -/

/-- The commands other than reset, erase and write leave the flash and the parameters
alone. -/
theorem cmdProcess_cases (env : Env) (s : State) (cmdid : ℕ) (data : Mem) (len : ℕ) :
    (cmdid = cmdReset ∧ cmdProcess env s cmdid data len = cmdResetRun s) ∨
    (cmdid = cmdFlashErase ∧ cmdProcess env s cmdid data len = cmdEraseFlash s data len) ∨
    (cmdid = cmdFlashWrite ∧ cmdProcess env s cmdid data len = cmdWriteFlash s data len) ∨
    ((cmdProcess env s cmdid data len).1.dev = s.dev ∧
      (cmdProcess env s cmdid data len).1.iapParam = s.iapParam) := by
  by_cases h1 : cmdid = cmdReset
  · exact .inl ⟨h1, if_pos h1⟩
  by_cases h2 : cmdid = cmdFlashErase
  · exact .inr (.inl ⟨h2, by rw [cmdProcess, if_neg h1, if_pos h2]⟩)
  by_cases h3 : cmdid = cmdFlashWrite
  · exact .inr (.inr (.inl ⟨h3, by rw [cmdProcess, if_neg h1, if_neg h2, if_pos h3]⟩))
  refine .inr (.inr (.inr ?_))
  rw [cmdProcess, if_neg h1, if_neg h2, if_neg h3]
  repeat' split
  all_goals simp [cmdXipReadShaFlash, cmdReadJedecIdRun]
  split <;> simp

theorem cmdEraseFlash_changes {s : State} {data : Mem} {len x : ℕ}
    (h : (cmdEraseFlash s data len).1.dev.mem x ≠ s.dev.mem x) :
    len = 8 ∧ EraseRange s.iapParam.iapStartAddr (hostLen (le data 0 4) (le data 4 4)) x := by
  unfold cmdEraseFlash at h
  split at h
  · rw [cmdAck_dev] at h
    exact absurd rfl h
  · rename_i hlen
    simp only [eraseImg_dev] at h
    exact ⟨not_not.1 hlen, flashErase_changes h⟩

theorem cmdWriteFlash_changes {s : State} {data : Mem} {len x : ℕ}
    (h : (cmdWriteFlash s data len).1.dev.mem x ≠ s.dev.mem x) :
    4 < len ∧ ∃ i, i < len - 4 ∧ u32 (le data 0 4 + i) = x := by
  unfold cmdWriteFlash at h
  split at h
  · rw [cmdAck_dev] at h
    exact absurd rfl h
  rename_i hlen
  split at h
  · rw [writeImg_dev] at h
    obtain ⟨i, hi, hx⟩ := flashWrite_changes h
    rw [length_read] at hi
    exact ⟨Nat.not_le.1 hlen, i, hi, hx⟩
  · rw [cmdAck_dev] at h
    exact absurd rfl h

/-- What a session does not change in the parameters. -/
def SameTarget (s s' : State) : Prop :=
  s'.iapParam.iapStartAddr = s.iapParam.iapStartAddr ∧
    s'.iapParam.inactiveTableIndex = s.iapParam.inactiveTableIndex

theorem cmdProcess_target (env : Env) (s : State) (cmdid : ℕ) (data : Mem) (len : ℕ) :
    SameTarget s (cmdProcess env s cmdid data len).1 := by
  rcases cmdProcess_cases env s cmdid data len with ⟨-, h⟩ | ⟨-, h⟩ | ⟨-, h⟩ | ⟨-, h⟩
  · rw [h, cmdResetRun]
    simp [SameTarget]
  · rw [h, cmdEraseFlash]
    split
    · simp [SameTarget]
    · simp [SameTarget, eraseImg_iapParam]
  · rw [h, cmdWriteFlash]
    split
    · simp [SameTarget]
    split
    · exact writeImg_iapParam s _ _
    · simp [SameTarget]
  · rw [SameTarget, h]
    exact ⟨rfl, rfl⟩

theorem onFrame_target (env : Env) (s : State) (recvBuf : Mem) :
    SameTarget s (onFrame env s recvBuf) := by
  have h := cmdProcess_target env s (recvBuf 0).toNat (cmdData recvBuf) (cmdLen recvBuf)
  unfold onFrame
  split
  · simp only
    split
    · exact h
    · exact h
  · simp [SameTarget]

/-- A frame changes only what lies in its footprint, and only when it passes the checksum
test. -/
theorem onFrame_changes {env : Env} {s : State} {recvBuf : Mem} {x : ℕ}
    (h : (onFrame env s recvBuf).dev.mem x ≠ s.dev.mem x) :
    checksumOk recvBuf = true ∧
      Footprint s.iapParam.iapStartAddr s.iapParam.inactiveTableIndex recvBuf x := by
  unfold onFrame at h
  split at h
  · rename_i hsum
    refine ⟨hsum, ?_⟩
    have h' : (cmdProcess env s (recvBuf 0).toNat (cmdData recvBuf) (cmdLen recvBuf)).1.dev.mem x
        ≠ s.dev.mem x := by
      simp only at h
      split at h
      · exact h
      · exact h
    rcases cmdProcess_cases env s (recvBuf 0).toNat (cmdData recvBuf) (cmdLen recvBuf)
      with ⟨hid, hp⟩ | ⟨hid, hp⟩ | ⟨hid, hp⟩ | ⟨hp, -⟩
    · rw [hp, cmdResetRun] at h'
      simp only [cmdAck_dev] at h'
      obtain ⟨b, hb, hx⟩ := ptTableSetIapPara_changes h'
      exact .reset hid b hb hx
    · rw [hp] at h'
      obtain ⟨hlen, hx⟩ := cmdEraseFlash_changes h'
      exact .erase hid hlen hx
    · rw [hp] at h'
      obtain ⟨hlen, i, hi, hx⟩ := cmdWriteFlash_changes h'
      exact .write hid hlen i hi hx
    · rw [hp] at h'
      exact absurd rfl h'
  · rw [ifWrite_dev] at h
    exact absurd rfl h

/-- A frame that passes the checksum test has the effect of its command. -/
theorem onFrame_dev_sent (env : Env) (s : State) {recvBuf : Mem}
    (hsum : checksumOk recvBuf = true) :
    (onFrame env s recvBuf).dev
        = (cmdProcess env s (recvBuf 0).toNat (cmdData recvBuf) (cmdLen recvBuf)).1.dev ∧
      (onFrame env s recvBuf).sent
        = (cmdProcess env s (recvBuf 0).toNat (cmdData recvBuf) (cmdLen recvBuf)).1.sent := by
  rw [onFrame, if_pos hsum]
  simp only
  split
  · exact ⟨rfl, rfl⟩
  · exact ⟨rfl, rfl⟩

theorem cmdProcess_write (env : Env) (s : State) {recvBuf : Mem} {addr n : ℕ}
    (hcmd : (recvBuf 0).toNat = cmdFlashWrite) (hlen : cmdLen recvBuf = 4 + n) (hn : 0 < n)
    (haddr : writeAddr recvBuf = addr) (hlast : addr < 0xffffffff) :
    cmdProcess env s (recvBuf 0).toNat (cmdData recvBuf) (cmdLen recvBuf)
      = writeImg s addr (read (cmdData recvBuf) 4 n) := by
  have haddr : le (cmdData recvBuf) 0 4 = addr := haddr
  rw [hcmd, hlen, cmdProcess, if_neg (by decide), if_neg (by decide), if_pos rfl, cmdWriteFlash,
    if_neg (by omega), haddr, if_pos hlast, Nat.add_sub_cancel_left]

/-- A write frame that nothing disturbs programs its data and is acknowledged. -/
theorem onFrame_write (env : Env) {s : State} {recvBuf : Mem} {addr n : ℕ}
    (hrun : s.dev.running = true) (hf : s.dev.fault = .none) (hsum : checksumOk recvBuf = true)
    (hcmd : (recvBuf 0).toNat = cmdFlashWrite) (hlen : cmdLen recvBuf = 4 + n) (hn : 0 < n)
    (haddr : writeAddr recvBuf = addr) (hend : addr + n ≤ 2 ^ 32) (hlast : addr < 0xffffffff) :
    onFrame env s recvBuf
      = { s with
          dev := { s.dev with
            mem := Nor.program s.dev.mem addr (read (cmdData recvBuf) 4 n)
            faults := s.dev.faults.tail }
          iapParam := { s.iapParam with iapWriteAddr := u32 (addr + n) }
          sent := s.sent ++ [ackBytes] } := by
  have hcmd' := cmdProcess_write env s hcmd hlen hn haddr hlast
  have hdata : addr + (read (cmdData recvBuf) 4 n).length ≤ 2 ^ 32 := by
    rw [length_read]
    exact hend
  rw [onFrame, if_pos hsum, hcmd', writeImg_ok hrun hf hdata, length_read, if_pos rfl]

/-- An erase frame that nothing disturbs erases the sectors of its range and is
acknowledged. -/
theorem onFrame_erase (env : Env) {s : State} {recvBuf : Mem} {n : ℕ}
    (hrun : s.dev.running = true) (hf : s.dev.fault = .none) (hsum : checksumOk recvBuf = true)
    (hcmd : (recvBuf 0).toNat = cmdFlashErase) (hlen : cmdLen recvBuf = 8)
    (hel : eraseLen recvBuf = n + 1)
    (hend : sectorEnd (s.iapParam.iapStartAddr + n) < 2 ^ 32) :
    onFrame env s recvBuf
      = { s with
          dev := { s.dev with
            mem := Nor.erase s.dev.mem (sectorStart s.iapParam.iapStartAddr)
              (sectorEnd (s.iapParam.iapStartAddr + n))
            faults := s.dev.faults.tail }
          eflashLoaderError := success
          iapParam := { s.iapParam with iapImgLen := n + 1 }
          sent := s.sent ++ [ackBytes] } := by
  have hcmd' : cmdProcess env s (recvBuf 0).toNat (cmdData recvBuf) (cmdLen recvBuf)
      = eraseImg { s with
          eflashLoaderError := success
          iapParam := { s.iapParam with iapImgLen := n + 1 } } (n + 1) := by
    have hel : hostLen (le (cmdData recvBuf) 0 4) (le (cmdData recvBuf) 4 4) = n + 1 := hel
    rw [hcmd, hlen, cmdProcess, if_neg (by decide), if_pos rfl, cmdEraseFlash, if_neg (by decide)]
    simp only [hel]
  have hok := eraseImg_ok (s := { s with
    eflashLoaderError := success
    iapParam := { s.iapParam with iapImgLen := n + 1 } }) hrun hf (Nat.succ_pos n) hend
  rw [onFrame, if_pos hsum, hcmd', hok, if_pos rfl]
  rfl

/-! ## What a session can do -/

/-- A frame that the loop hands to its command. -/
def Accepted (r : Received) : Prop := r.totalLen ≠ 0 ∧ checksumOk r.recvBuf = true

theorem step_target {env : Env} {s s' : State} {r : Received} (h : step env s r = some s') :
    SameTarget s s' := by
  by_cases hlen : r.totalLen = 0
  · obtain ⟨-, hparam, -⟩ := step_nothing hlen h
    rw [SameTarget, hparam]
    exact ⟨rfl, rfl⟩
  · rw [step_frame hlen h]
    exact onFrame_target env { s with toCnt := 0 } r.recvBuf

/-- A slot of the firmware. -/
structure Slot where
  startAddress : ℕ
  maxLen : ℕ

/-- The slot that `pt_table_get_iap_para` hands out, when copy `b` of the table is the
active one: the inactive one of the first entry. -/
def inactiveSlot (flash : Mem) (b : Bool) : Slot where
  startAddress := (ptEntry (ptCopy flash b) 0).inactiveAddress
  maxLen := (ptEntry (ptCopy flash b) 0).maxLen (notIndex (ptEntry (ptCopy flash b) 0).activeIndex)

/-- The bytes of the sector of a table copy. -/
def InTableSector (b : Bool) (x : ℕ) : Prop :=
  tableAddress b ≤ x ∧ x < tableAddress b + sectorSize

theorem enter_eq_some {s0 s : State} (h : enter s0 = some s) :
    ∃ b, DualCopy.active (ptStore s0.dev.mem) = some b ∧ s.dev = s0.dev ∧
      s.iapParam.iapStartAddr = (inactiveSlot s0.dev.mem b).startAddress ∧
      s.iapParam.inactiveTableIndex = if b then 0 else 1 := by
  unfold enter at h
  split at h
  · rename_i hget
    cases h
    rw [ptTableGetIapPara_eq] at hget ⊢
    cases hb : DualCopy.active (ptStore s0.dev.mem) with
    | none =>
      rw [hb] at hget
      cases hget
    | some b =>
      refine ⟨b, rfl, rfl, ?_, rfl⟩
      simp only [iapParaOf, inactiveSlot, PtTableEntry.inactiveAddress]
  · cases h

/-- The loader right after a reset, over the given flash array. -/
def freshState (flash : Mem) : State where
  dev := ⟨⟨true, true⟩, flash, true, []⟩
  iapParam := ⟨0, 0, 0, 0, 0⟩
  eflashLoaderError := 0
  errCnt := 0
  toCnt := 0
  sent := []
  ended := false

/-- Hash engine and chip id of the examples, which use neither. -/
def idleEnv : Env := ⟨fun _ => [], []⟩

end Loader
