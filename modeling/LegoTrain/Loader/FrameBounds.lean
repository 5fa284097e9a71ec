import LegoTrain.Loader.BleLink
import LegoTrain.Loader.UartLink

/-!
# Which bytes of a frame the loader uses

The body of the receive loop and the handlers of the commands once more, reading the frame
through accessors that know how many bytes have been received.  The length in the header is
trusted behind the reception; the serial link ties it to the number of bytes received, the
Bluetooth link does not.

* `onFrameIn` : `onFrame`, where a read of a byte that was not received fails;
* `onFrameIn_eq` : it is `onFrame` where it does not fail;
* `usesReceived_iff` : when the loader keeps to the bytes received;
* `usesReceived_uart` : it always does on the serial link;
* `usesReceived_ble` : a packet over Bluetooth of which it does not.
-/

namespace Loader

open ByteMem Flash Partition

/-! ## The loop body, with bounds -/

/-- `n` bytes of a frame from byte `o` on, when they have been received. -/
def Received.bytes (r : Received) (o n : ℕ) : Option (List UInt8) :=
  if o + n ≤ r.totalLen then some (read r.recvBuf o n) else none

/-- A number of `w` bytes of a frame. -/
def Received.le (r : Received) (o w : ℕ) : Option ℕ := (r.bytes o w).map leNat

/-- A byte of a frame. -/
def Received.byte (r : Received) (i : ℕ) : Option UInt8 :=
  if i < r.totalLen then some (r.recvBuf i) else none

/-- The checksum test. -/
def checksumOkIn (r : Received) (cmdLen : ℕ) : Option Bool :=
  (r.byte 1).bind fun b =>
    if b = 0 then some true
    else (r.bytes 2 (cmdLen + 2)).map fun bs => decide ((bs.map UInt8.toNat).sum % 256 = b.toNat)

/-- `bflb_eflash_loader_cmd_erase_flash`. -/
def cmdEraseFlashIn (s : State) (r : Received) (len : ℕ) : Option (State × ℕ) :=
  if len ≠ 8 then some (cmdAck s flashEraseParaError, flashEraseParaError)
  else
    (r.le 4 4).bind fun startaddr =>
      (r.le 8 4).map fun endaddr =>
        let imgLen := hostLen startaddr endaddr
        eraseImg { s with
          eflashLoaderError := success
          iapParam := { s.iapParam with iapImgLen := imgLen } } imgLen

/-- `bflb_eflash_loader_cmd_write_flash`. -/
def cmdWriteFlashIn (s : State) (r : Received) (len : ℕ) : Option (State × ℕ) :=
  if len ≤ 4 then some (cmdAck s flashWriteParaError, flashWriteParaError)
  else
    (r.le 4 4).bind fun writeAddr =>
      if writeAddr < 0xffffffff then (r.bytes 8 (len - 4)).map (writeImg s writeAddr)
      else some (cmdAck s flashWriteAddrError, flashWriteAddrError)

/-- `bflb_eflash_loader_cmd_process`: the other commands do not look at their data. -/
def cmdProcessIn (env : Env) (s : State) (cmdid : ℕ) (r : Received) (len : ℕ) :
    Option (State × ℕ) :=
  if cmdid = cmdFlashErase then cmdEraseFlashIn s r len
  else if cmdid = cmdFlashWrite then cmdWriteFlashIn s r len
  else some (cmdProcess env s cmdid (fun _ => 0) len)

/-- The body of the loop behind the reception of a frame. -/
def onFrameIn (env : Env) (s : State) (r : Received) : Option State :=
  (r.le 2 2).bind fun cmdLen =>
    (checksumOkIn r cmdLen).bind fun ok =>
      if ok then
        (r.byte 0).bind fun cmdid =>
          (cmdProcessIn env s cmdid.toNat r cmdLen).map fun res =>
            if res.2 = success then res.1 else countError res.1
      else some (ifWrite s (nackBytes cmdCrcError))

/-! ## It is the loop body -/

section Accessors

variable {r : Received}

theorem bytes_eq {o n : ℕ} (h : o + n ≤ r.totalLen) : r.bytes o n = some (read r.recvBuf o n) :=
  if_pos h

theorem le_eq {o w : ℕ} (h : o + w ≤ r.totalLen) : r.le o w = some (le r.recvBuf o w) := by
  rw [Received.le, bytes_eq h]
  rfl

theorem byte_eq {i : ℕ} (h : i < r.totalLen) : r.byte i = some (r.recvBuf i) := if_pos h

theorem bytes_eq_some {o n : ℕ} {bs : List UInt8} (h : r.bytes o n = some bs) :
    o + n ≤ r.totalLen ∧ bs = read r.recvBuf o n := by
  unfold Received.bytes at h
  split at h
  · rename_i hle
    cases h
    exact ⟨hle, rfl⟩
  · cases h

theorem le_eq_some {o w n : ℕ} (h : r.le o w = some n) :
    o + w ≤ r.totalLen ∧ n = le r.recvBuf o w := by
  obtain ⟨bs, hbs, rfl⟩ := Option.map_eq_some_iff.1 h
  obtain ⟨hle, rfl⟩ := bytes_eq_some hbs
  exact ⟨hle, rfl⟩

theorem byte_eq_some {i : ℕ} {b : UInt8} (h : r.byte i = some b) :
    i < r.totalLen ∧ b = r.recvBuf i := by
  unfold Received.byte at h
  split at h
  · rename_i hlt
    cases h
    exact ⟨hlt, rfl⟩
  · cases h

end Accessors

theorem le_cmdData (recvBuf : Mem) (o w : ℕ) : le (cmdData recvBuf) o w = le recvBuf (4 + o) w :=
  le_congr (read_congr fun i _ => by rw [cmdData, show o + i + 4 = 4 + o + i by omega])

theorem checksumOkIn_eq_some {r : Received} {ok : Bool}
    (h : checksumOkIn r (cmdLen r.recvBuf) = some ok) :
    ok = checksumOk r.recvBuf ∧ 1 < r.totalLen ∧
      (r.recvBuf 1 ≠ 0 → cmdLen r.recvBuf + 4 ≤ r.totalLen) := by
  obtain ⟨b, hb, h⟩ := Option.bind_eq_some_iff.1 h
  obtain ⟨hlt, rfl⟩ := byte_eq_some hb
  by_cases hzero : r.recvBuf 1 = 0
  · rw [if_pos hzero] at h
    cases h
    refine ⟨?_, hlt, fun hne => absurd hzero hne⟩
    simp [checksumOk, hzero]
  · rw [if_neg hzero] at h
    obtain ⟨bs, hbs, rfl⟩ := Option.map_eq_some_iff.1 h
    obtain ⟨hle, rfl⟩ := bytes_eq_some hbs
    refine ⟨?_, hlt, fun _ => by omega⟩
    simp [checksumOk, checksum, hzero]

/-- A frame whose bytes have all been received passes the same test. -/
theorem checksumOkIn_eq {r : Received} (h : cmdLen r.recvBuf + 4 ≤ r.totalLen) :
    checksumOkIn r (cmdLen r.recvBuf) = some (checksumOk r.recvBuf) := by
  rw [checksumOkIn, byte_eq (by omega), Option.bind_some]
  by_cases hzero : r.recvBuf 1 = 0
  · rw [if_pos hzero]
    simp [checksumOk, hzero]
  · rw [if_neg hzero, bytes_eq (by omega)]
    simp [checksumOk, checksum, hzero]

theorem cmdProcess_erase (env : Env) (s : State) (data : Mem) (len : ℕ) :
    cmdProcess env s cmdFlashErase data len = cmdEraseFlash s data len := rfl

theorem cmdProcess_flashWrite (env : Env) (s : State) (data : Mem) (len : ℕ) :
    cmdProcess env s cmdFlashWrite data len = cmdWriteFlash s data len := rfl

/-- The other commands do not look at their data. -/
theorem cmdProcess_data {cmdid : ℕ} (he : cmdid ≠ cmdFlashErase) (hw : cmdid ≠ cmdFlashWrite)
    (env : Env) (s : State) (data data' : Mem) (len : ℕ) :
    cmdProcess env s cmdid data len = cmdProcess env s cmdid data' len := by
  simp only [cmdProcess, if_neg he, if_neg hw]

theorem cmdProcessIn_eq_some {env : Env} {s : State} {cmdid len : ℕ} {r : Received}
    {res : State × ℕ} (h : cmdProcessIn env s cmdid r len = some res) :
    res = cmdProcess env s cmdid (cmdData r.recvBuf) len := by
  unfold cmdProcessIn at h
  by_cases he : cmdid = cmdFlashErase
  · subst he
    rw [if_pos rfl, cmdEraseFlashIn] at h
    rw [cmdProcess_erase, cmdEraseFlash]
    split at h
    · rename_i hlen
      cases h
      rw [if_pos hlen]
    · rename_i hlen
      obtain ⟨startaddr, hstart, h⟩ := Option.bind_eq_some_iff.1 h
      obtain ⟨endaddr, hend, rfl⟩ := Option.map_eq_some_iff.1 h
      rw [if_neg hlen, (le_eq_some hstart).2, (le_eq_some hend).2, le_cmdData, le_cmdData]
  by_cases hw : cmdid = cmdFlashWrite
  · subst hw
    rw [if_neg (by decide), if_pos rfl, cmdWriteFlashIn] at h
    rw [cmdProcess_flashWrite, cmdWriteFlash]
    split at h
    · rename_i hlen
      cases h
      rw [if_pos hlen]
    · rename_i hlen
      obtain ⟨writeAddr, haddr, h⟩ := Option.bind_eq_some_iff.1 h
      have haddr' := (le_eq_some haddr).2
      rw [if_neg hlen, le_cmdData, ← haddr']
      split at h
      · rename_i hlt
        obtain ⟨bs, hbs, rfl⟩ := Option.map_eq_some_iff.1 h
        rw [if_pos hlt, (bytes_eq_some hbs).2]
        congr 1
        exact read_congr fun i _ => by rw [cmdData, show 8 + i = 4 + i + 4 by omega]
      · rename_i hlt
        cases h
        rw [if_neg hlt]
  · rw [if_neg he, if_neg hw] at h
    cases h
    exact cmdProcess_data he hw env s _ _ len

/-- A command whose data has all been received. -/
theorem cmdProcessIn_eq {env : Env} {s : State} {cmdid len : ℕ} {r : Received}
    (h : len + 4 ≤ r.totalLen) :
    cmdProcessIn env s cmdid r len = some (cmdProcess env s cmdid (cmdData r.recvBuf) len) := by
  have hsome : (cmdProcessIn env s cmdid r len).isSome := by
    unfold cmdProcessIn cmdEraseFlashIn cmdWriteFlashIn
    by_cases he : cmdid = cmdFlashErase
    · rw [if_pos he]
      by_cases hlen : len = 8
      · rw [if_neg (not_not_intro hlen), le_eq (by omega), le_eq (by omega)]
        rfl
      · rw [if_pos hlen]
        rfl
    · rw [if_neg he]
      by_cases hw : cmdid = cmdFlashWrite
      · rw [if_pos hw]
        by_cases hlen : len ≤ 4
        · rw [if_pos hlen]
          rfl
        · rw [if_neg hlen, le_eq (by omega), Option.bind_some, bytes_eq (by omega)]
          split <;> rfl
      · rw [if_neg hw]
        rfl
  obtain ⟨res, hres⟩ := Option.isSome_iff_exists.1 hsome
  rw [hres, cmdProcessIn_eq_some hres]

/-- **The bounded loop body is the loop body**, as far as it gets. -/
theorem onFrameIn_eq {env : Env} {s s' : State} {r : Received} (h : onFrameIn env s r = some s') :
    s' = onFrame env s r.recvBuf := by
  obtain ⟨len, hlen, h⟩ := Option.bind_eq_some_iff.1 h
  obtain ⟨-, rfl⟩ := le_eq_some hlen
  obtain ⟨ok, hok, h⟩ := Option.bind_eq_some_iff.1 h
  obtain ⟨rfl, -, -⟩ := checksumOkIn_eq_some hok
  unfold onFrame
  split at h
  · rename_i htest
    obtain ⟨cmdid, hcmdid, h⟩ := Option.bind_eq_some_iff.1 h
    obtain ⟨-, rfl⟩ := byte_eq_some hcmdid
    obtain ⟨res, hres, rfl⟩ := Option.map_eq_some_iff.1 h
    rw [if_pos htest, cmdProcessIn_eq_some hres]
    rfl
  · rename_i htest
    cases h
    rw [if_neg htest]

/-! ## When the loader keeps to the bytes received -/

/-- The loader uses only what it has received. -/
structure UsesReceived (env : Env) (s : State) (r : Received) : Prop where
  /-- every byte that is read has been received -/
  reads : onFrameIn env s r = some (onFrame env s r.recvBuf)
  /-- all bytes of a command that is executed have been -/
  executed : checksumOk r.recvBuf = true → 4 + cmdLen r.recvBuf ≤ r.totalLen
  /-- a frame with another length than it says is rejected -/
  rejected : 4 + cmdLen r.recvBuf ≠ r.totalLen → checksumOk r.recvBuf = false

/-- **When the loader keeps to the bytes received**: exactly for a frame that is as long as its
header says, or longer with a wrong checksum. -/
theorem usesReceived_iff (env : Env) (s : State) (r : Received) :
    UsesReceived env s r ↔ cmdLen r.recvBuf + 4 = r.totalLen ∨
      cmdLen r.recvBuf + 4 < r.totalLen ∧ checksumOk r.recvBuf = false := by
  constructor
  · intro h
    by_cases heq : cmdLen r.recvBuf + 4 = r.totalLen
    · exact .inl heq
    have hbad := h.rejected (by omega)
    obtain ⟨len, hlen, hrest⟩ := Option.bind_eq_some_iff.1 h.reads
    obtain ⟨-, rfl⟩ := le_eq_some hlen
    obtain ⟨ok, hok, -⟩ := Option.bind_eq_some_iff.1 hrest
    obtain ⟨-, -, hle⟩ := checksumOkIn_eq_some hok
    have hne : r.recvBuf 1 ≠ 0 := by
      intro hzero
      simp [checksumOk, hzero] at hbad
    have hle := hle hne
    exact .inr ⟨by omega, hbad⟩
  · intro h
    have hle : cmdLen r.recvBuf + 4 ≤ r.totalLen := by omega
    refine ⟨?_, fun _ => by omega, ?_⟩
    · rw [onFrameIn, le_eq (by omega), Option.bind_some]
      show (checksumOkIn r (cmdLen r.recvBuf)).bind _ = _
      rw [checksumOkIn_eq hle, Option.bind_some, onFrame]
      split
      · rw [byte_eq (by omega), Option.bind_some]
        show (cmdProcessIn env s _ r (cmdLen r.recvBuf)).map _ = _
        rw [cmdProcessIn_eq hle]
        rfl
      · rfl
    · intro hne
      rcases h with heq | ⟨-, hbad⟩
      · exact absurd heq (by omega)
      · exact hbad

/-- On the serial link it always does: a frame is complete when it is as long as its header
says. -/
theorem usesReceived_uart (env : Env) (s : State) {l l' : UartLink} {r : Received}
    (h : usartIfReceive l = (l', some r)) (hlen : r.totalLen ≠ 0) : UsesReceived env s r := by
  rw [usesReceived_iff]
  unfold usartIfReceive at h
  split at h
  · cases h
    simp only at hlen ⊢
    split at hlen
    · rename_i hmax
      rw [if_pos hmax]
      exact .inl rfl
    · exact absurd rfl hlen
  · cases h

/-- A packet of nine bytes with a write command in it that claims thirteen bytes of data. -/
def shortPacket : List UInt8 := [9, 0, 0x31, 0, 13, 0, 0, 0, 3, 0, 0xAA]

/-- The link when it has come in. -/
def shortLink : BleLink := (bleBlfRecv ⟨fun _ => 0, 0, false⟩ shortPacket false).1

/-- The Bluetooth link hands the packet over, and the loader executes it with eight bytes that
have not been received. -/
theorem usesReceived_ble :
    (bleRecv shortLink).2.1.totalLen = 9 ∧ cmdLen (bleRecv shortLink).2.1.recvBuf = 13 ∧
      checksumOk (bleRecv shortLink).2.1.recvBuf = true ∧
      ∀ (env : Env) (s : State), ¬ UsesReceived env s (bleRecv shortLink).2.1 := by
  have hlen : (bleRecv shortLink).2.1.totalLen = 9 := by decide
  have hcmd : cmdLen (bleRecv shortLink).2.1.recvBuf = 13 := by decide
  have hok : checksumOk (bleRecv shortLink).2.1.recvBuf = true := by decide
  refine ⟨hlen, hcmd, hok, ?_⟩
  intro env s h
  have hle := h.executed hok
  rw [hcmd, hlen] at hle
  exact absurd hle (by decide)

end Loader
