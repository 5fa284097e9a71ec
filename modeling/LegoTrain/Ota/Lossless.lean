import LegoTrain.App.UpdateHandler
import LegoTrain.Loader.BleLink
import LegoTrain.Ota.Erase

/-!
# The lossless update

The whole way of an image when nothing is lost: pages, frames, packets, reassembly, the
checksum test and the write command, run one after the other until the image is exhausted.

* `transmit`, `mainTask`, `sendFirmware` : the composition, page by page;
* `transmit_spec` : the packets of a frame put together are the frame;
* `sendPage_spec` : a page is programmed and acknowledged;
* `lossless` : the flash ends up with the image, and one `OK` for each page was sent.
-/

namespace Ota

open ByteMem Flash App Loader

/-- The robot: its link and its loader. -/
structure Robot where
  link : BleLink
  loader : State

/-- The flash array of the robot. -/
def Robot.mem (r : Robot) : Mem := r.loader.dev.mem

/-- The loop of `sendOnePage`: each packet is handed to `ble_blf_recv`. -/
def transmit : ℕ → RobotData → BleLink → Option BleLink
  | 0, _, _ => none
  | fuel + 1, datapkg, l =>
    match datapkg.getNextChunk with
    | none => some l
    | some c => transmit fuel c.2 (bleBlfRecv l c.1 false).1

/-- One turn of the main task: a frame is fetched from the link and processed. -/
def mainTask (env : Env) (r : Robot) : Option Robot :=
  (Loader.step env { r.loader with sent := r.loader.sent ++ (bleRecv r.link).2.2 } (bleRecv r.link).2.1).map
    fun s => ⟨(bleRecv r.link).1, s⟩

/-- A page is sent in packets, and the main task processes the frame. -/
def sendPage (env : Env) (r : Robot) (progAddr : ℕ) (firmwareChunk : List UInt8) : Option Robot :=
  (transmit ((programOnePageCommandPayload progAddr firmwareChunk).length + 3)
    (.ofData (programOnePageCommandPayload progAddr firmwareChunk)) r.link).bind
    fun l => mainTask env { r with link := l }

/-- The first response since `r` is one that `getResponse` takes for an `OK`. -/
def acknowledged (r r' : Robot) : Bool :=
  (r'.loader.sent.drop r.loader.sent.length).head?.any responseOk

/-- The page loop of the handler, which goes on as long as the pages are acknowledged. -/
def sendFirmware (env : Env) : ℕ → BleFirmwareData → ℕ → Robot → Option Robot
  | 0, _, _, _ => none
  | fuel + 1, firmwareData, progAddr, r =>
    match firmwareData.getNextChunk with
    | none => some r
    | some c => (sendPage env r progAddr c.1).bind fun r' =>
        if acknowledged r r' then sendFirmware env fuel c.2 (progAddr + c.1.length) r' else none

/-! ## A frame in packets -/

/-- All packets of a frame, from any point on: the link ends up with the frame, and has woken
the main task up. -/
theorem transmit_spec {len : ℕ} (fuel : ℕ) {d : RobotData} {l : BleLink}
    (hlen : d.robotData.take 2 = leBytes 2 len) (htotal : d.robotData.length = len + 2)
    (hsize : d.robotData.length < bleReadbufSize) (hlt : d.bytesProcessed < d.robotData.length)
    (hfuel : d.robotData.length < fuel + d.bytesProcessed)
    (h : Receiving d.robotData d.bytesProcessed l) :
    ∃ l', transmit fuel d l = some l' ∧ l'.rxSem = true ∧ l'.rxBufLen = len ∧
      read l'.rcvBuf 0 d.robotData.length = d.robotData := by
  induction fuel generalizing d l with
  | zero => omega
  | succ fuel ih =>
    obtain ⟨k, hget, hnk, hk, hsz⟩ := RobotData.getNextChunk_eq_some hlt
    have hplen : (copyOfRange d.robotData d.bytesProcessed k).length = k - d.bytesProcessed :=
      length_copyOfRange hk
    have hend : d.bytesProcessed + (copyOfRange d.robotData d.bytesProcessed k).length = k := by
      omega
    have hp : copyOfRange d.robotData d.bytesProcessed k
        = (d.robotData.drop d.bytesProcessed).take
            (copyOfRange d.robotData d.bytesProcessed k).length := by
      rw [hplen, copyOfRange]
    have hk2 : 2 ≤ k := by
      unfold RobotData.defaultPacketSizeBytes at hsz
      omega
    rw [transmit, hget]
    by_cases hlast : k = d.robotData.length
    · obtain ⟨hsem, hlen', hread⟩ :=
        bleBlfRecv_last h hlen htotal hsize hp (by omega) (by omega)
      refine ⟨_, ?_, hsem, hlen', hread⟩
      have hnone : RobotData.getNextChunk { d with bytesProcessed := k } = none :=
        RobotData.getNextChunk_eq_none hlast
      cases fuel with
      | zero => omega
      | succ fuel => simp only [transmit, hnone]
    · have hnext := bleBlfRecv_next h hlen htotal hsize hp (by omega) (by omega)
      rw [hend] at hnext
      exact ih (d := { d with bytesProcessed := k }) hlen htotal hsize
        (Nat.lt_of_le_of_ne hk hlast) (by simp only; omega) hnext

/-- The robot between two frames, with nothing to disturb the flash. -/
structure Idle (r : Robot) : Prop where
  rxBufLen : r.link.rxBufLen = 0
  rxSem : r.link.rxSem = false
  running : r.loader.dev.running = true
  faults : r.loader.dev.faults = []
  ended : r.loader.ended = false

/-- The packets of a frame, sent to an idle robot, reach its loop as that frame. -/
theorem transmit_frame {r : Robot} (frame : List UInt8) (hidle : Idle r) (hpos : 0 < frame.length)
    (hsize : frame.length + 2 < bleReadbufSize) :
    ∃ l recvBuf, transmit (frame.length + 3) (.ofData frame) r.link = some l ∧
      bleRecv l = ({ l with rxBufLen := 0, rxSem := false }, ⟨recvBuf, frame.length⟩, []) ∧
      Holds recvBuf frame := by
  have htotal : (RobotData.ofData frame).robotData.length = frame.length + 2 := by
    rw [RobotData.ofData, List.length_append, length_toBytes, Nat.add_comm]
  have hhead : (RobotData.ofData frame).robotData.take 2 = leBytes 2 frame.length :=
    List.take_left' (length_toBytes _ 2)
  obtain ⟨l, htransmit, hsem, hlen, hread⟩ := transmit_spec (frame.length + 3)
    (d := .ofData frame) (l := r.link) hhead htotal (by omega)
    (by rw [htotal]; exact Nat.succ_pos _) (by rw [htotal]; exact Nat.lt_succ_self _)
    ⟨hidle.rxBufLen, hidle.rxSem, rfl⟩
  refine ⟨l, fun i => l.rcvBuf (i + 2), htransmit, ?_, ?_⟩
  · rw [bleRecv_frame hsem (by omega), hlen]
  · have hsub : read l.rcvBuf (0 + 2) frame.length
        = ((RobotData.ofData frame).robotData.drop 2).take frame.length := by
      rw [← read_sub (n := (RobotData.ofData frame).robotData.length) (by omega), hread]
    have hdrop : (RobotData.ofData frame).robotData.drop 2 = frame :=
      List.drop_left' (length_toBytes _ 2)
    rw [hdrop, List.take_length] at hsub
    have hshift : read (fun i => l.rcvBuf (i + 2)) 0 frame.length
        = read l.rcvBuf (0 + 2) frame.length :=
      read_congr fun i _ => congrArg l.rcvBuf (by omega)
    rw [Holds, hshift, hsub]

/-- A page that is sent to an idle robot is programmed and acknowledged. -/
theorem sendPage_spec (env : Env) {r : Robot} (progAddr : ℕ) (page : List UInt8) (hidle : Idle r)
    (hpos : 0 < page.length) (hlen : page.length ≤ BleFirmwareData.programSize)
    (hend : progAddr + page.length ≤ 0xffffffff) :
    ∃ r', sendPage env r progAddr page = some r' ∧ Idle r' ∧
      r'.mem = Nor.program r.mem progAddr page ∧
      r'.loader.sent = r.loader.sent ++ [ackBytes] ∧ r'.loader.errCnt = r.loader.errCnt := by
  have hframe : (programOnePageCommandPayload progAddr page).length = 8 + page.length := by
    rw [programOnePageCommandPayload, length_createPayload, List.length_append, length_toBytes]
    omega
  unfold BleFirmwareData.programSize at hlen
  obtain ⟨l, recvBuf, htransmit, hrecv, hholds⟩ := transmit_frame
    (programOnePageCommandPayload progAddr page) hidle (by omega)
    (by unfold bleReadbufSize; omega)
  have hpage := onFrame_program env (s := { r.loader with sent := r.loader.sent ++ [], toCnt := 0 })
    hidle.running (by rw [Device.fault, hidle.faults]; rfl) hholds hpos (by omega) hend
  have hne : (programOnePageCommandPayload progAddr page).length ≠ 0 := by omega
  have hstep : Loader.step env { r.loader with sent := r.loader.sent ++ [] }
      ⟨recvBuf, (programOnePageCommandPayload progAddr page).length⟩
      = some (onFrame env { r.loader with sent := r.loader.sent ++ [], toCnt := 0 } recvBuf) := by
    rw [Loader.step, if_neg (by simp [hidle.ended, hidle.running]), onRead, if_neg hne]
  have hturn : mainTask env { r with link := l }
      = some ⟨{ l with rxBufLen := 0, rxSem := false },
          onFrame env { r.loader with sent := r.loader.sent ++ [], toCnt := 0 } recvBuf⟩ := by
    rw [mainTask, hrecv, hstep]
    rfl
  refine ⟨_, by rw [sendPage, htransmit]; exact hturn, ?_⟩
  rw [hpage]
  refine ⟨⟨rfl, rfl, hidle.running, ?_, hidle.ended⟩, rfl, ?_, rfl⟩
  · simp only [hidle.faults, List.tail_nil]
  · simp only [List.append_nil]

/-- The number of pages of `size` bytes. -/
def pageCount (size : ℕ) : ℕ :=
  (size + (BleFirmwareData.programSize - 1)) / BleFirmwareData.programSize

/-- The page loop from any page on: it ends, with the rest of the image in the flash. -/
theorem sendFirmware_spec (env : Env) {image : List UInt8} {fuel n : ℕ} {d : BleFirmwareData}
    {r : Robot} (hat : d.At image n) (hfuel : image.length < fuel + n) (hidle : Idle r)
    (hend : flashStartAddress + image.length ≤ 0xffffffff)
    (hblank : Nor.Blank r.mem (flashStartAddress + n) (flashStartAddress + image.length)) :
    ∃ r', sendFirmware env fuel d (flashStartAddress + n) r = some r' ∧ Idle r' ∧
      r'.mem = write r.mem (flashStartAddress + n) (image.drop n) ∧
      r'.loader.sent
        = r.loader.sent ++ List.replicate (pageCount (image.length - n)) ackBytes ∧
      r'.loader.errCnt = r.loader.errCnt := by
  induction fuel generalizing n d r with
  | zero =>
    have hle := hat.le
    omega
  | succ fuel ih =>
    rcases Nat.lt_or_ge n image.length with hn | hn
    · obtain ⟨k, d', hget, hlt, hle, hsize, hlast, hat'⟩ := hat.getNextChunk_eq_some hn
      have hlen : (copyOfRange image n k).length = k - n := length_copyOfRange hle
      obtain ⟨r1, hsend, hidle1, hmem1, hsent1, herr1⟩ := sendPage_spec env
        (flashStartAddress + n) (copyOfRange image n k) hidle (by omega) (by omega) (by omega)
      have haddr : flashStartAddress + n + (copyOfRange image n k).length = flashStartAddress + k := by
        omega
      have hwrite : r1.mem = write r.mem (flashStartAddress + n) (copyOfRange image n k) := by
        rw [hmem1]
        exact Nor.program_of_blank (hblank.mono (Nat.le_refl _) (by omega))
      have hblank1 : Nor.Blank r1.mem (flashStartAddress + k)
          (flashStartAddress + image.length) := by
        rw [hmem1]
        exact (hblank.mono (by omega) (Nat.le_refl _)).program (.inr (by omega))
      obtain ⟨r', hrun, hidle', hmem', hsent', herr'⟩ := ih hat' (by omega) hidle1 hblank1
      refine ⟨r', ?_, hidle', ?_, ?_, herr'.trans herr1⟩
      · rw [sendFirmware, hget]
        have hack : acknowledged r r1 = true := by
          rw [acknowledged, hsent1, List.drop_left]
          decide
        simp only [hsend, Option.bind_some, haddr, hack, if_true]
        exact hrun
      · -- the page and the rest of the image are written one behind the other
        have hjoin : copyOfRange image n k ++ image.drop k = image.drop n := by
          have hdrop : image.drop k = (image.drop n).drop (k - n) := by
            rw [List.drop_drop, Nat.add_sub_cancel' (Nat.le_of_lt hlt)]
          rw [hdrop, copyOfRange, List.take_append_drop]
        rw [hmem', hwrite, ← haddr, ← write_append, hjoin]
      · have hcount : pageCount (image.length - n) = pageCount (image.length - k) + 1 := by
          unfold pageCount BleFirmwareData.programSize at *
          omega
        rw [hsent', hsent1, hcount, List.replicate_succ, List.append_assoc]
        rfl
    · obtain rfl : n = image.length := Nat.le_antisymm hat.le hn
      refine ⟨r, ?_, hidle, ?_, ?_, rfl⟩
      · rw [sendFirmware, hat.getNextChunk_eq_none]
      · rw [List.drop_length, write_nil]
      · rw [Nat.sub_self]
        exact (List.append_nil _).symm

/-- **The lossless update.**  On an erased range, the image arrives in full: every frame is
accepted, one `OK` for each page is all that is sent, the range holds the image, and nothing
else has changed. -/
theorem lossless (env : Env) {image : List UInt8} {r : Robot}
    (himage : image.length ≤ firmwareLen) (hidle : Idle r)
    (hblank : Nor.Blank r.mem firmwareStart (firmwareStart + image.length)) :
    ∃ r', sendFirmware env (image.length + 1) (.ofImage image) flashStartAddress r = some r' ∧
      r'.loader.sent = r.loader.sent ++ List.replicate (pageCount image.length) ackBytes ∧
      r'.loader.errCnt = r.loader.errCnt ∧
      read r'.mem firmwareStart image.length = image ∧
      ∀ x, x < firmwareStart ∨ firmwareStart + image.length ≤ x → r'.mem x = r.mem x := by
  have hat : (BleFirmwareData.ofImage image).At image 0 := ⟨rfl, Nat.zero_le _, .inl rfl⟩
  have hend : flashStartAddress + image.length ≤ 0xffffffff := by
    unfold firmwareLen at himage
    unfold flashStartAddress
    omega
  obtain ⟨r', hrun, -, hmem, hsent, herr⟩ :=
    sendFirmware_spec env hat (Nat.lt_succ_self _) hidle hend hblank
  have hmem : r'.mem = write r.mem firmwareStart image := hmem
  refine ⟨r', hrun, hsent, herr, ?_, ?_⟩
  · rw [hmem]
    exact read_write_same _ _ _
  · intro x hx
    rw [hmem]
    exact write_outside hx

/-- A robot that has just been connected to, with an erased flash. -/
def erasedRobot : Robot where
  link := ⟨fun _ => 0, 0, false⟩
  loader := freshState fun _ => 0xFF

theorem lossless_erasedRobot : ∃ r',
    sendFirmware idleEnv 3 (.ofImage [0x12, 0x34]) flashStartAddress erasedRobot = some r' ∧
      r'.loader.sent = [ackBytes] ∧ read r'.mem firmwareStart 2 = [0x12, 0x34] := by
  have himage : ([0x12, 0x34] : List UInt8).length ≤ firmwareLen := by decide
  have hidle : Idle erasedRobot := ⟨rfl, rfl, rfl, rfl, rfl⟩
  obtain ⟨r', hrun, hsent, -, hread, -⟩ := lossless idleEnv himage hidle fun _ _ _ => rfl
  exact ⟨r', hrun, hsent, hread⟩

end Ota
