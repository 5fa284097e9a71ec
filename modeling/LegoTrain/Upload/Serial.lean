import LegoTrain.Loader.UartLink
import LegoTrain.Ota.Frames
import LegoTrain.Upload.Script

/-!
# The serial upgrade

The script and the loader on a serial line that loses nothing.  The script writes a frame and
waits for the answer; the line hands the bytes to the interrupt handler in pieces; the loader
looks into its buffer again and again.

* `SerialSystem` and `serialStep` : the two parties and the bytes between them;
* `Answered` : the loader alone, processing frame after frame and answering each with `OK`;
* `SerialInv` : where a frame is;
* `finished_answered` : a session that the script finishes is the loader alone, fed with the
  frames in their order.
-/

namespace Upload

open ByteMem Flash Partition Loader Transition

/-! ## The session -/

/-- The pages of the main loop. -/
def pages (data : List UInt8) : List (List UInt8) :=
  if _h : 0 < data.length then data.take flashPageSize :: pages (data.drop flashPageSize) else []
termination_by data.length
decreasing_by
  rw [List.length_drop]
  unfold flashPageSize
  omega

/-- The frames of a serial upgrade, in the order in which they are written. -/
def serialFrames (image : List UInt8) : Option (List (List UInt8)) :=
  (eraseFlash image.length).bind fun erase =>
    ((pages image).mapM programOnePage).bind fun programs =>
      systemResetCommand.map fun reset => erase :: (programs ++ [reset])

/-- The bytes of the handshake. -/
def handshakeCommand : List UInt8 := (List.replicate 8 [0x55, 0x55, 0x55, 0x55]).flatten

/-- The script, the loader, and the bytes between them. -/
structure SerialSystem where
  /-- the frames that the script has still to write -/
  commands : List (List UInt8)
  /-- the script is in `get_response` -/
  waiting : Bool
  /-- the script has left with an error -/
  exited : Bool
  /-- bytes on their way to the loader -/
  wire : List UInt8
  link : UartLink
  loader : State
  /-- bytes on their way to the script -/
  response : List UInt8

inductive SerialEvent
  /-- `ser.write(command)` -/
  | write
  /-- the interrupt handler gets the `n` oldest bytes -/
  | irq (n : ℕ)
  /-- a pass of the receive loop; a frame is processed, while `faults` befall the flash -/
  | poll (faults : List Fault)
  /-- the receive loop has waited in vain -/
  | recvTimeout
  /-- `get_response` reads the answer -/
  | getResponse
  /-- `get_response` has waited in vain -/
  | noResponse

namespace SerialSystem

/-- The loader as it takes up a frame. -/
def turn (l : State) (faults : List Fault) : State :=
  { l with dev := { l.dev with faults := faults }, sent := [] }

/-- After the handshake, when the buffers are empty, the script has its frames before it. -/
def start (frames : List (List UInt8)) (l : State) (link : UartLink) : Option SerialSystem :=
  (uartHandshakePoll link handshakeCommand).map fun link => {
    commands := frames
    waiting := false
    exited := false
    wire := []
    link := link
    loader := l
    response := [] }

/-- The script is through, and every answer was an `OK`. -/
def Finished (s : SerialSystem) : Prop := s.commands = [] ∧ s.waiting = false ∧ s.exited = false

/-- The flash array of the robot. -/
def mem (s : SerialSystem) : Mem := s.loader.dev.mem

end SerialSystem

/-- The session, one event at a time. -/
def serialStep (env : Env) (s : SerialSystem) : SerialEvent → Option SerialSystem
  | .write =>
    match s.commands with
    | [] => none
    | command :: commands =>
      if s.waiting = false ∧ s.exited = false then
        some { s with commands := commands, waiting := true, wire := s.wire ++ command }
      else none
  | .irq n =>
    if 0 < n ∧ n ≤ s.wire.length then
      some { s with link := uart0IrqCallback s.link (s.wire.take n), wire := s.wire.drop n }
    else none
  | .poll faults =>
    match usartIfReceive s.link with
    | (link, none) => some { s with link := link }
    | (link, some r) => (Loader.step env (SerialSystem.turn s.loader faults) r).map fun l =>
        { s with link := link, loader := l, response := s.response ++ l.sent.flatten }
  | .recvTimeout => (Loader.step env s.loader ⟨fun _ => 0, 0⟩).map fun l => { s with loader := l }
  | .getResponse =>
    if s.waiting then
      match s.response with
      | [] => none
      | b :: rest =>
        -- of the second byte, only the arrival matters
        if b = 0x4F then some { s with waiting := false, response := rest.drop 1 }
        else some { s with waiting := false, exited := true, response := rest }
    else none
  | .noResponse => if s.waiting then some { s with waiting := false, exited := true } else none

/-! ## The loader alone -/

/-- The loader has processed `frames`, each answered with `OK`, and has become `l`.  It may have
waited in vain in between. -/
inductive Answered (env : Env) (l0 : State) : List (List UInt8) → State → Prop
  | start : Answered env l0 [] l0
  | wait {frames l l'} (h : Answered env l0 frames l)
      (hstep : Loader.step env l ⟨fun _ => 0, 0⟩ = some l') : Answered env l0 frames l'
  | frame {frames frame l l'} (h : Answered env l0 frames l) (recvBuf : Mem)
      (faults : List Fault) (hholds : Ota.Holds recvBuf frame)
      (hstep : Loader.step env (SerialSystem.turn l faults) ⟨recvBuf, frame.length⟩ = some l')
      (hok : l'.sent = [ackBytes]) : Answered env l0 (frames ++ [frame]) l'

/-- The frames of the script: a reset, an erase or a write that fits the buffer. -/
inductive ScriptFrame (frame : List UInt8) : Prop
  | mk (command : ℕ) (data : List UInt8)
      (hcommand : command = cmdReset ∨ command = cmdFlashErase ∨ command = cmdFlashWrite)
      (hlen : data.length ≤ cmdDataMaxLen) (h : frame = App.createPayload command data)

/-- A command has sent at most one acknowledgement. -/
def OneAck (s s' : State) : Prop :=
  s'.sent = s.sent ∨ s'.sent = s.sent ++ [ackBytes] ∨
    ∃ result, s'.sent = s.sent ++ [nackBytes result]

theorem oneAck_ifWrite_ack (s : State) : OneAck s (ifWrite s ackBytes) := by
  unfold ifWrite
  split
  · exact .inr (.inl rfl)
  · exact .inl rfl

theorem oneAck_ifWrite_nack (s : State) (result : ℕ) : OneAck s (ifWrite s (nackBytes result)) := by
  unfold ifWrite
  split
  · exact .inr (.inr ⟨result, rfl⟩)
  · exact .inl rfl

theorem oneAck_cmdAck (s : State) (result : ℕ) : OneAck s (cmdAck s result) := by
  unfold cmdAck
  split
  · exact oneAck_ifWrite_ack s
  · exact oneAck_ifWrite_nack s result

theorem oneAck_writeImg (s : State) (addr : ℕ) (data : List UInt8) :
    OneAck s (writeImg s addr data).1 := by
  unfold writeImg
  split
  · exact oneAck_cmdAck { s with dev := (flashWrite s.dev addr data).1 } success
  · exact oneAck_cmdAck { s with dev := (flashWrite s.dev addr data).1,
                                 eflashLoaderError := flashWriteError } flashWriteError

theorem oneAck_cmdProcess (env : Env) (s : State) {command : ℕ} (data : Mem) (len : ℕ)
    (hcommand : command = cmdReset ∨ command = cmdFlashErase ∨ command = cmdFlashWrite) :
    OneAck s (cmdProcess env s command data len).1 := by
  rcases hcommand with rfl | rfl | rfl
  · exact oneAck_cmdAck { s with dev := (ptTableSetIapPara s.dev s.iapParam).1 } success
  · rw [cmdProcess, if_neg (by decide), if_pos rfl, cmdEraseFlash]
    split
    · exact oneAck_cmdAck s _
    · simp only [eraseImg]
      exact oneAck_cmdAck { s with
        dev := (flashErase s.dev s.iapParam.iapStartAddr (hostLen (le data 0 4) (le data 4 4))).1
        eflashLoaderError := success
        iapParam := { s.iapParam with iapImgLen := hostLen (le data 0 4) (le data 4 4) } } _
  · rw [cmdProcess, if_neg (by decide), if_neg (by decide), if_pos rfl, cmdWriteFlash]
    split
    · exact oneAck_cmdAck s _
    split
    · exact oneAck_writeImg s _ _
    · exact oneAck_cmdAck s _

/-- A frame of the script is answered at most once. -/
theorem oneAck_onFrame (env : Env) (s : State) {recvBuf : Mem} {frame : List UInt8}
    (hf : ScriptFrame frame) (hholds : Ota.Holds recvBuf frame) :
    OneAck s (onFrame env s recvBuf) := by
  obtain ⟨command, data, hcommand, -, rfl⟩ := hf
  have hlt : command < 256 := by
    rcases hcommand with rfl | rfl | rfl <;> decide
  have hcmd := Ota.holds_command hholds hlt
  have hproc := oneAck_cmdProcess env s (cmdData recvBuf) (cmdLen recvBuf) hcommand
  unfold onFrame
  split
  · rw [hcmd]
    simp only
    split
    · exact hproc
    · exact hproc
  · exact oneAck_ifWrite_nack s _

/-! ## Where a frame is -/

/-- The invariant of a session over `frames`, for the script that has not left. -/
inductive SerialInv (env : Env) (l0 : State) (frames : List (List UInt8)) (s : SerialSystem) : Prop
  /-- between two frames -/
  | between (past : List (List UInt8)) (hframes : frames = past ++ s.commands)
      (hwaiting : s.waiting = false) (hwire : s.wire = []) (hlink : s.link.rxBufLen = 0)
      (hresponse : s.response = []) (hloader : Answered env l0 past s.loader)
  /-- `n` bytes of a frame have arrived -/
  | sending (past : List (List UInt8)) (frame : List UInt8) (n : ℕ)
      (hframes : frames = past ++ frame :: s.commands) (hwaiting : s.waiting = true)
      (hn : n ≤ frame.length) (hwire : s.wire = frame.drop n)
      (hlink : UartReceiving frame n s.link) (hresponse : s.response = [])
      (hloader : Answered env l0 past s.loader)
  /-- the loader has answered with `OK` -/
  | ok (past : List (List UInt8)) (frame : List UInt8)
      (hframes : frames = past ++ frame :: s.commands) (hwaiting : s.waiting = true)
      (hwire : s.wire = []) (hlink : s.link.rxBufLen = 0) (hresponse : s.response = ackBytes)
      (hloader : Answered env l0 (past ++ [frame]) s.loader)
  /-- the loader has not answered with `OK`, and never will -/
  | failed (hwaiting : s.waiting = true) (hwire : s.wire = []) (hlink : s.link.rxBufLen = 0)
      (hresponse : ∀ rest, s.response ≠ 0x4F :: rest)
  /-- the script has left -/
  | exited (h : s.exited = true)

variable {env : Env} {l0 : State} {frames : List (List UInt8)} {s s' : SerialSystem}

theorem usartIfReceive_empty {l : UartLink} (h : l.rxBufLen = 0) : usartIfReceive l = (l, none) := by
  rw [usartIfReceive, if_neg (by omega)]

theorem serialInv_write (h : SerialInv env l0 frames s) (hs : serialStep env s .write = some s') :
    SerialInv env l0 frames s' := by
  rw [serialStep] at hs
  split at hs
  · cases hs
  rename_i command commands hcommands
  split at hs
  · rename_i hready
    cases hs
    cases h with
    | between past hframes hwaiting hwire hlink hresponse hloader =>
      rw [hcommands] at hframes
      refine .sending past command 0 hframes rfl (Nat.zero_le _) ?_
        (uartReceiving_zero command hlink) hresponse hloader
      simp only [hwire]
      rfl
    | sending past frame n hframes hwaiting hn hwire hlink hresponse hloader =>
      rw [hready.1] at hwaiting
      cases hwaiting
    | ok past frame hframes hwaiting hwire hlink hresponse hloader =>
      rw [hready.1] at hwaiting
      cases hwaiting
    | failed hwaiting hwire hlink hresponse =>
      rw [hready.1] at hwaiting
      cases hwaiting
    | exited h => exact .exited h
  · cases hs

theorem serialInv_irq {n : ℕ} (h : SerialInv env l0 frames s)
    (hs : serialStep env s (.irq n) = some s') : SerialInv env l0 frames s' := by
  rw [serialStep] at hs
  split at hs
  · rename_i hn
    have hne : s.wire ≠ [] := by
      intro hwire
      rw [hwire] at hn
      exact absurd hn.2 (Nat.not_le.2 hn.1)
    cases hs
    cases h with
    | between past hframes hwaiting hwire hlink hresponse hloader => exact absurd hwire hne
    | sending past frame m hframes hwaiting hm hwire hlink hresponse hloader =>
      have hlen : (s.wire.take n).length = n := List.length_take_of_le hn.2
      have hargs : s.wire.take n = (frame.drop m).take (s.wire.take n).length := by
        rw [hlen, hwire]
      have hle : m + n ≤ frame.length := by
        have hwlen := hn.2
        rw [hwire, List.length_drop] at hwlen
        omega
      have hnext := uart0IrqCallback_receiving hlink hargs
      rw [hlen] at hnext
      refine .sending past frame (m + n) hframes hwaiting hle ?_ hnext hresponse hloader
      simp only [hwire, List.drop_drop]
    | ok past frame hframes hwaiting hwire hlink hresponse hloader => exact absurd hwire hne
    | failed hwaiting hwire hlink hresponse => exact absurd hwire hne
    | exited h => exact .exited h
  · cases hs

/-- The last byte of a frame is there: the loader processes it. -/
theorem serialInv_frame {past : List (List UInt8)} {frame : List UInt8} {faults : List Fault}
    {link : UartLink} {recvBuf : Mem} {l : State} (hf : ScriptFrame frame)
    (hframes : frames = past ++ frame :: s.commands) (hwaiting : s.waiting = true)
    (hwire : s.wire = []) (hlink : link.rxBufLen = 0) (hresponse : s.response = [])
    (hloader : Answered env l0 past s.loader) (hholds : Ota.Holds recvBuf frame)
    (hstep : Loader.step env (SerialSystem.turn s.loader faults) ⟨recvBuf, frame.length⟩ = some l) :
    SerialInv env l0 frames
      { s with link := link, loader := l, response := s.response ++ l.sent.flatten } := by
  have hack : OneAck (SerialSystem.turn s.loader faults) l := by
    obtain ⟨command, data, -, -, hframe⟩ := id hf
    have hlen : frame.length ≠ 0 := by
      rw [hframe, App.length_createPayload]
      omega
    rw [step_frame hlen hstep]
    exact oneAck_onFrame env { SerialSystem.turn s.loader faults with toCnt := 0 } hf hholds
  rcases hack with hsent | hsent | ⟨result, hsent⟩
  · refine .failed hwaiting hwire hlink ?_
    intro rest heq
    simp only [hresponse, hsent, SerialSystem.turn] at heq
    cases heq
  · refine .ok past frame hframes hwaiting hwire hlink ?_ (.frame hloader recvBuf faults hholds hstep hsent)
    simp only [hresponse, hsent, SerialSystem.turn]
    rfl
  · refine .failed hwaiting hwire hlink ?_
    intro rest heq
    simp only [hresponse, hsent, SerialSystem.turn] at heq
    cases heq

theorem serialInv_poll {faults : List Fault} (hf : ∀ f ∈ frames, ScriptFrame f)
    (h : SerialInv env l0 frames s) (hs : serialStep env s (.poll faults) = some s') :
    SerialInv env l0 frames s' := by
  have hempty : s.link.rxBufLen = 0 → s' = s := by
    intro hlink
    rw [serialStep, usartIfReceive_empty hlink] at hs
    exact (Option.some.inj hs).symm
  cases h with
  | between past hframes hwaiting hwire hlink hresponse hloader =>
    rw [hempty hlink]
    exact .between past hframes hwaiting hwire hlink hresponse hloader
  | sending past frame n hframes hwaiting hn hwire hlink hresponse hloader =>
    have hframe : ScriptFrame frame := hf frame (by rw [hframes]; simp)
    obtain ⟨command, data, -, hmax, heq⟩ := id hframe
    have hsize : cmdDataMaxLen < 65536 := by decide
    have htotal : frame.length = data.length + 4 := by
      rw [heq, App.length_createPayload, Nat.add_comm]
    have hlen : (frame.drop 2).take 2 = leBytes 2 data.length := by
      rw [heq]
      rfl
    rw [serialStep] at hs
    by_cases hlast : n = frame.length
    · obtain ⟨link, hrecv, hlink'⟩ := usartIfReceive_frame hlen htotal (by omega) hlink hlast hmax
      rw [hrecv] at hs
      obtain ⟨l, hstep, rfl⟩ := Option.map_eq_some_iff.1 hs
      have hholds : Ota.Holds s.link.buf frame := by
        have hbuf := hlink.buf
        rw [hlast, List.take_length] at hbuf
        exact hbuf
      rw [hlast, List.drop_length] at hwire
      exact serialInv_frame hframe hframes hwaiting hwire hlink' hresponse hloader hholds hstep
    · rw [usartIfReceive_wait hlen htotal (by omega) hlink (by omega)] at hs
      cases hs
      exact .sending past frame n hframes hwaiting hn hwire hlink hresponse hloader
  | ok past frame hframes hwaiting hwire hlink hresponse hloader =>
    rw [hempty hlink]
    exact .ok past frame hframes hwaiting hwire hlink hresponse hloader
  | failed hwaiting hwire hlink hresponse =>
    rw [hempty hlink]
    exact .failed hwaiting hwire hlink hresponse
  | exited h =>
    rw [serialStep] at hs
    split at hs
    · cases hs
      exact .exited h
    · obtain ⟨l, -, rfl⟩ := Option.map_eq_some_iff.1 hs
      exact .exited h

theorem serialInv_recvTimeout (h : SerialInv env l0 frames s)
    (hs : serialStep env s .recvTimeout = some s') : SerialInv env l0 frames s' := by
  rw [serialStep] at hs
  obtain ⟨l, hstep, rfl⟩ := Option.map_eq_some_iff.1 hs
  cases h with
  | between past hframes hwaiting hwire hlink hresponse hloader =>
    exact .between past hframes hwaiting hwire hlink hresponse (.wait hloader hstep)
  | sending past frame n hframes hwaiting hn hwire hlink hresponse hloader =>
    exact .sending past frame n hframes hwaiting hn hwire hlink hresponse (.wait hloader hstep)
  | ok past frame hframes hwaiting hwire hlink hresponse hloader =>
    exact .ok past frame hframes hwaiting hwire hlink hresponse (.wait hloader hstep)
  | failed hwaiting hwire hlink hresponse => exact .failed hwaiting hwire hlink hresponse
  | exited h => exact .exited h

theorem serialInv_getResponse (h : SerialInv env l0 frames s)
    (hs : serialStep env s .getResponse = some s') : SerialInv env l0 frames s' := by
  rw [serialStep] at hs
  split at hs
  rotate_left
  · cases hs
  split at hs
  · cases hs
  rename_i b rest hresp
  split at hs
  rotate_left
  · cases hs
    exact .exited rfl
  rename_i hb
  cases hs
  cases h with
  | between past hframes hwaiting hwire hlink hresponse hloader =>
    rw [hresponse] at hresp
    cases hresp
  | sending past frame n hframes hwaiting hn hwire hlink hresponse hloader =>
    rw [hresponse] at hresp
    cases hresp
  | ok past frame hframes hwaiting hwire hlink hresponse hloader =>
    rw [hresponse] at hresp
    cases hresp
    refine .between (past ++ [frame]) ?_ rfl hwire hlink rfl hloader
    rw [hframes, List.append_assoc]
    rfl
  | failed hwaiting hwire hlink hresponse =>
    rw [hb] at hresp
    exact absurd hresp (hresponse rest)
  | exited h => exact .exited h

/-- Every step keeps the invariant. -/
theorem serialInv_step {e : SerialEvent} (hf : ∀ f ∈ frames, ScriptFrame f)
    (h : SerialInv env l0 frames s) (hs : serialStep env s e = some s') :
    SerialInv env l0 frames s' := by
  cases e with
  | write => exact serialInv_write h hs
  | irq n => exact serialInv_irq h hs
  | poll faults => exact serialInv_poll hf h hs
  | recvTimeout => exact serialInv_recvTimeout h hs
  | getResponse => exact serialInv_getResponse h hs
  | noResponse =>
    rw [serialStep] at hs
    split at hs
    · cases hs
      exact .exited rfl
    · cases hs

theorem serialInv_start {link : UartLink} (hs : SerialSystem.start frames l0 link = some s) :
    SerialInv env l0 frames s := by
  obtain ⟨link', hpoll, rfl⟩ := Option.map_eq_some_iff.1 hs
  unfold uartHandshakePoll at hpoll
  split at hpoll
  · cases hpoll
    exact .between [] rfl rfl rfl rfl rfl .start
  · cases hpoll

/-- **The serial line is transparent.**  In a session that the script finishes, the loader has
processed the frames of the script in their order, and has answered each with `OK`. -/
theorem finished_answered {link : UartLink} {s0 : SerialSystem} {es : List SerialEvent}
    (hf : ∀ f ∈ frames, ScriptFrame f) (hstart : SerialSystem.start frames l0 link = some s0)
    (hrun : run (serialStep env) s0 es = some s) (hfinished : s.Finished) :
    Answered env l0 frames s.loader := by
  have hinv : SerialInv env l0 frames s := run_inv' (P := SerialInv env l0 frames)
    (fun _ _ _ h hs => serialInv_step hf h hs) (serialInv_start hstart) hrun
  obtain ⟨hcommands, hwaiting, hexited⟩ := hfinished
  cases hinv with
  | between past hframes hw hwire hlink hresponse hloader =>
    rw [hcommands, List.append_nil] at hframes
    rw [hframes]
    exact hloader
  | sending past frame n hframes hw hn hwire hlink hresponse hloader =>
    rw [hwaiting] at hw
    cases hw
  | ok past frame hframes hw hwire hlink hresponse hloader =>
    rw [hwaiting] at hw
    cases hw
  | failed hw hwire hlink hresponse =>
    rw [hwaiting] at hw
    cases hw
  | exited h =>
    rw [hexited] at h
    cases h

end Upload
