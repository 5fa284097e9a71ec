import LegoTrain.Ota.Erase
import LegoTrain.Upload.Serial

/-!
# What the serial upgrade leaves in the flash

The erase frame clears the slot of the firmware.  The page frames carry the address zero, which
the loader takes as it is: every page is programmed over the first page of the flash, where the
boot loader is, and the slot stays empty.

* `answered_blank` : whatever happens, a session whose frames are all answered with `OK` leaves
  the slot erased;
* `exists_finished` : from a loader that nothing disturbs, there is such a session;
* `serialUpgrade_never` : the serial upgrade puts no image where it belongs.
-/

namespace Upload

open ByteMem Flash Partition PtTableStuff Loader Transition Ota

/-! ## What an `OK` says -/

theorem flashErase_success {d : Device} (startaddr len : ℕ)
    (h : (flashErase d startaddr len).2 = .success) : d.running = true ∧ d.fault = .none := by
  unfold flashErase at h
  split at h
  · rename_i hrun
    refine ⟨hrun, ?_⟩
    cases hf : d.fault with
    | none => rfl
    | error n =>
      rw [hf] at h
      cases h
    | powerLoss n =>
      rw [hf] at h
      cases h
  · cases h

theorem eraseImg_success {s : State} {imgLen : ℕ} (hsent : s.sent = [])
    (h : (eraseImg s imgLen).1.sent = [ackBytes]) :
    s.dev.running = true ∧ s.dev.fault = .none := by
  refine flashErase_success s.iapParam.iapStartAddr imgLen ?_
  by_contra hne
  rw [eraseImg, if_neg hne] at h
  have hmem : ackBytes ∈ (cmdAck { s with
      dev := (flashErase s.dev s.iapParam.iapStartAddr imgLen).1 } flashEraseError).sent := by
    rw [h]
    exact List.mem_singleton.2 rfl
  rcases mem_cmdAck_sent hmem with hin | heq
  · rw [hsent] at hin
    cases hin
  · exact absurd heq (by decide)

/-- The erase frame of the script. -/
def eraseFrame (size : ℕ) : List UInt8 :=
  App.createPayload App.bflbEflashLoaderCmdFlashErase (eraseRange size)

theorem holds_eraseFrame {recvBuf : Mem} {size : ℕ} (h : Holds recvBuf (eraseFrame size))
    (hsize : size < 2 ^ 31) :
    checksumOk recvBuf = true ∧ (recvBuf 0).toNat = cmdFlashErase ∧ cmdLen recvBuf = 8 ∧
      eraseLen recvBuf = size + 1 := by
  obtain ⟨hlen, hel⟩ := holds_eraseRange h (by unfold flashStartAddress; omega)
  exact ⟨holds_checksumOk h (by simp), holds_command h (by decide), hlen, hel⟩

/-- An erase frame that is answered with `OK` has erased the image's part of the slot. -/
theorem onFrame_eraseFrame (env : Env) {l : State} {recvBuf : Mem} {size : ℕ}
    (hsent : l.sent = []) (hstart : l.iapParam.iapStartAddr = firmwareStart)
    (hsize : size ≤ firmwareLen) (hholds : Holds recvBuf (eraseFrame size))
    (hok : (onFrame env l recvBuf).sent = [ackBytes]) :
    Nor.Blank (onFrame env l recvBuf).dev.mem firmwareStart (firmwareStart + size) := by
  have hlt : size < 2 ^ 31 := Nat.lt_of_le_of_lt hsize (by decide)
  obtain ⟨hsum, hcmd, hlen, hel⟩ := holds_eraseFrame hholds hlt
  have hundisturbed : l.dev.running = true ∧ l.dev.fault = .none := by
    obtain ⟨-, hs⟩ := onFrame_dev_sent env l hsum
    rw [hs, hcmd, hlen, cmdProcess, if_neg (by decide), if_pos rfl, cmdEraseFlash,
      if_neg (by decide)] at hok
    exact eraseImg_success (s := { l with
      eflashLoaderError := success
      iapParam := { l.iapParam with
        iapImgLen := hostLen (le (cmdData recvBuf) 0 4) (le (cmdData recvBuf) 4 4) } }) hsent hok
  rw [onFrame_erase env hundisturbed.1 hundisturbed.2 hsum hcmd hlen hel
    (by rw [hstart]; exact sectorEnd_firmware hsize), hstart, sectorStart_firmwareStart]
  have hend := lt_sectorEnd (firmwareStart + size)
  exact (Nor.blank_erase _ _ _).mono (Nat.le_refl _) (by omega)

/-- A frame that keeps out of the slot: a page frame with the address zero, or the reset. -/
def LowFrame (frame : List UInt8) : Prop :=
  (∃ page, page.length ≤ flashPageSize ∧
    frame = App.programOnePageCommandPayload 0 page) ∨ frame = App.systemResetCommandPayload

theorem onFrame_lowFrame (env : Env) (l : State) {recvBuf : Mem} {frame : List UInt8} {x : ℕ}
    (hlow : LowFrame frame) (hholds : Holds recvBuf frame) (hx : firmwareStart ≤ x) :
    (onFrame env l recvBuf).dev.mem x = l.dev.mem x := by
  have hcmd : (recvBuf 0).toNat ≠ cmdFlashErase := by
    rcases hlow with ⟨page, -, rfl⟩ | rfl
    · rw [holds_command hholds (by decide)]
      decide
    · rw [holds_command hholds (by decide)]
      decide
  by_contra hchange
  obtain ⟨-, hfoot⟩ := onFrame_changes hchange
  cases hfoot with
  | erase hcmd' hlen h => exact hcmd hcmd'
  | write hcmd' hlen i hi h =>
    rcases hlow with ⟨page, hpage, rfl⟩ | rfl
    · have hdata : (App.toBytes 0 4 ++ page).length = 4 + page.length := by
        rw [List.length_append, App.length_toBytes]
      have hpage' : page.length ≤ 4096 := hpage
      obtain ⟨haddr, -⟩ := holds_programOnePage hholds (by decide)
      have hcl := holds_cmdLen hholds (by omega)
      rw [haddr, Nat.zero_add, u32_of_lt (by omega)] at h
      unfold firmwareStart at hx
      omega
    · rw [holds_command hholds (by decide)] at hcmd'
      exact absurd hcmd' (by decide)
  | reset hcmd' b hb h =>
    have hend : tableAddress b + sectorSize ≤ firmwareStart := by cases b <;> decide
    omega

/-! ## Whole sessions -/

/-- **What the `OK`s say.**  After the erase frame, the image's part of the slot is erased, and
stays so. -/
theorem answered_blank {env : Env} {l0 l : State} {size : ℕ} {rest frames : List (List UInt8)}
    (hstart : l0.iapParam.iapStartAddr = firmwareStart) (hsize : size ≤ firmwareLen)
    (hlow : ∀ f ∈ rest, LowFrame f) (h : Answered env l0 frames l)
    (hpre : frames <+: eraseFrame size :: rest) :
    l.iapParam.iapStartAddr = firmwareStart ∧
      (frames ≠ [] → Nor.Blank l.dev.mem firmwareStart (firmwareStart + size)) := by
  induction h with
  | start => exact ⟨hstart, fun hne => absurd rfl hne⟩
  | wait h hstep ih =>
    obtain ⟨hdev, hparam, -⟩ := step_nothing rfl hstep
    rw [hdev, hparam]
    exact ih hpre
  | @frame past frame l l' h recvBuf faults hholds hstep hok ih =>
    have hne : frame.length ≠ 0 := by
      intro h0
      have hmem : frame ∈ eraseFrame size :: rest := hpre.subset (by simp)
      rw [List.length_eq_zero_iff] at h0
      rw [h0] at hmem
      rcases List.mem_cons.1 hmem with heq | hmem
      · cases heq
      · rcases hlow [] hmem with ⟨page, -, heq⟩ | heq <;> cases heq
    obtain ⟨haddr, hblank⟩ := ih ((List.prefix_append past [frame]).trans hpre)
    rw [step_frame hne hstep] at hok ⊢
    have htarget := (onFrame_target env { SerialSystem.turn l faults with toCnt := 0 } recvBuf).1
    refine ⟨htarget.trans haddr, fun _ => ?_⟩
    cases past with
    | nil =>
      have hframe : frame = eraseFrame size := (List.cons_prefix_cons.1 hpre).1
      rw [hframe] at hholds
      exact onFrame_eraseFrame env rfl haddr hsize hholds hok
    | cons first past =>
      have hmem : frame ∈ rest := by
        have hrest := (List.cons_prefix_cons.1 hpre).2
        exact hrest.subset (by simp)
      intro x hlo hhi
      rw [onFrame_lowFrame env _ (hlow frame hmem) hholds hlo]
      exact hblank (List.cons_ne_nil first past) x hlo hhi

/-! ## The frames of an image -/

theorem mapM_eq_some {α β : Type} {f : α → Option β} {g : α → β} {l : List α}
    (h : ∀ a ∈ l, f a = some (g a)) : l.mapM f = some (l.map g) := by
  induction l with
  | nil => rfl
  | cons a l ih =>
    rw [List.mapM_cons, h a List.mem_cons_self, ih fun b hb => h b (List.mem_cons_of_mem a hb)]
    rfl

theorem length_of_mem_pages {data page : List UInt8} (h : page ∈ pages data) :
    0 < page.length ∧ page.length ≤ flashPageSize := by
  induction data using pages.induct with
  | case1 data hpos ih =>
    rw [pages, dif_pos hpos] at h
    rcases List.mem_cons.1 h with rfl | h
    · rw [List.length_take]
      exact ⟨Nat.lt_min.2 ⟨by decide, hpos⟩, Nat.min_le_left _ _⟩
    · exact ih h
  | case2 data hpos =>
    rw [pages, dif_neg hpos] at h
    cases h

/-- The frames behind the erase frame. -/
def lowFrames (image : List UInt8) : List (List UInt8) :=
  (pages image).map (App.programOnePageCommandPayload 0) ++ [App.systemResetCommandPayload]

theorem serialFrames_eq {image : List UInt8} (h : image.length ≤ firmwareLen) :
    serialFrames image = some (eraseFrame image.length :: lowFrames image) := by
  have hpages : (pages image).mapM programOnePage
      = some ((pages image).map (App.programOnePageCommandPayload 0)) := by
    refine mapM_eq_some fun page hpage => programOnePage_eq ?_
    exact Nat.lt_of_le_of_lt (length_of_mem_pages hpage).2 (by decide)
  rw [serialFrames, eraseFlash_eq (Nat.lt_of_le_of_lt h (by decide)), hpages,
    systemResetCommand_eq]
  rfl

theorem lowFrame_of_mem {image frame : List UInt8} (h : frame ∈ lowFrames image) :
    LowFrame frame := by
  rcases List.mem_append.1 h with h | h
  · obtain ⟨page, hpage, rfl⟩ := List.mem_map.1 h
    exact .inl ⟨page, (length_of_mem_pages hpage).2, rfl⟩
  · exact .inr (List.mem_singleton.1 h)

theorem LowFrame.scriptFrame {frame : List UInt8} (h : LowFrame frame) : ScriptFrame frame := by
  rcases h with ⟨page, hpage, rfl⟩ | rfl
  · refine .mk cmdFlashWrite (App.toBytes 0 4 ++ page) (.inr (.inr rfl)) ?_ rfl
    rw [List.length_append, App.length_toBytes]
    exact Nat.add_le_add_left hpage 4
  · exact .mk cmdReset (App.toBytes 0 1) (.inl rfl) (by decide) rfl

theorem scriptFrame_of_mem (image : List UInt8) {frame : List UInt8}
    (h : frame ∈ eraseFrame image.length :: lowFrames image) : ScriptFrame frame := by
  rcases List.mem_cons.1 h with rfl | h
  · refine .mk cmdFlashErase (eraseRange image.length) (.inr (.inl rfl)) ?_ rfl
    rw [length_eraseRange]
    decide
  · exact (lowFrame_of_mem h).scriptFrame

/-! ## A session that nothing disturbs -/

/-- The script is about to write the next frame. -/
structure Between (s : SerialSystem) : Prop where
  waiting : s.waiting = false
  exited : s.exited = false
  wire : s.wire = []
  link : s.link.rxBufLen = 0
  response : s.response = []

/-- One frame: it is written, arrives in one piece, is processed, and its answer is read. -/
def exchange (frame : List UInt8) (faults : List Fault) : List SerialEvent :=
  [.write, .irq frame.length, .poll faults, .getResponse]

/-- The state in which the loader processes a frame. -/
def processing (l : State) (faults : List Fault) : State :=
  { SerialSystem.turn l faults with toCnt := 0 }

theorem run_exchange {env : Env} {s : SerialSystem} {frame : List UInt8}
    {commands : List (List UInt8)} (faults : List Fault) (hb : Between s)
    (hcommands : s.commands = frame :: commands) (hf : ScriptFrame frame)
    (hended : s.loader.ended = false) (hrun : s.loader.dev.running = true)
    (hok : ∀ recvBuf, Holds recvBuf frame →
      (onFrame env (processing s.loader faults) recvBuf).sent = [ackBytes]) :
    ∃ recvBuf s', Holds recvBuf frame ∧ run (serialStep env) s (exchange frame faults) = some s' ∧
      Between s' ∧ s'.commands = commands ∧
      s'.loader = onFrame env (processing s.loader faults) recvBuf := by
  obtain ⟨command, data, -, hmax, heq⟩ := id hf
  have hsize : cmdDataMaxLen < 65536 := by decide
  have htotal : frame.length = data.length + 4 := by
    rw [heq, App.length_createPayload, Nat.add_comm]
  have hfield : (frame.drop 2).take 2 = leBytes 2 data.length := by
    rw [heq]
    rfl
  have hne : frame.length ≠ 0 := by omega
  -- the bytes reach the buffer in one piece
  have hargs : frame = (frame.drop 0).take frame.length := by
    rw [List.drop_zero, List.take_length]
  have hrecv := uart0IrqCallback_receiving (uartReceiving_zero frame hb.link) hargs
  rw [Nat.zero_add] at hrecv
  obtain ⟨link, hpoll, hlink⟩ := usartIfReceive_frame hfield htotal (by omega) hrecv rfl hmax
  have hholds : Holds (uart0IrqCallback s.link frame).buf frame := by
    have hbuf := hrecv.buf
    rw [List.take_length] at hbuf
    exact hbuf
  have hstep : Loader.step env (SerialSystem.turn s.loader faults)
      ⟨(uart0IrqCallback s.link frame).buf, frame.length⟩
        = some (onFrame env (processing s.loader faults) (uart0IrqCallback s.link frame).buf) := by
    rw [Loader.step, if_neg (by simp [SerialSystem.turn, hended, hrun]), onRead, if_neg hne]
    rfl
  have hsent := hok _ hholds
  refine ⟨(uart0IrqCallback s.link frame).buf, { s with
    commands := commands
    waiting := false
    wire := []
    link := link
    loader := onFrame env (processing s.loader faults) (uart0IrqCallback s.link frame).buf
    response := [] }, hholds, ?_, ⟨rfl, hb.exited, rfl, hlink, rfl⟩, rfl, rfl⟩
  have hwrite : serialStep env s .write = some { s with
      commands := commands, waiting := true, wire := frame } := by
    rw [serialStep, hcommands]
    simp only [hb.waiting, hb.exited, hb.wire, and_self, if_true, List.nil_append]
  have hirq : serialStep env { s with commands := commands, waiting := true, wire := frame }
      (.irq frame.length) = some { s with
        commands := commands, waiting := true, wire := [], link := uart0IrqCallback s.link frame } := by
    have hle : 0 < frame.length ∧ frame.length ≤ frame.length :=
      ⟨Nat.pos_of_ne_zero hne, Nat.le_refl _⟩
    rw [serialStep, if_pos hle]
    simp only [List.take_length, List.drop_length]
  refine run_cons_eq_some.2 ⟨_, hwrite, run_cons_eq_some.2 ⟨_, hirq, ?_⟩⟩
  have hprocess : serialStep env { s with
      commands := commands, waiting := true, wire := [], link := uart0IrqCallback s.link frame }
      (.poll faults) = some { s with
        commands := commands
        waiting := true
        wire := []
        link := link
        loader := onFrame env (processing s.loader faults) (uart0IrqCallback s.link frame).buf
        response := ackBytes } := by
    rw [serialStep, hpoll]
    simp only [hstep, Option.map_some, hsent, hb.response]
    rfl
  exact run_cons_eq_some.2 ⟨_, hprocess, rfl⟩

/-- The loader in its loop, with the shipped slot of the firmware before it. -/
structure Ready (l : State) : Prop where
  ended : l.ended = false
  running : l.dev.running = true
  start : l.iapParam.iapStartAddr = firmwareStart
  tableIndex : ∃ b : Bool, l.iapParam.inactiveTableIndex = if b then 0 else 1

/-- A frame that a ready loader answers with `OK`, and after which it is ready again. -/
def Served (env : Env) (frame : List UInt8) : Prop :=
  ∀ l recvBuf, Ready l → Holds recvBuf frame →
    (onFrame env (processing l []) recvBuf).sent = [ackBytes] ∧
      Ready (onFrame env (processing l []) recvBuf)

theorem served_eraseFrame (env : Env) {size : ℕ} (hsize : size ≤ firmwareLen) :
    Served env (eraseFrame size) := by
  intro l recvBuf hl hholds
  obtain ⟨hsum, hcmd, hlen, hel⟩ :=
    holds_eraseFrame hholds (Nat.lt_of_le_of_lt hsize (by decide))
  have hend : sectorEnd ((processing l []).iapParam.iapStartAddr + size) < 2 ^ 32 := by
    have hstart : (processing l []).iapParam.iapStartAddr = firmwareStart := hl.start
    rw [hstart]
    exact sectorEnd_firmware hsize
  rw [onFrame_erase env (s := processing l []) hl.running rfl hsum hcmd hlen hel hend]
  exact ⟨rfl, hl.ended, hl.running, hl.start, hl.tableIndex⟩

theorem served_page (env : Env) {page : List UInt8} (hpos : 0 < page.length)
    (hlen : page.length ≤ flashPageSize) :
    Served env (App.programOnePageCommandPayload 0 page) := by
  intro l recvBuf hl hholds
  have hlen' : page.length ≤ 4096 := hlen
  rw [onFrame_program env (s := processing l []) hl.running rfl hholds hpos (by omega) (by omega)]
  exact ⟨rfl, hl.ended, hl.running, hl.start, hl.tableIndex⟩

/-- Frames that are served, one after the other. -/
theorem run_served {env : Env} {frames rest : List (List UInt8)} {s : SerialSystem}
    (hserved : ∀ f ∈ frames, ScriptFrame f ∧ Served env f) (hb : Between s) (hl : Ready s.loader)
    (hcommands : s.commands = frames ++ rest) :
    ∃ es s', run (serialStep env) s es = some s' ∧ Between s' ∧ Ready s'.loader ∧
      s'.commands = rest := by
  induction frames generalizing s with
  | nil => exact ⟨[], s, rfl, hb, hl, hcommands⟩
  | cons frame frames ih =>
    obtain ⟨hf, hs⟩ := hserved frame List.mem_cons_self
    obtain ⟨recvBuf, s', hholds, hrun, hb', hcommands', hloader⟩ := run_exchange [] hb hcommands hf
      hl.ended hl.running fun recvBuf hholds => (hs s.loader recvBuf hl hholds).1
    have hl' : Ready s'.loader := by
      rw [hloader]
      exact (hs s.loader recvBuf hl hholds).2
    obtain ⟨es, t, hes, ht⟩ :=
      ih (fun f hmem => hserved f (List.mem_cons_of_mem frame hmem)) hb' hl' hcommands'
    exact ⟨exchange frame [] ++ es, t, run_trans hrun hes, ht⟩

theorem flashWrite_running {d : Device} (addr : ℕ) (data : List UInt8)
    (h : (flashWrite d addr data).2 = .success) : (flashWrite d addr data).1.running = true := by
  unfold flashWrite at h ⊢
  by_cases hrun : d.running
  · rw [if_pos hrun] at h ⊢
    cases hf : d.fault with
    | none => exact hrun
    | error n =>
      rw [hf] at h
      cases h
    | powerLoss n =>
      rw [hf] at h
      cases h
  · rw [if_neg hrun] at h
    cases h

theorem writeBack_running {d : Device} {addr eraseLen : ℕ} {ptStuff : PtTableStuff}
    {err : PtTableError} (herr : err ≠ .success)
    (h : (writeBack d addr eraseLen ptStuff err).2 = .success) :
    (writeBack d addr eraseLen ptStuff err).1.running = true := by
  unfold writeBack at h ⊢
  generalize flashErase d addr eraseLen = r at h ⊢
  obtain ⟨d', ret⟩ := r
  cases ret with
  | error => exact absurd h herr
  | success =>
    simp only at h ⊢
    have hw := flashWrite_running (d := d') addr (ByteMem.read ptStuff 0 ptTableStuffConfigSize)
    generalize flashWrite d' addr (ByteMem.read ptStuff 0 ptTableStuffConfigSize) = w at h hw ⊢
    obtain ⟨d'', ret⟩ := w
    cases ret with
    | error => cases h
    | success => exact hw rfl

/-- The reset is answered with `OK` when the table is written. -/
theorem onFrame_reset_sent (env : Env) {l : State} {recvBuf : Mem} (hl : Ready l)
    (hholds : Holds recvBuf App.systemResetCommandPayload) :
    (onFrame env (processing l [.none, .none]) recvBuf).sent = [ackBytes] := by
  obtain ⟨b, hb⟩ := hl.tableIndex
  have hrun : (ptTableSetIapPara (processing l [.none, .none]).dev l.iapParam).1.running = true := by
    have herr : PtTableError.falshErase ≠ .success := by decide
    rw [ptTableSetIapPara_eq _ b hb]
    exact writeBack_running herr (writeBack_ok (!b) _ _ hl.running rfl (by decide) (by decide))
  rw [(onFrame_dev_sent env _ (holds_checksumOk hholds (by decide))).2,
    holds_command hholds (by decide)]
  exact cmdAck_success_sent (s := { processing l [.none, .none] with
    dev := (ptTableSetIapPara (processing l [.none, .none]).dev l.iapParam).1 }) hrun

/-! ## The outcome -/

/-- The loader has entered its loop over a table that gives the firmware its shipped slot. -/
structure Shipped (l : State) : Prop where
  enter : ∃ l0, enter l0 = some l
  running : l.dev.running = true
  start : l.iapParam.iapStartAddr = firmwareStart

/-- A session for `image` from the loader `l`, which the script has finished in `s`. -/
def FinishedSession (env : Env) (image : List UInt8) (l : State) (s : SerialSystem) : Prop :=
  ∃ frames link s0 es, serialFrames image = some frames ∧
    SerialSystem.start frames l link = some s0 ∧ run (serialStep env) s0 es = some s ∧ s.Finished

/-- The image is in its slot, and besides the slot only the inactive table copy has changed. -/
structure Upgraded (image : List UInt8) (tableIndex : ℕ) (flash flash' : Mem) : Prop where
  image : read flash' firmwareStart image.length = image
  outside : ∀ x, flash' x ≠ flash x → (firmwareStart ≤ x ∧ x < firmwareStart + firmwareLen) ∨
    ∃ b : Bool, tableIndex = (if b then 1 else 0) ∧ InTableSector b x

/-- Every finished session upgrades the robot. -/
def SerialUpgrades (env : Env) (image : List UInt8) : Prop :=
  ∀ l s, Shipped l → FinishedSession env image l s →
    Upgraded image l.iapParam.inactiveTableIndex l.dev.mem s.mem

theorem Shipped.ready {l : State} (h : Shipped l) : Ready l := by
  obtain ⟨l0, henter⟩ := h.enter
  obtain ⟨b, -, -, -, hindex⟩ := enter_eq_some henter
  refine ⟨?_, h.running, h.start, b, hindex⟩
  unfold Loader.enter at henter
  split at henter
  · cases henter
    rfl
  · cases henter

/-- A session in which nothing goes wrong is finished. -/
theorem exists_finished (env : Env) {image : List UInt8} (hsize : image.length ≤ firmwareLen)
    {l : State} (hl : Shipped l) : ∃ s, FinishedSession env image l s := by
  let link : UartLink := ⟨fun _ _ => 0, 0, 0⟩
  let frames := eraseFrame image.length :: lowFrames image
  let s0 : SerialSystem := ⟨frames, false, false, [], link, l, []⟩
  have hstart : SerialSystem.start frames l link = some s0 := rfl
  have hserved : ∀ f ∈ eraseFrame image.length ::
      (pages image).map (App.programOnePageCommandPayload 0), ScriptFrame f ∧ Served env f := by
    intro f hf
    refine ⟨scriptFrame_of_mem image ?_, ?_⟩
    · rcases List.mem_cons.1 hf with rfl | hf
      · exact List.mem_cons_self
      · exact List.mem_cons_of_mem _ (List.mem_append_left _ hf)
    · rcases List.mem_cons.1 hf with rfl | hf
      · exact served_eraseFrame env hsize
      · obtain ⟨page, hpage, rfl⟩ := List.mem_map.1 hf
        obtain ⟨hpos, hlen⟩ := length_of_mem_pages hpage
        exact served_page env hpos hlen
  have hb : Between s0 := ⟨rfl, rfl, rfl, rfl, rfl⟩
  have hsplit : s0.commands = (eraseFrame image.length ::
      (pages image).map (App.programOnePageCommandPayload 0)) ++ [App.systemResetCommandPayload] :=
    rfl
  obtain ⟨es, s, hrun, hb', hl', hcommands⟩ := run_served hserved hb hl.ready hsplit
  obtain ⟨recvBuf, t, -, hreset, hbt, hempty, -⟩ := run_exchange [.none, .none] hb' hcommands
    (LowFrame.scriptFrame (.inr rfl)) hl'.ended hl'.running
    fun recvBuf hholds => onFrame_reset_sent env hl' hholds
  exact ⟨t, frames, link, s0, es ++ exchange App.systemResetCommandPayload [.none, .none],
    serialFrames_eq hsize, hstart, run_trans hrun hreset, hempty, hbt.waiting, hbt.exited⟩

/-- A finished session leaves the slot erased. -/
theorem finishedSession_blank {env : Env} {image : List UInt8} {l : State} {s : SerialSystem}
    (hsize : image.length ≤ firmwareLen) (hl : Shipped l) (h : FinishedSession env image l s) :
    Nor.Blank s.mem firmwareStart (firmwareStart + image.length) := by
  obtain ⟨frames, link, s0, es, hframes, hstart, hrun, hfinished⟩ := h
  rw [serialFrames_eq hsize] at hframes
  cases hframes
  have hanswered := finished_answered (fun _ => scriptFrame_of_mem _) hstart hrun hfinished
  exact (answered_blank hl.start hsize (fun _ => lowFrame_of_mem) hanswered
    (List.prefix_refl _)).2 (List.cons_ne_nil _ _)

/-- An erased slot holds no image that has another byte than `0xFF`. -/
theorem finishedSession_ne {env : Env} {image : List UInt8} {l : State} {s : SerialSystem} {i : ℕ}
    (hsize : image.length ≤ firmwareLen) (hi : i < image.length) (hbyte : image.getD i 0 ≠ 0xFF)
    (hl : Shipped l) (h : FinishedSession env image l s) :
    read s.mem firmwareStart image.length ≠ image := by
  intro heq
  have hblank := finishedSession_blank hsize hl h (firmwareStart + i) (Nat.le_add_right _ _)
    (by omega)
  rw [read_eq_iff.1 heq i hi] at hblank
  exact hbyte hblank

/-- A table with the firmware entry of the shipped one. -/
def shippedTable : PtTableStuff := tableStuff 0 [slotEntry 0 0x2F000 0x2F000 0xca000]

/-- The loader right after a reset, over the shipped table, has entered its loop. -/
theorem exists_shipped : ∃ l, Shipped l := by
  have hmagic : magicCode shippedTable = bflbPtMagicCode := by decide +kernel
  have hcnt : entryCnt shippedTable ≤ ptEntryMax := by decide +kernel
  have hactive := active_tableFlash hmagic hcnt
  have hget : (ptTableGetIapPara (tableFlash shippedTable) ⟨0, 0, 0, 0, 0⟩).1 = .success := by
    rw [ptTableGetIapPara_eq, hactive]
  obtain ⟨l, henter⟩ : ∃ l, Loader.enter (freshState (tableFlash shippedTable)) = some l :=
    ⟨_, if_pos hget⟩
  obtain ⟨-, heq⟩ := ptStore_eq_some (ptStore_tableFlash hmagic hcnt).1
  have hentries : (ptTable (ptCopy (tableFlash shippedTable) false)).entries
      = [slotEntry 0 0x2F000 0x2F000 0xca000] := by
    have htable : ptTable (ptCopy (tableFlash shippedTable) false) = ptTable shippedTable :=
      (congrArg Prod.snd heq).symm
    rw [htable]
    decide +kernel
  obtain ⟨b, hb, hdev, hslot, -⟩ := enter_eq_some henter
  obtain rfl : b = false := Option.some.inj (hb.symm.trans hactive)
  refine ⟨l, ⟨_, henter⟩, ?_, ?_⟩
  · rw [hdev]
    rfl
  · have h0 := ptEntry_zero hentries
    rw [hslot, inactiveSlot, freshState, h0]
    rfl

theorem not_serialUpgrades (env : Env) {image : List UInt8} {i : ℕ}
    (hsize : image.length ≤ firmwareLen) (hi : i < image.length)
    (hbyte : image.getD i 0 ≠ 0xFF) : ¬ SerialUpgrades env image := by
  intro hup
  obtain ⟨l, hl⟩ := exists_shipped
  obtain ⟨s, hs⟩ := exists_finished env hsize hl
  exact finishedSession_ne hsize hi hbyte hl hs (hup l s hl hs).image

variable {sha256 : List UInt8 → List UInt8} {config : Firmware.Config} {data image : List UInt8}

/-- No file that is sent looks like erased flash. -/
theorem upgradeImage_ne_blank (h : upgradeImage sha256 data config = some image) :
    image.length ≤ firmwareLen ∧ imgLenOffset + 3 < image.length ∧
      image.getD (imgLenOffset + 3) 0 ≠ 0xFF := by
  obtain ⟨hpos, hsize, hbyte⟩ := upgradeImage_spec h
  refine ⟨hsize, Nat.lt_of_lt_of_le (by decide) hpos, ?_⟩
  rw [hbyte]
  decide

/-- The script accepts an empty firmware with the shipped configuration. -/
theorem exists_upgradeImage : ∃ image,
    upgradeImage Firmware.sha256Empty [] (Firmware.configOf Firmware.shipped) = some image := by
  have hheader := Firmware.addBootHeader_eq Firmware.sha256Empty
    (Firmware.denotes_configOf Firmware.shipped)
    (Firmware.shipped_hexInRange.fits Firmware.shipped_decInRange)
    ((Firmware.pyWord_lt_iff Firmware.shipped_decInRange).2 Firmware.shipped_hexInRange.2)
    (show ([] : List UInt8).length < 2 ^ 32 by decide)
  have hsha : ∀ bs, (Firmware.sha256Empty bs).length = 32 := fun _ => rfl
  have hlen := Firmware.length_sealedHeader hsha (Firmware.pyWord Firmware.shipped)
    Firmware.shipped []
  rw [upgradeImage, Firmware.padMod_nil (by decide), hheader, Option.bind_some, List.append_nil,
    Layout.padMod_eq (by decide), hlen]
  refine ⟨_, if_neg ?_⟩
  rw [List.length_append, hlen, List.length_replicate]
  decide

/-- **The serial upgrade.**  For no accepted firmware and configuration does a session that is
finished, with an `OK` to every command, put the image into its slot; and every accepted image has
such sessions. -/
theorem serialUpgrade_never (env : Env) (h : upgradeImage sha256 data config = some image) :
    ¬ SerialUpgrades env image ∧
      ∀ l s, Shipped l → FinishedSession env image l s →
        ¬ Upgraded image l.iapParam.inactiveTableIndex l.dev.mem s.mem := by
  obtain ⟨hsize, hi, hbyte⟩ := upgradeImage_ne_blank h
  exact ⟨not_serialUpgrades env hsize hi hbyte,
    fun l s hl hs hup => finishedSession_ne hsize hi hbyte hl hs hup.image⟩

/-- The empty firmware with the shipped configuration. -/
theorem serialUpgrade_never_empty : ∃ image,
    upgradeImage Firmware.sha256Empty [] (Firmware.configOf Firmware.shipped) = some image ∧
      ¬ SerialUpgrades idleEnv image := by
  obtain ⟨image, h⟩ := exists_upgradeImage
  exact ⟨image, h, (serialUpgrade_never idleEnv h).1⟩

/-- Its file is accepted, and a session with an `OK` to every command leaves the slot without
it. -/
theorem serialUpgrade_fails_empty : ∃ image,
    upgradeImage Firmware.sha256Empty [] (Firmware.configOf Firmware.shipped) = some image ∧
      ∃ l s, Shipped l ∧ FinishedSession idleEnv image l s ∧
        read s.mem firmwareStart image.length ≠ image := by
  obtain ⟨image, h⟩ := exists_upgradeImage
  obtain ⟨hsize, hi, hbyte⟩ := upgradeImage_ne_blank h
  obtain ⟨l, hl⟩ := exists_shipped
  obtain ⟨s, hs⟩ := exists_finished idleEnv hsize hl
  exact ⟨image, h, l, s, hl, hs, finishedSession_ne hsize hi hbyte hl hs⟩

end Upload
