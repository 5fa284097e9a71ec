import LegoTrain.Lib.Transition
import LegoTrain.Loader.UartLink

/-!
# Reception over the serial link

The interrupt handler appends whatever comes in, and the receive task looks at the buffer
every ten milliseconds.  The handler can run between any two steps of the task.

* `uartStep` : a run of the handler, or a step of the task;
* `Orderly` : no more comes in than the buffer takes, nothing while a frame is being handed
  over, and nothing is waiting when the time of a call is over;
* `uartReception_run` : then every store is within its buffer, the calls return the frames of
  the line in their order, and a call that returns nothing leaves a link that recovers;
* `recovers_iff` : a link recovers exactly when its buffer is empty;
* `uartReception_overflow` : a frame that the handler writes past the end of the buffer.
-/

namespace Loader

open ByteMem Transition

/-- `BFLB_EFLASH_LOADER_IF_UART_RX_TIMEOUT`. -/
def ifUartRxTimeout : UInt16 := 8000

/-! ## The handler and the task -/

/-- Where the receive task is.  `buf` is the index of the buffer that the call looks at. -/
inductive UartPc
  /-- outside of `bflb_eflash_loader_usart_if_receive` -/
  | idle
  /-- at the head of its loop -/
  | look (buf : ℕ) (timeout : UInt16)
  /-- in `vTaskDelay` -/
  | delay (buf : ℕ) (timeout : UInt16)
  /-- the frame is complete, and `g_rx_buf_index` is about to change -/
  | complete (buf datalen : ℕ)
  /-- `g_rx_buf_len` is about to be cleared -/
  | flipped (buf datalen : ℕ)
  deriving DecidableEq, Repr

/-- What a call has returned, and the link as it has left it. -/
structure UartReturn where
  frame : Option (List UInt8)
  link : UartLink

/-- A store of the handler. -/
structure UartStore where
  /-- `g_rx_buf_index` -/
  index : ℕ
  /-- `g_rx_buf_len` -/
  offset : ℕ
  size : ℕ
  deriving DecidableEq, Repr

/-- The link, its task and the line. -/
structure UartSystem where
  link : UartLink
  pc : UartPc
  /-- the bytes that have come in -/
  arrived : List UInt8
  returns : List UartReturn
  stores : List UartStore

/-- What happens next. -/
inductive UartEvent
  /-- `uart0_irq_callback` is called with what the UART has received -/
  | irq (args : List UInt8)
  /-- the receive task goes on -/
  | task
  deriving DecidableEq, Repr

/-- A call returns. -/
def UartSystem.finish (s : UartSystem) (link : UartLink) (frame : Option (List UInt8)) :
    UartSystem :=
  { s with link := link, pc := .idle, returns := s.returns ++ [⟨frame, link⟩] }

/-- The next step of `bflb_eflash_loader_usart_if_receive`. -/
def receiveStep (s : UartSystem) : UartSystem :=
  match s.pc with
  | .idle => { s with pc := .look s.link.rxBufIndex ifUartRxTimeout }
  | .look buf timeout =>
    if 4 ≤ s.link.rxBufLen ∧ s.link.rxBufLen = cmdLen (s.link.readbuf buf) + 4 then
      { s with pc := .complete buf (cmdLen (s.link.readbuf buf)) }
    else { s with pc := .delay buf timeout }
  | .delay buf timeout =>
    if timeout - 10 = 0 then s.finish s.link none
    else { s with pc := .look buf (timeout - 10) }
  | .complete buf datalen =>
    { s with
      link := { s.link with rxBufIndex := (s.link.rxBufIndex + 1) % 2 }
      pc := .flipped buf datalen }
  | .flipped buf datalen =>
    s.finish { s.link with rxBufLen := 0 }
      (if datalen ≤ cmdDataMaxLen then some (read (s.link.readbuf buf) 0 (datalen + 4)) else none)

/-- One step. -/
def uartStep (s : UartSystem) : UartEvent → Option UartSystem
  | .irq args => some { s with
      link := uart0IrqCallback s.link args
      arrived := s.arrived ++ args
      stores := s.stores ++ [⟨s.link.rxBufIndex, s.link.rxBufLen, args.length⟩] }
  | .task => some (receiveStep s)

/-- No call has been made yet. -/
def UartSystem.start (link : UartLink) : UartSystem := ⟨link, .idle, [], [], []⟩

/-- The link after `bflb_eflash_loader_uart_handshake_poll`. -/
def UartLink.Fresh (l : UartLink) : Prop := l.rxBufIndex < 2 ∧ l.rxBufLen = 0

/-- The bytes that come in during the events. -/
def arrivals : List UartEvent → List UInt8
  | [] => []
  | .irq args :: es => args ++ arrivals es
  | .task :: es => arrivals es

theorem arrived_run {s t : UartSystem} {es : List UartEvent} (h : run uartStep s es = some t) :
    t.arrived = s.arrived ++ arrivals es := by
  induction es generalizing s with
  | nil =>
    cases h
    simp [arrivals]
  | cons e es ih =>
    obtain ⟨s', hs', h⟩ := run_cons_eq_some.1 h
    rw [ih h]
    cases e with
    | irq args =>
      cases hs'
      simp [arrivals]
    | task =>
      cases hs'
      simp only [arrivals]
      congr 1
      unfold receiveStep UartSystem.finish
      cases s.pc <;> simp only <;> split <;> rfl

/-- Without interrupts in between, the steps of the task are a pass of `usartIfReceive`. -/
theorem receive_steps {s : UartSystem} {timeout : UInt16} {l : UartLink} {r : Received}
    (hpc : s.pc = .look s.link.rxBufIndex timeout) (h : usartIfReceive s.link = (l, some r)) :
    run uartStep s [.task, .task, .task] = some (s.finish l
      (if r.totalLen ≠ 0 then some (read r.recvBuf 0 r.totalLen) else none)) := by
  unfold usartIfReceive at h
  split at h
  · rename_i hcomplete
    cases h
    have hlook : receiveStep s = { s with
        pc := .complete s.link.rxBufIndex (cmdLen s.link.buf) } := by
      simp only [receiveStep, hpc]
      exact if_pos hcomplete
    show some (receiveStep (receiveStep (receiveStep s))) = _
    rw [hlook]
    by_cases hmax : cmdLen (s.link.readbuf s.link.rxBufIndex) ≤ cmdDataMaxLen <;>
      simp [receiveStep, hmax, UartSystem.finish, UartLink.buf]
  · cases h

/-! ## Frames -/

/-- A byte string that is as long as its header says. -/
def IsFrame (f : List UInt8) : Prop :=
  4 ≤ f.length ∧ f.length = leNat ((f.drop 2).take 2) + 4

instance (f : List UInt8) : Decidable (IsFrame f) := inferInstanceAs (Decidable (_ ∧ _))

/-- Frames do not begin with other frames. -/
theorem IsFrame.eq_of_append {f g rest : List UInt8} (hf : IsFrame f) (hg : IsFrame g)
    (h : g ++ rest <+: f) : g = f ∧ rest = [] := by
  have hpre : g <+: f := (List.prefix_append g rest).trans h
  have hheader : (g.drop 2).take 2 = (f.drop 2).take 2 := by
    obtain ⟨tail, rfl⟩ := hpre
    have h4 := hg.1
    rw [List.drop_append_of_le_length (by omega), List.take_append_of_le_length]
    simp only [List.length_drop]
    omega
  have hlen : g.length = f.length := by
    rw [hg.2, hf.2, hheader]
  have hrest := h.length_le
  simp only [List.length_append] at hrest
  exact ⟨hpre.eq_of_length hlen, List.eq_nil_of_length_eq_zero (by omega)⟩

/-- A full buffer is a frame. -/
theorem isFrame_read {m : Mem} {datalen : ℕ} (h : cmdLen m = datalen) :
    IsFrame (read m 0 (datalen + 4)) := by
  have hheader : ((read m 0 (datalen + 4)).drop 2).take 2 = read m (0 + 2) 2 :=
    read_sub (by omega)
  refine ⟨by simp, ?_⟩
  rw [hheader, length_read, ← h]
  rfl

/-- The length field of a frame in a buffer. -/
theorem cmdLen_of_isFrame {m : Mem} {n : ℕ} (h : IsFrame (read m 0 n)) :
    4 ≤ n ∧ n = cmdLen m + 4 := by
  obtain ⟨h4, hlen⟩ := h
  rw [length_read] at h4 hlen
  rw [read_sub (by omega)] at hlen
  exact ⟨h4, hlen⟩

/-! ## What the buffers hold -/

/-- The length of the frame that is being handed over. -/
def UartPc.datalen : UartPc → Option ℕ
  | .complete _ datalen | .flipped _ datalen => some datalen
  | _ => none

/-- The call is about to give up. -/
def UartPc.timeOver : UartPc → Bool
  | .delay _ timeout => timeout - 10 = 0
  | _ => false

namespace UartSystem

/-- The buffer that the task looks at. -/
def buf (s : UartSystem) : ℕ :=
  match s.pc with
  | .idle => s.link.rxBufIndex
  | .look buf _ | .delay buf _ | .complete buf _ | .flipped buf _ => buf

/-- What is in it. -/
def held (s : UartSystem) : List UInt8 := read (s.link.readbuf s.buf) 0 s.link.rxBufLen

/-- The frames that have been returned. -/
def frames (s : UartSystem) : List (List UInt8) := s.returns.filterMap UartReturn.frame

/-- The bytes of the line behind them. -/
def unread (s : UartSystem) : List UInt8 := s.arrived.drop s.frames.flatten.length

end UartSystem

/-- A store is within the buffer that `g_rx_buf_index` selects. -/
def UartStore.Inside (st : UartStore) : Prop :=
  st.index < 2 ∧ st.offset + st.size ≤ readbufSize

/-- The line is what has been returned and what the buffer holds. -/
structure Tracks (s : UartSystem) : Prop where
  index : s.link.rxBufIndex < 2
  filling : s.pc.datalen = none → s.buf = s.link.rxBufIndex
  arrived : s.arrived = s.frames.flatten ++ s.held
  framed : ∀ f ∈ s.frames, IsFrame f
  len : s.link.rxBufLen ≤ readbufSize
  full : ∀ datalen, s.pc.datalen = some datalen →
    cmdLen (s.link.readbuf s.buf) = datalen ∧ s.link.rxBufLen = datalen + 4
  stored : ∀ st ∈ s.stores, st.Inside

theorem tracks_start {l : UartLink} (h : l.Fresh) : Tracks (.start l) where
  index := h.1
  filling _ := rfl
  arrived := by
    show [] = read _ 0 l.rxBufLen
    rw [h.2]
    rfl
  framed := by simp [UartSystem.start, UartSystem.frames]
  len := by
    show l.rxBufLen ≤ _
    rw [h.2]
    exact Nat.zero_le _
  full := by simp [UartSystem.start, UartPc.datalen]
  stored := by simp [UartSystem.start]

section Step

variable {s t : UartSystem}

theorem length_held (s : UartSystem) : s.held.length = s.link.rxBufLen := length_read _ _ _

theorem Tracks.unread_eq (h : Tracks s) : s.unread = s.held := by
  rw [UartSystem.unread, h.arrived, List.drop_left]

/-- The handler appends to what the buffer holds. -/
theorem tracks_irq (h : Tracks s) {args : List UInt8}
    (hfit : s.unread.length + args.length ≤ readbufSize)
    (hquiet : s.pc.datalen.isSome → args = []) (hstep : uartStep s (.irq args) = some t) :
    Tracks t := by
  cases hstep
  rw [h.unread_eq, length_held] at hfit
  have hstored : ∀ st ∈ s.stores ++ [⟨s.link.rxBufIndex, s.link.rxBufLen, args.length⟩],
      st.Inside := by
    intro st hst
    rcases List.mem_append.1 hst with hst | hst
    · exact h.stored st hst
    · cases List.mem_singleton.1 hst
      exact ⟨h.index, hfit⟩
  cases hpc : s.pc.datalen with
  | some datalen =>
    have hnil : args = [] := hquiet (by rw [hpc]; rfl)
    subst hnil
    have hlink : uart0IrqCallback s.link [] = s.link := by
      simp [uart0IrqCallback, UartLink.buf]
    simp only [hlink, List.append_nil]
    exact { h with stored := hstored }
  | none =>
    have hbuf := h.filling hpc
    refine
      { index := h.index
        filling := fun _ => hbuf
        arrived := ?_
        framed := h.framed
        len := hfit
        full := fun datalen hlen => absurd (hpc.symm.trans hlen) (by simp)
        stored := hstored }
    have hread : read (write (s.link.readbuf s.link.rxBufIndex) s.link.rxBufLen args) 0
        (s.link.rxBufLen + args.length) =
        read (s.link.readbuf s.link.rxBufIndex) 0 s.link.rxBufLen ++ args := by
      have hnew := read_write_same (s.link.readbuf s.link.rxBufIndex) s.link.rxBufLen args
      rw [read_append, Nat.zero_add, hnew, read_write_disjoint (.inl (by omega))]
    show s.arrived ++ args = s.frames.flatten ++
      read ((uart0IrqCallback s.link args).readbuf s.buf) 0 (s.link.rxBufLen + args.length)
    rw [hbuf, h.arrived, UartSystem.held, hbuf, List.append_assoc, ← hread]
    simp [uart0IrqCallback, UartLink.buf]

/-- A call that has returned. -/
theorem tracks_finish (h : Tracks s) {l : UartLink} {frame : Option (List UInt8)}
    (hindex : l.rxBufIndex < 2) (hlen : l.rxBufLen ≤ readbufSize)
    (hframe : ∀ f ∈ frame, IsFrame f)
    (harrived : s.held = frame.getD [] ++ read (l.readbuf l.rxBufIndex) 0 l.rxBufLen) :
    Tracks (s.finish l frame) where
  index := hindex
  filling _ := rfl
  arrived := by
    show s.arrived = (s.finish l frame).frames.flatten ++ _
    rw [h.arrived, harrived]
    cases frame <;> simp [UartSystem.finish, UartSystem.frames, UartSystem.held, UartSystem.buf]
  framed := by
    intro f hf
    rw [UartSystem.frames, UartSystem.finish, List.filterMap_append, List.mem_append] at hf
    rcases hf with hf | hf
    · exact h.framed f hf
    · exact hframe f (by simpa using hf)
  len := hlen
  full := by simp [UartSystem.finish, UartPc.datalen]
  stored := h.stored

/-- The task goes on with the same buffer. -/
theorem tracks_goOn (h : Tracks s) {l : UartLink} {pc : UartPc} (hindex : l.rxBufIndex < 2)
    (hbuf : ({ s with link := l, pc := pc } : UartSystem).buf = s.buf)
    (hread : l.readbuf = s.link.readbuf) (hlen : l.rxBufLen = s.link.rxBufLen)
    (hfilling : pc.datalen = none → s.buf = l.rxBufIndex)
    (hfull : ∀ datalen, pc.datalen = some datalen →
      cmdLen (s.link.readbuf s.buf) = datalen ∧ s.link.rxBufLen = datalen + 4) :
    Tracks { s with link := l, pc := pc } where
  index := hindex
  filling hpc := hbuf.trans (hfilling hpc)
  arrived := by
    show s.arrived = s.frames.flatten ++ read (l.readbuf _) 0 l.rxBufLen
    rw [hbuf, hread, hlen]
    exact h.arrived
  framed := h.framed
  len := hlen.trans_le h.len
  full := by
    intro datalen hpc
    show cmdLen (l.readbuf _) = datalen ∧ l.rxBufLen = datalen + 4
    rw [hbuf, hread, hlen]
    exact hfull datalen hpc
  stored := h.stored

/-- What is handed over is not too long. -/
theorem Tracks.datalen_le (h : Tracks s) {datalen : ℕ} (hd : s.pc.datalen = some datalen) :
    datalen ≤ cmdDataMaxLen := by
  have hle := h.len
  rw [(h.full datalen hd).2] at hle
  simp only [readbufSize, cmdDataMaxLen] at hle ⊢
  omega

/-- The task takes a frame out when it is complete, and leaves the buffer alone otherwise. -/
theorem tracks_task (h : Tracks s) (hstep : uartStep s .task = some t) : Tracks t := by
  cases hstep
  unfold receiveStep
  cases hpc : s.pc with
  | idle =>
    have hbuf : s.buf = s.link.rxBufIndex := h.filling (by rw [hpc]; rfl)
    exact tracks_goOn h h.index hbuf.symm rfl rfl (fun _ => hbuf) (by simp [UartPc.datalen])
  | look buf timeout =>
    have hbuf : s.buf = buf := by
      rw [UartSystem.buf, hpc]
    have hfilling : s.buf = s.link.rxBufIndex := h.filling (by rw [hpc]; rfl)
    simp only
    split
    · rename_i hfull
      refine tracks_goOn h h.index hbuf.symm rfl rfl (fun _ => hfilling) ?_
      intro datalen hdatalen
      cases hdatalen
      rw [hbuf]
      exact ⟨rfl, hfull.2⟩
    · exact tracks_goOn h h.index hbuf.symm rfl rfl (fun _ => hfilling) (by simp [UartPc.datalen])
  | delay buf timeout =>
    have hbuf : s.buf = buf := by
      rw [UartSystem.buf, hpc]
    have hfilling : s.buf = s.link.rxBufIndex := h.filling (by rw [hpc]; rfl)
    simp only
    split
    · refine tracks_finish h h.index h.len (by simp) ?_
      rw [UartSystem.held, hfilling]
      rfl
    · exact tracks_goOn h h.index hbuf.symm rfl rfl (fun _ => hfilling) (by simp [UartPc.datalen])
  | complete buf datalen =>
    have hbuf : s.buf = buf := by
      rw [UartSystem.buf, hpc]
    have hfull := h.full datalen (by rw [hpc]; rfl)
    refine tracks_goOn h (Nat.mod_lt _ (by omega)) hbuf.symm rfl rfl (by simp [UartPc.datalen]) ?_
    intro datalen' hdatalen
    cases hdatalen
    exact hfull
  | flipped buf datalen =>
    have hbuf : s.buf = buf := by
      rw [UartSystem.buf, hpc]
    obtain ⟨hcmd, hlen⟩ := h.full datalen (by rw [hpc]; rfl)
    have hmax := h.datalen_le (show s.pc.datalen = some datalen by rw [hpc]; rfl)
    rw [hbuf] at hcmd
    simp only [if_pos hmax]
    refine tracks_finish h h.index (Nat.zero_le _) ?_ ?_
    · intro f hf
      cases hf
      exact isFrame_read hcmd
    · rw [UartSystem.held, hbuf, hlen]
      simp

end Step

/-! ## Recovery -/

/-- On a quiet line, the first call to return returns `f`. -/
def Returns (f : List UInt8) (s : UartSystem) : Prop :=
  ∃ n t l, run uartStep s (List.replicate n .task) = some t ∧ t.returns = [⟨some f, l⟩]

/-- A link on which the next frame is returned, however it comes in, by the call that is made
next, unless its time is over before. -/
structure Recovers (l : UartLink) : Prop where
  /-- nothing else is returned -/
  only : ∀ {f : List UInt8} {es : List UartEvent} {s : UartSystem} {r : UartReturn},
    IsFrame f → f.length ≤ readbufSize → run uartStep (.start l) es = some s →
    arrivals es <+: f → s.returns = [r] → r.frame = none ∨ r.frame = some f
  /-- the frame is -/
  returned : ∀ {f : List UInt8} {es : List UartEvent} {s : UartSystem},
    IsFrame f → f.length ≤ readbufSize → run uartStep (.start l) es = some s →
    arrivals es = f → s.returns = [] → s.pc.timeOver = false → Returns f s

/-- As long as no more than one frame has come in, the line is tracked. -/
theorem tracks_oneFrame {l : UartLink} (hl : l.Fresh) {f : List UInt8} (hf : IsFrame f)
    (hmax : f.length ≤ readbufSize) {es : List UartEvent} {s : UartSystem}
    (hrun : run uartStep (.start l) es = some s) (hpre : arrivals es <+: f) : Tracks s := by
  have hinv : s.arrived <+: f → Tracks s := by
    refine run_inv' (P := fun s => s.arrived <+: f → Tracks s) ?_ (fun _ => tracks_start hl) hrun
    intro s e t ih hstep harrived
    cases e with
    | task =>
      have hsame : t.arrived = s.arrived := by
        have hrun : run uartStep s [.task] = some t := run_cons_eq_some.2 ⟨t, hstep, rfl⟩
        simpa [arrivals] using arrived_run hrun
      exact tracks_task (ih (hsame ▸ harrived)) hstep
    | irq args =>
      have happend : t.arrived = s.arrived ++ args := by
        cases hstep
        rfl
      rw [happend] at harrived
      have htracks := ih ((List.prefix_append _ _).trans harrived)
      refine tracks_irq htracks ?_ ?_ hstep
      · have hle := harrived.length_le
        simp only [UartSystem.unread, List.length_append, List.length_drop] at hle ⊢
        omega
      · intro hsome
        obtain ⟨datalen, hdatalen⟩ := Option.isSome_iff_exists.1 hsome
        obtain ⟨hcmd, hlen⟩ := htracks.full datalen hdatalen
        have hheld : IsFrame s.held := by
          rw [UartSystem.held, hlen]
          exact isFrame_read hcmd
        rw [htracks.arrived] at harrived
        cases hframes : s.frames with
        | nil =>
          rw [hframes] at harrived
          exact (hf.eq_of_append hheld harrived).2
        | cons g gs =>
          have hg : IsFrame g := htracks.framed g (by rw [hframes]; exact List.mem_cons_self)
          rw [hframes, List.flatten_cons, List.append_assoc, List.append_assoc] at harrived
          have hnil := (hf.eq_of_append hg harrived).2
          simp only [List.append_eq_nil_iff] at hnil
          exact hnil.2.2
  refine hinv ?_
  rw [arrived_run hrun]
  simpa [UartSystem.start] using hpre

section Returns

variable {s : UartSystem} {f : List UInt8}

theorem Returns.task (h : Returns f (receiveStep s)) : Returns f s := by
  obtain ⟨n, t, l, hrun, hret⟩ := h
  exact ⟨n + 1, t, l, run_cons_eq_some.2 ⟨receiveStep s, rfl, hrun⟩, hret⟩

/-- The frame that is being handed over is returned. -/
theorem returns_flipped {buf datalen : ℕ} (hpc : s.pc = .flipped buf datalen)
    (hheld : read (s.link.readbuf buf) 0 (datalen + 4) = f) (hmax : datalen ≤ cmdDataMaxLen)
    (hnone : s.returns = []) : Returns f s := by
  refine Returns.task ⟨0, receiveStep s, { s.link with rxBufLen := 0 }, rfl, ?_⟩
  simp [receiveStep, hpc, UartSystem.finish, if_pos hmax, hheld, hnone]

theorem returns_complete {buf datalen : ℕ} (hpc : s.pc = .complete buf datalen)
    (hheld : read (s.link.readbuf buf) 0 (datalen + 4) = f) (hmax : datalen ≤ cmdDataMaxLen)
    (hnone : s.returns = []) : Returns f s := by
  have hflipped : (receiveStep s).pc = .flipped buf datalen := by
    simp [receiveStep, hpc]
  refine Returns.task (returns_flipped hflipped ?_ hmax ?_)
  · simpa [receiveStep, hpc] using hheld
  · simpa [receiveStep, hpc] using hnone

theorem returns_look (hf : IsFrame f) (hmax : f.length ≤ readbufSize) {buf : ℕ}
    {timeout : UInt16} (hpc : s.pc = .look buf timeout)
    (hheld : read (s.link.readbuf buf) 0 s.link.rxBufLen = f) (hnone : s.returns = []) :
    Returns f s := by
  subst hheld
  obtain ⟨h4, hlen⟩ := cmdLen_of_isFrame hf
  have hmax' : cmdLen (s.link.readbuf buf) ≤ cmdDataMaxLen := by
    rw [length_read, hlen] at hmax
    simp only [readbufSize, cmdDataMaxLen] at hmax ⊢
    omega
  have hstep : receiveStep s = { s with pc := .complete buf (cmdLen (s.link.readbuf buf)) } := by
    simp only [receiveStep, hpc, if_pos (And.intro h4 hlen)]
  have hreturns := returns_complete (s := receiveStep s) (by rw [hstep]) (by rw [hstep]) hmax'
    (by rw [hstep]; exact hnone)
  rw [← hlen] at hreturns
  exact hreturns.task

end Returns

/-- A buffer that holds the frame returns it, unless the call is about to give up. -/
theorem Tracks.returns {f : List UInt8} {s : UartSystem} (htracks : Tracks s) (hf : IsFrame f)
    (hmax : f.length ≤ readbufSize) (hheld : s.held = f) (hnone : s.returns = [])
    (htime : s.pc.timeOver = false) : Returns f s := by
  rw [UartSystem.held, UartSystem.buf] at hheld
  have hfull := htracks.full
  have hle (datalen : ℕ) : s.pc.datalen = some datalen → datalen ≤ cmdDataMaxLen :=
    htracks.datalen_le
  rw [UartSystem.buf] at hfull
  cases hpc : s.pc with
  | idle =>
    rw [hpc] at hheld
    have hlook : (receiveStep s).pc = .look s.link.rxBufIndex ifUartRxTimeout := by
      simp [receiveStep, hpc]
    refine Returns.task (returns_look hf hmax hlook ?_ ?_)
    · simpa [receiveStep, hpc] using hheld
    · simpa [receiveStep, hpc] using hnone
  | look buf timeout =>
    rw [hpc] at hheld
    exact returns_look hf hmax hpc hheld hnone
  | delay buf timeout =>
    rw [hpc] at hheld
    have htime' : ¬ timeout - 10 = 0 := by
      simpa [UartPc.timeOver, hpc] using htime
    have hlook : (receiveStep s).pc = .look buf (timeout - 10) := by
      simp only [receiveStep, hpc, if_neg htime']
    refine Returns.task (returns_look hf hmax hlook ?_ ?_)
    · simpa only [receiveStep, hpc, if_neg htime'] using hheld
    · simpa only [receiveStep, hpc, if_neg htime'] using hnone
  | complete buf datalen =>
    rw [hpc] at hheld hfull hle
    rw [(hfull datalen rfl).2] at hheld
    exact returns_complete hpc hheld (hle datalen rfl) hnone
  | flipped buf datalen =>
    rw [hpc] at hheld hfull hle
    rw [(hfull datalen rfl).2] at hheld
    exact returns_flipped hpc hheld (hle datalen rfl) hnone

/-- **An empty buffer recovers.** -/
theorem recovers_of_fresh {l : UartLink} (hl : l.Fresh) : Recovers l where
  only := by
    intro f es s r hf hmax hrun hpre hret
    have htracks := tracks_oneFrame hl hf hmax hrun hpre
    have harrived : s.arrived = arrivals es := arrived_run hrun
    cases hframe : r.frame with
    | none => exact .inl rfl
    | some g =>
      right
      have hframes : s.frames = [g] := by
        simp [UartSystem.frames, hret, hframe]
      have hg : IsFrame g := htracks.framed g (by rw [hframes]; exact List.mem_cons_self)
      rw [← harrived, htracks.arrived, hframes, List.flatten_singleton] at hpre
      rw [(hf.eq_of_append hg hpre).1]
  returned := by
    intro f es s hf hmax hrun harr hnone htime
    have htracks := tracks_oneFrame hl hf hmax hrun (harr ▸ List.prefix_rfl)
    have hheld : s.held = f := by
      have harrived := htracks.arrived
      rw [arrived_run hrun, harr] at harrived
      simpa [UartSystem.start, UartSystem.frames, hnone] using harrived.symm
    exact htracks.returns hf hmax hheld hnone htime

/-- A first return is as long as `len`, the bytes in the buffer. -/
def ReturnsLength (len : ℕ) (s : UartSystem) : Prop :=
  (s.returns = [] ∧ s.link.rxBufLen = len ∧
      ∀ datalen, s.pc.datalen = some datalen → datalen + 4 = len) ∨
    ∃ r rs, s.returns = r :: rs ∧ ∀ f ∈ r.frame, f.length = len

/-- What has been returned stays. -/
theorem returns_receiveStep (s : UartSystem) : s.returns <+: (receiveStep s).returns := by
  unfold receiveStep UartSystem.finish
  cases s.pc with
  | idle => exact List.prefix_rfl
  | look buf timeout =>
    simp only
    split <;> exact List.prefix_rfl
  | delay buf timeout =>
    simp only
    split
    · exact List.prefix_append _ _
    · exact List.prefix_rfl
  | complete buf datalen => exact List.prefix_rfl
  | flipped buf datalen => exact List.prefix_append _ _

theorem returnsLength_step {len : ℕ} {s t : UartSystem} (h : ReturnsLength len s)
    (hstep : uartStep s .task = some t) : ReturnsLength len t := by
  cases hstep
  rcases h with ⟨hnil, hlen, hfull⟩ | ⟨r, rs, hrs, hlen⟩
  · have hfinish : ∀ {l : UartLink} {frame : Option (List UInt8)},
        (∀ f ∈ frame, f.length = len) → ReturnsLength len (s.finish l frame) := by
      intro l frame hframe
      refine .inr ⟨⟨frame, l⟩, [], ?_, hframe⟩
      simp [UartSystem.finish, hnil]
    unfold receiveStep
    cases hpc : s.pc with
    | idle => exact .inl ⟨hnil, hlen, by simp [UartPc.datalen]⟩
    | look buf timeout =>
      simp only
      split
      · rename_i hcomplete
        refine .inl ⟨hnil, hlen, ?_⟩
        intro datalen hdatalen
        cases hdatalen
        rw [← hcomplete.2, hlen]
      · exact .inl ⟨hnil, hlen, by simp [UartPc.datalen]⟩
    | delay buf timeout =>
      simp only
      split
      · exact hfinish (by simp)
      · exact .inl ⟨hnil, hlen, by simp [UartPc.datalen]⟩
    | complete buf datalen =>
      rw [hpc] at hfull
      exact .inl ⟨hnil, hlen, hfull⟩
    | flipped buf datalen =>
      rw [hpc] at hfull
      refine hfinish ?_
      intro f hf
      split at hf
      · cases hf
        rw [length_read]
        exact hfull datalen rfl
      · cases hf
  · obtain ⟨rest, hrest⟩ := returns_receiveStep s
    exact .inr ⟨r, rs ++ rest, by rw [← hrest, hrs, List.cons_append], hlen⟩

/-- On a quiet line, what is returned is as long as the buffer was. -/
theorem returns_length {f : List UInt8} {s : UartSystem} (hnone : s.returns = [])
    (hpc : s.pc = .idle) (h : Returns f s) : f.length = s.link.rxBufLen := by
  obtain ⟨n, t, l, hrun, hret⟩ := h
  have htask : Along uartStep (fun _ e => e = .task) s (List.replicate n .task) :=
    along_of_forall fun e he _ => List.eq_of_mem_replicate he
  have hstart : ReturnsLength s.link.rxBufLen s :=
    .inl ⟨hnone, rfl, by simp [hpc, UartPc.datalen]⟩
  have hinv : ReturnsLength s.link.rxBufLen t := by
    refine run_inv (P := ReturnsLength s.link.rxBufLen) ?_ hstart htask hrun
    intro s e t h he hstep
    subst he
    exact returnsLength_step h hstep
  rcases hinv with ⟨hnil, -⟩ | ⟨r, rs, hrs, hlen⟩
  · rw [hnil] at hret
    cases hret
  · rw [hret] at hrs
    cases hrs
    exact hlen f rfl

/-- **When a link recovers**: with leftovers in its buffer it does not. -/
theorem recovers_iff {l : UartLink} (hl : l.rxBufIndex < 2) : Recovers l ↔ l.rxBufLen = 0 := by
  constructor
  · intro h
    -- four bytes at once do not make the buffer complete
    have hrun : run uartStep (.start l) [.irq [0, 0, 0, 0]] =
        (uartStep (.start l) (.irq [0, 0, 0, 0])) := rfl
    have hreturns := h.returned (f := [0, 0, 0, 0]) (by decide) (by decide) hrun rfl rfl rfl
    have hlen := returns_length rfl rfl hreturns
    change 4 = l.rxBufLen + 4 at hlen
    omega
  · intro h
    exact recovers_of_fresh ⟨hl, h⟩

/-! ## Runs -/

/-- What comes in fits the buffer, nothing comes in while a frame is being handed over, and no
call gives up on bytes that have come in. -/
def Orderly (s : UartSystem) : UartEvent → Prop
  | .irq args =>
    s.unread.length + args.length ≤ readbufSize ∧ (s.pc.datalen.isSome → args = [])
  | .task => s.pc.timeOver = true → s.unread = []

instance (s : UartSystem) (e : UartEvent) : Decidable (Orderly s e) :=
  match e with
  | .irq _ => inferInstanceAs (Decidable (_ ∧ _))
  | .task => inferInstanceAs (Decidable (_ → _))

/-- Bounded reception that recovers. -/
structure UartReception (s : UartSystem) : Prop where
  /-- every byte is stored in the buffer that `g_rx_buf_index` selects -/
  bounded : ∀ st ∈ s.stores, st.Inside
  /-- the frames returned are the frames of the line -/
  framed : (∀ f ∈ s.frames, IsFrame f) ∧ s.frames.flatten <+: s.arrived
  /-- a call that has returned `NULL` has left a link that recovers -/
  recovers : ∀ r ∈ s.returns, r.frame = none → Recovers r.link

/-- What an orderly step keeps. -/
theorem orderly_step {s t : UartSystem} {e : UartEvent}
    (h : Tracks s ∧ ∀ r ∈ s.returns, r.frame = none → r.link.Fresh) (hG : Orderly s e)
    (hstep : uartStep s e = some t) :
    Tracks t ∧ ∀ r ∈ t.returns, r.frame = none → r.link.Fresh := by
  obtain ⟨htracks, hfresh⟩ := h
  cases e with
  | irq args =>
    refine ⟨tracks_irq htracks hG.1 hG.2 hstep, ?_⟩
    cases hstep
    exact hfresh
  | task =>
    refine ⟨tracks_task htracks hstep, ?_⟩
    cases hstep
    have hfinish : ∀ {l : UartLink} {frame : Option (List UInt8)}, (frame = none → l.Fresh) →
        ∀ r ∈ (s.finish l frame).returns, r.frame = none → r.link.Fresh := by
      intro l frame hl r hr
      rcases List.mem_append.1 hr with hr | hr
      · exact hfresh r hr
      · cases List.mem_singleton.1 hr
        exact hl
    unfold receiveStep
    cases hpc : s.pc with
    | idle => exact hfresh
    | look buf timeout =>
      simp only
      split <;> exact hfresh
    | delay buf timeout =>
      simp only
      split
      · rename_i htime
        refine hfinish fun _ => ⟨htracks.index, ?_⟩
        have hunread := hG (by simp [UartPc.timeOver, hpc, htime])
        rw [htracks.unread_eq] at hunread
        rw [← length_held, hunread]
        rfl
      · exact hfresh
    | complete buf datalen => exact hfresh
    | flipped buf datalen => exact hfinish fun _ => ⟨htracks.index, rfl⟩

/-- **Bounded reception that recovers**: in every run whose steps are orderly. -/
theorem uartReception_run {l : UartLink} (hl : l.Fresh) {es : List UartEvent} {s : UartSystem}
    (hrun : run uartStep (.start l) es = some s) (hG : Along uartStep Orderly (.start l) es) :
    UartReception s := by
  have hinv := run_inv (fun _ _ _ h hG hstep => orderly_step h hG hstep)
    ⟨tracks_start hl, by simp [UartSystem.start]⟩ hG hrun
  obtain ⟨htracks, hfresh⟩ := hinv
  refine ⟨htracks.stored, ⟨htracks.framed, ?_⟩, ?_⟩
  · rw [htracks.arrived]
    exact List.prefix_append _ _
  · intro r hr hnone
    exact recovers_of_fresh (hfresh r hr hnone)

/-- The link after power-up. -/
def bootLink : UartLink := ⟨fun _ _ => 0, 0, 0⟩

/-- A read request in two parts, which the first look finds complete. -/
def jedecEvents : List UartEvent :=
  [.irq [0x36, 0], .task, .irq [0, 0], .task, .task, .task]

theorem uartReception_jedec : ∃ s, run uartStep (.start bootLink) jedecEvents = some s ∧
    UartReception s := by
  have hl : bootLink.Fresh := ⟨by decide, rfl⟩
  obtain ⟨s, hs⟩ := Option.isSome_iff_exists.1
    (show (run uartStep (.start bootLink) jedecEvents).isSome by decide)
  have hG : Along uartStep Orderly (.start bootLink) jedecEvents :=
    alongb_sound (g := fun s e => decide (Orderly s e)) (fun _ _ => of_decide_eq_true) (by decide)
  exact ⟨s, hs, uartReception_run hl hs hG⟩

/-- As many bytes as the buffer has behind a header. -/
def overflowData : List UInt8 := List.replicate 4100 0

@[simp] theorem length_overflowData : overflowData.length = 4100 := List.length_replicate

/-- A header that announces 65535 bytes, and more bytes than the buffer has. -/
def overflowEvents : List UartEvent :=
  [.irq [0x31, 0, 0xFF, 0xFF], .irq overflowData, .irq [0]]

/-- The handler writes past the end of the buffer. -/
theorem uartReception_overflow : ∃ s, run uartStep (.start bootLink) overflowEvents = some s ∧
    ⟨0, 4104, 1⟩ ∈ s.stores ∧ ¬ UartReception s := by
  obtain ⟨s, hs⟩ : ∃ s, run uartStep (.start bootLink) overflowEvents = some s := ⟨_, rfl⟩
  have hmem : ⟨0, 4104, 1⟩ ∈ s.stores := by
    cases hs
    simp [bootLink, UartSystem.start, uart0IrqCallback]
  refine ⟨s, hs, hmem, ?_⟩
  intro h
  exact absurd (h.bounded _ hmem).2 (by decide)

end Loader
