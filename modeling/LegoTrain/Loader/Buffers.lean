import Mathlib.Data.List.Induction
import LegoTrain.Lib.Ledger
import LegoTrain.Loader.BleLink
import LegoTrain.Loader.UartLink

/-!
# The receive buffers of the loader

`g_eflash_loader_readbuf`: `bl_connected` and `bl_disconnected` of
`bflb_eflash_loader_ble.c` and `bflb_eflash_loader_uart_handshake_poll` of
`bflb_eflash_loader_uart.c` allocate and free the two buffers, the first for a link that uses
one of them and the second for a link that uses both.  Each asks for the first buffer only.

* `blConnected`, `blDisconnected`, `uartHandshake`, `uartReceived` : what they do to the
  buffers;
* `buffers_owned_iff` : the buffers are in order in every run that stays on one transport;
* `buffers_not_owned` : a connection and then a handshake.
-/

namespace Loader

/-! ## The code -/

/-- The heap, the pointers, and who uses them. -/
structure ReadBuffers where
  /-- the blocks that `pvPortMalloc` has handed out, by their sizes -/
  heap : Ledger ℕ
  /-- `g_eflash_loader_readbuf` -/
  readbuf : Fin 2 → Option ℕ
  /-- `g_rx_buf_index` -/
  rxBufIndex : ℕ
  /-- `ble_bl_conn` is not `NULL` -/
  bleBlConn : Bool
  /-- the receive interrupt of the UART is on, since a handshake that found these pointers -/
  session : Option (Fin 2 → Option ℕ)

/-- `pvPortMalloc` into a pointer: it does not return when there is no memory
(`vApplicationMallocFailedHook`). -/
def ReadBuffers.malloc (s : ReadBuffers) (p : Fin 2) (size : ℕ) : ReadBuffers :=
  { s with heap := s.heap.take size, readbuf := Function.update s.readbuf p (some s.heap.next) }

/-- `vPortFree` of a pointer, which does nothing for `NULL`. -/
def ReadBuffers.free (s : ReadBuffers) (p : Fin 2) : ReadBuffers :=
  match s.readbuf p with
  | some i => { s with heap := s.heap.release i }
  | none => s

/-- `bl_connected`; `err` is that of the stack. -/
def blConnected (s : ReadBuffers) (err : Bool) : ReadBuffers :=
  if err then s
  else
    let s := { s with bleBlConn := true }
    if s.readbuf 0 = none then s.malloc 0 bleReadbufSize
    else ((s.free 0).free 1).malloc 0 bleReadbufSize

/-- `bl_disconnected`. -/
def blDisconnected (s : ReadBuffers) : ReadBuffers :=
  let s := if s.readbuf 0 = none then s.free 0 else s
  { s with bleBlConn := false }

/-- `bflb_eflash_loader_uart_handshake_poll` over the bytes that the UART holds. -/
def uartHandshake (s : ReadBuffers) (buf : List UInt8) : ReadBuffers :=
  if handShakeSussCount ≤ handshakeCount buf then
    let s := { s with rxBufIndex := 0 }
    let s :=
      if s.readbuf 0 = none then (s.malloc 0 readbufSize).malloc 1 readbufSize else s
    { s with session := some s.readbuf }
  else s

/-- A frame that `bflb_eflash_loader_usart_if_receive` has taken out: the other buffer is next. -/
def uartReceived (s : ReadBuffers) : ReadBuffers := { s with rxBufIndex := (s.rxBufIndex + 1) % 2 }

/-- What happens to the loader. -/
inductive BufferEvent
  | connected (err : Bool)
  | disconnected
  | handshakePoll (buf : List UInt8)
  /-- a frame on the UART -/
  | uartFrame
  /-- a frame over Bluetooth, which leaves the pointers alone -/
  | bleFrame
  deriving DecidableEq, Repr

/-- The buffers after an event. -/
def onBuffers (s : ReadBuffers) : BufferEvent → ReadBuffers
  | .connected err => blConnected s err
  | .disconnected => blDisconnected s
  | .handshakePoll buf => uartHandshake s buf
  | .uartFrame => uartReceived s
  | .bleFrame => s

/-- The bootloader before any of it. -/
def ReadBuffers.init : ReadBuffers := ⟨.empty, fun _ => none, 0, false, none⟩

/-- The buffers after a sequence of events. -/
def buffersAfter (es : List BufferEvent) : ReadBuffers := es.foldl onBuffers .init

theorem buffersAfter_concat (es : List BufferEvent) (e : BufferEvent) :
    buffersAfter (es ++ [e]) = onBuffers (buffersAfter es) e := by
  simp [buffersAfter]

/-- `g_eflash_loader_readbuf[0]`. -/
abbrev ReadBuffers.readbuf0 (s : ReadBuffers) : Option ℕ := s.readbuf 0

/-- `g_eflash_loader_readbuf[1]`. -/
abbrev ReadBuffers.readbuf1 (s : ReadBuffers) : Option ℕ := s.readbuf 1

/-! ## Ownership -/

/-- The size that the users of a buffer assume: the interrupt of the UART uses both, the
Bluetooth link the first. -/
def Assumed (s : ReadBuffers) (p : Fin 2) (size : ℕ) : Prop :=
  (s.session ≠ none → readbufSize ≤ size) ∧ (s.bleBlConn → p = 0 → bleReadbufSize ≤ size)

/-- The buffers are in order. -/
structure Owned (s : ReadBuffers) : Prop where
  /-- a pointer is `NULL` or a live block of the size that its user assumes -/
  pointer : ∀ p i, s.readbuf p = some i → ∃ size, s.heap.Live i size ∧ Assumed s p size
  /-- no block is freed twice -/
  once : s.heap.Sound
  /-- a UART session has both buffers -/
  session : s.session ≠ none → ∀ p, s.readbuf p ≠ none
  /-- and they are not freed under it -/
  started : ∀ readbuf, s.session = some readbuf →
    ∀ p i, readbuf p = some i → ∃ size, s.heap.Live i size

/-- A connection comes up. -/
def BufferEvent.Connects : BufferEvent → Prop
  | .connected err => err = false
  | _ => False

instance (e : BufferEvent) : Decidable e.Connects := by
  cases e <;> unfold BufferEvent.Connects <;> infer_instance

/-- A handshake succeeds. -/
def BufferEvent.Handshakes : BufferEvent → Prop
  | .handshakePoll buf => handShakeSussCount ≤ handshakeCount buf
  | _ => False

instance (e : BufferEvent) : Decidable e.Handshakes := by
  cases e <;> unfold BufferEvent.Handshakes <;> infer_instance

/-! ## One transport -/

/-- No UART session so far: there is one buffer at most. -/
structure BleOnly (s : ReadBuffers) : Prop where
  session : s.session = none
  sound : s.heap.Sound
  first : ∀ i, s.readbuf 0 = some i → s.heap.Live i bleReadbufSize
  second : s.readbuf 1 = none

/-- No connection so far: there are both buffers or none, and nothing has been freed. -/
structure UartOnly (s : ReadBuffers) : Prop where
  conn : s.bleBlConn = false
  sound : s.heap.Sound
  pointer : ∀ p i, s.readbuf p = some i → s.heap.Live i readbufSize
  session : s.session = none ∧ (∀ p, s.readbuf p = none) ∨
    s.session = some s.readbuf ∧ ∀ p, s.readbuf p ≠ none

theorem BleOnly.owned {s : ReadBuffers} (h : BleOnly s) : Owned s where
  pointer := by
    intro p i hi
    match p with
    | 0 => exact ⟨_, h.first i hi, fun hs => absurd h.session hs, fun _ _ => le_rfl⟩
    | 1 => exact absurd (h.second.symm.trans hi) (by simp)
  once := h.sound
  session := fun hs => absurd h.session hs
  started := by
    intro readbuf hs
    rw [h.session] at hs
    cases hs

theorem UartOnly.owned {s : ReadBuffers} (h : UartOnly s) : Owned s where
  pointer := by
    intro p i hi
    refine ⟨_, h.pointer p i hi, fun _ => le_rfl, ?_⟩
    simp [h.conn]
  once := h.sound
  session := by
    intro hs
    rcases h.session with ⟨hnone, -⟩ | ⟨-, hboth⟩
    · exact absurd hnone hs
    · exact hboth
  started := by
    intro readbuf hs p i hi
    rcases h.session with ⟨hnone, -⟩ | ⟨hsome, -⟩
    · rw [hnone] at hs
      cases hs
    · rw [hsome] at hs
      cases hs
      exact ⟨_, h.pointer p i hi⟩

theorem bleOnly_init : BleOnly .init :=
  ⟨rfl, Ledger.sound_empty, nofun, rfl⟩

theorem uartOnly_init : UartOnly .init :=
  ⟨rfl, Ledger.sound_empty, nofun, .inl ⟨rfl, fun _ => rfl⟩⟩

/-- A new block in the first buffer. -/
theorem malloc_bleOnly {s : ReadBuffers} (hsession : s.session = none) (hsound : s.heap.Sound)
    (hsecond : s.readbuf 1 = none) : BleOnly (s.malloc 0 bleReadbufSize) where
  session := hsession
  sound := hsound.take _
  first := by
    intro i hi
    simp only [ReadBuffers.malloc, Function.update_self, Option.some.injEq] at hi
    subst hi
    exact hsound.live_take _
  second := by
    simpa [ReadBuffers.malloc] using hsecond

theorem blConnected_bleOnly {s : ReadBuffers} (h : BleOnly s) :
    BleOnly (blConnected s false) ∧ (blConnected s false).readbuf 0 ≠ none := by
  have hfree1 (t : ReadBuffers) (ht : t.readbuf 1 = none) : t.free 1 = t := by
    rw [ReadBuffers.free, ht]
  simp only [blConnected, Bool.false_eq_true, if_false]
  cases h0 : s.readbuf 0 with
  | none =>
    rw [if_pos rfl]
    exact ⟨malloc_bleOnly h.session h.sound h.second, by simp [ReadBuffers.malloc]⟩
  | some i =>
    rw [if_neg (by simp)]
    have hfree : ({ s with bleBlConn := true } : ReadBuffers).free 0 =
        { s with bleBlConn := true, heap := s.heap.release i } := by
      simp [ReadBuffers.free, h0]
    rw [hfree, hfree1 _ (by exact h.second)]
    refine ⟨malloc_bleOnly h.session (h.sound.release (h.first i h0)) h.second, ?_⟩
    simp [ReadBuffers.malloc]

theorem blDisconnected_eq (s : ReadBuffers) : blDisconnected s = { s with bleBlConn := false } := by
  unfold blDisconnected
  by_cases h : s.readbuf 0 = none
  · simp [h, ReadBuffers.free]
  · simp [h]

/-- An event that is no handshake. -/
theorem onBuffers_bleOnly {s : ReadBuffers} (h : BleOnly s) {e : BufferEvent}
    (he : ¬ e.Handshakes) :
    BleOnly (onBuffers s e) ∧
      ((onBuffers s e).readbuf 0 ≠ none ↔ s.readbuf 0 ≠ none ∨ e.Connects) := by
  cases e with
  | connected err =>
    cases err with
    | false =>
      obtain ⟨hble, hne⟩ := blConnected_bleOnly h
      exact ⟨hble, iff_of_true hne (.inr rfl)⟩
    | true => exact ⟨h, by simp [onBuffers, blConnected, BufferEvent.Connects]⟩
  | disconnected =>
    simp only [onBuffers, blDisconnected_eq, BufferEvent.Connects, or_false]
    exact ⟨⟨h.session, h.sound, h.first, h.second⟩, trivial⟩
  | handshakePoll buf =>
    have hs : uartHandshake s buf = s := if_neg he
    simp only [onBuffers, hs, BufferEvent.Connects, or_false]
    exact ⟨h, trivial⟩
  | uartFrame =>
    simp only [onBuffers, uartReceived, BufferEvent.Connects, or_false]
    exact ⟨⟨h.session, h.sound, h.first, h.second⟩, trivial⟩
  | bleFrame =>
    simp only [onBuffers, BufferEvent.Connects, or_false]
    exact ⟨h, trivial⟩

theorem uartHandshake_uartOnly {s : ReadBuffers} (h : UartOnly s) {buf : List UInt8}
    (hbuf : handShakeSussCount ≤ handshakeCount buf) :
    UartOnly (uartHandshake s buf) ∧ (uartHandshake s buf).session ≠ none := by
  simp only [uartHandshake, if_pos hbuf]
  rcases h.session with ⟨-, hnone⟩ | ⟨-, hboth⟩
  · rw [if_pos (hnone 0)]
    have hsound := h.sound.take readbufSize
    refine ⟨⟨h.conn, hsound.take _, ?_, .inr ⟨rfl, ?_⟩⟩, by simp⟩
    · intro p i hi
      match p with
      | 0 =>
        simp [ReadBuffers.malloc] at hi
        subst hi
        exact (h.sound.live_take readbufSize).take readbufSize
      | 1 =>
        simp [ReadBuffers.malloc] at hi
        subst hi
        have hlive := hsound.live_take readbufSize
        rwa [Ledger.next_take] at hlive
    · intro p
      match p with
      | 0 => simp [ReadBuffers.malloc]
      | 1 => simp [ReadBuffers.malloc]
  · rw [if_neg (hboth 0)]
    exact ⟨⟨h.conn, h.sound, h.pointer, .inr ⟨rfl, hboth⟩⟩, by simp⟩

/-- An event that is no connection. -/
theorem onBuffers_uartOnly {s : ReadBuffers} (h : UartOnly s) {e : BufferEvent}
    (he : ¬ e.Connects) :
    UartOnly (onBuffers s e) ∧
      ((onBuffers s e).session ≠ none ↔ s.session ≠ none ∨ e.Handshakes) := by
  cases e with
  | connected err =>
    cases err with
    | false => exact absurd rfl he
    | true => exact ⟨h, by simp [onBuffers, blConnected, BufferEvent.Handshakes]⟩
  | disconnected =>
    simp only [onBuffers, blDisconnected_eq, BufferEvent.Handshakes, or_false]
    exact ⟨⟨rfl, h.sound, h.pointer, h.session⟩, trivial⟩
  | handshakePoll buf =>
    by_cases hbuf : handShakeSussCount ≤ handshakeCount buf
    · obtain ⟨huart, hne⟩ := uartHandshake_uartOnly h hbuf
      exact ⟨huart, iff_of_true hne (.inr hbuf)⟩
    · have hs : uartHandshake s buf = s := if_neg hbuf
      rw [onBuffers, hs]
      exact ⟨h, (or_iff_left hbuf).symm⟩
  | uartFrame =>
    simp only [onBuffers, uartReceived, BufferEvent.Handshakes, or_false]
    exact ⟨⟨h.conn, h.sound, h.pointer, h.session⟩, trivial⟩
  | bleFrame =>
    simp only [onBuffers, BufferEvent.Handshakes, or_false]
    exact ⟨h, trivial⟩

/-! ## Runs -/

/-- A run without a handshake has the first buffer when there has been a connection. -/
theorem buffersAfter_bleOnly {es : List BufferEvent} (h : ∀ e ∈ es, ¬ e.Handshakes) :
    BleOnly (buffersAfter es) ∧
      ((buffersAfter es).readbuf 0 ≠ none ↔ ∃ e ∈ es, e.Connects) := by
  induction es using List.reverseRecOn with
  | nil => exact ⟨bleOnly_init, by simp [buffersAfter, ReadBuffers.init]⟩
  | append_singleton es e ih =>
    obtain ⟨hble, hiff⟩ := ih fun e' he' => h e' (List.mem_append_left _ he')
    obtain ⟨hble', hiff'⟩ := onBuffers_bleOnly hble (h e (by simp))
    rw [buffersAfter_concat]
    refine ⟨hble', ?_⟩
    rw [hiff', hiff]
    simp [or_and_right, exists_or]

/-- A run without a connection has a session when there has been a handshake. -/
theorem buffersAfter_uartOnly {es : List BufferEvent} (h : ∀ e ∈ es, ¬ e.Connects) :
    UartOnly (buffersAfter es) ∧
      ((buffersAfter es).session ≠ none ↔ ∃ e ∈ es, e.Handshakes) := by
  induction es using List.reverseRecOn with
  | nil => exact ⟨uartOnly_init, by simp [buffersAfter, ReadBuffers.init]⟩
  | append_singleton es e ih =>
    obtain ⟨huart, hiff⟩ := ih fun e' he' => h e' (List.mem_append_left _ he')
    obtain ⟨huart', hiff'⟩ := onBuffers_uartOnly huart (h e (by simp))
    rw [buffersAfter_concat]
    refine ⟨huart', ?_⟩
    rw [hiff', hiff]
    simp [or_and_right, exists_or]

/-- A handshake after a connection: the session has no second buffer. -/
theorem not_owned_handshake {s : ReadBuffers} (h : BleOnly s) (h0 : s.readbuf 0 ≠ none)
    {e : BufferEvent} (he : e.Handshakes) : ¬ Owned (onBuffers s e) := by
  intro howned
  cases e with
  | handshakePoll buf =>
    have hs : onBuffers s (.handshakePoll buf) =
        { s with rxBufIndex := 0, session := some s.readbuf } := by
      rw [onBuffers, uartHandshake, if_pos (by exact he)]
      simp [h0]
    rw [hs] at howned
    exact howned.session (by simp) 1 h.second
  | _ => exact he

/-- A connection after a handshake: the second pointer is left to a block that is freed. -/
theorem not_owned_connected {s : ReadBuffers} (h : UartOnly s) (hs : s.session ≠ none)
    {e : BufferEvent} (he : e.Connects) : ¬ Owned (onBuffers s e) := by
  intro howned
  obtain ⟨hnone, -⟩ | ⟨-, hboth⟩ := h.session
  · exact hs hnone
  obtain ⟨i, hi⟩ := Option.ne_none_iff_exists'.1 (hboth 0)
  obtain ⟨j, hj⟩ := Option.ne_none_iff_exists'.1 (hboth 1)
  cases e with
  | connected err =>
    cases he
    obtain ⟨size, hlive, -⟩ := howned.pointer 1 j (by
      simp [onBuffers, blConnected, ReadBuffers.free, ReadBuffers.malloc, hi, hj])
    refine hlive.2 ?_
    simp [onBuffers, blConnected, ReadBuffers.free, ReadBuffers.malloc, hi, hj]
  | _ => exact he

/-- In a run with both there is a first event that brings them together. -/
theorem exists_mixed {es : List BufferEvent} (hconn : ∃ e ∈ es, e.Connects)
    (hshake : ∃ e ∈ es, e.Handshakes) :
    ∃ pre e, pre ++ [e] <+: es ∧
      ((∀ e' ∈ pre, ¬ e'.Handshakes) ∧ (∃ e' ∈ pre, e'.Connects) ∧ e.Handshakes ∨
        (∀ e' ∈ pre, ¬ e'.Connects) ∧ (∃ e' ∈ pre, e'.Handshakes) ∧ e.Connects) := by
  induction es using List.reverseRecOn with
  | nil => simp at hconn
  | append_singleton es e ih =>
    by_cases hc : ∃ e' ∈ es, e'.Connects
    · by_cases hs : ∃ e' ∈ es, e'.Handshakes
      · obtain ⟨pre, e', hpre, hmixed⟩ := ih hc hs
        exact ⟨pre, e', hpre.trans (List.prefix_append _ _), hmixed⟩
      · refine ⟨es, e, List.prefix_rfl, .inl ⟨by simpa using hs, hc, ?_⟩⟩
        obtain ⟨e', he', hshakes⟩ := hshake
        rcases List.mem_append.1 he' with hmem | hmem
        · exact absurd ⟨e', hmem, hshakes⟩ hs
        · rwa [← List.mem_singleton.1 hmem]
    · obtain ⟨e', he', hconnects⟩ := hconn
      have hlast : e.Connects := by
        rcases List.mem_append.1 he' with hmem | hmem
        · exact absurd ⟨e', hmem, hconnects⟩ hc
        · rwa [← List.mem_singleton.1 hmem]
      refine ⟨es, e, List.prefix_rfl, .inr ⟨by simpa using hc, ?_, hlast⟩⟩
      obtain ⟨e'', he'', hshakes⟩ := hshake
      rcases List.mem_append.1 he'' with hmem | hmem
      · exact ⟨e'', hmem, hshakes⟩
      · rw [List.mem_singleton.1 hmem] at hshakes
        cases e <;> contradiction

/-- **When the buffers are in order**: they are, after every part of a run, exactly when the run
does not have both a connection and a handshake. -/
theorem buffers_owned_iff (es : List BufferEvent) :
    (∀ pre, pre <+: es → Owned (buffersAfter pre)) ↔
      ¬ ((∃ e ∈ es, e.Connects) ∧ ∃ e ∈ es, e.Handshakes) := by
  constructor
  · rintro h ⟨hconn, hshake⟩
    obtain ⟨pre, e, hpre, hmixed⟩ := exists_mixed hconn hshake
    have howned := h _ hpre
    rw [buffersAfter_concat] at howned
    rcases hmixed with ⟨hno, hyes, he⟩ | ⟨hno, hyes, he⟩
    · obtain ⟨hble, hiff⟩ := buffersAfter_bleOnly hno
      exact not_owned_handshake hble (hiff.2 hyes) he howned
    · obtain ⟨huart, hiff⟩ := buffersAfter_uartOnly hno
      exact not_owned_connected huart (hiff.2 hyes) he howned
  · intro h pre hpre
    by_cases hconn : ∃ e ∈ es, e.Connects
    · refine (buffersAfter_bleOnly ?_).1.owned
      intro e he hshakes
      exact h ⟨hconn, e, hpre.subset he, hshakes⟩
    · refine (buffersAfter_uartOnly ?_).1.owned
      intro e he hconnects
      exact hconn ⟨e, hpre.subset he, hconnects⟩

/-- Sixteen handshake bytes. -/
def handshakeBytes : List UInt8 := List.replicate 16 handShakeByte

/-- A phone connects, and then a handshake comes in on the UART: its session has no second
buffer.  The other way round, the connection frees both buffers of the session and leaves the
second pointer as it is. -/
theorem buffers_not_owned :
    ¬ Owned (buffersAfter [.connected false, .handshakePoll handshakeBytes]) ∧
      ¬ Owned (buffersAfter [.handshakePoll handshakeBytes, .connected false]) := by
  constructor
  · intro howned
    exact howned.session (by decide) 1 (by decide)
  · intro howned
    obtain ⟨size, hlive, -⟩ := howned.pointer 1 1 (by decide)
    exact hlive.2 (by decide)

end Loader
