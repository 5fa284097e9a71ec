import LegoTrain.App.UpdateHandler
import LegoTrain.Lib.WaitLoop
import LegoTrain.Loader.BleLink

/-!
# The last wait of a budget

`bflb_eflash_loader_ble_recv` and `bflb_eflash_loader_ble_send` wait in portions of 20 ms
and pay for each before it, `getResponse` of the app polls once a millisecond.  All three
tell from the rest of the budget whether they were successful.

* `Loader.recvReturns_iff`, `Loader.sendReports_iff` : what the last wait takes is lost;
* `App.responseReported_iff` : so is a response that comes in the last delay;
* `Ota.deadline_iff` : the three together.
-/

open WaitLoop

namespace Loader

/-! ## Receiving a frame -/

/-- One `xSemaphoreTake(rx_sem, pdMS_TO_TICKS(20))`; the packets of the wait come before
its end. -/
def recvWait (packets : ℕ → List (List UInt8 × Bool)) (i : ℕ) (l : BleLink) : Bool × BleLink :=
  let l' := (packets i).foldl (fun l p => (bleBlfRecv l p.1 p.2).1) l
  (l'.rxSem, { l' with rxSem := false })

/-- The loop that waits for a connection; it looks at `ble_bl_conn` behind each delay. -/
def awaitsConn (connects : ℕ → Bool) : ℕ → ℕ → Bool
  | 0, _ => false
  | n + 1, i => connects i || awaitsConn connects n (i + 1)

/-- There is a connection at once or within the time. -/
def connected (bleBlConn : Bool) (connects : ℕ → Bool) (waits : ℕ) : Bool :=
  bleBlConn || awaitsConn connects waits 0

/-- `bflb_eflash_loader_ble_recv` with a timeout of `waits` times 20 ms: what it returns,
and what it sends to the host by itself. -/
def bleRecvFor (waits : ℕ) (bleBlConn : Bool) (connects : ℕ → Bool)
    (packets : ℕ → List (List UInt8 × Bool)) (l : BleLink) :
    BleLink × Option Received × List (List UInt8) :=
  if connected bleBlConn connects waits then
    let (timeout, l) := waitLoop 20 (recvWait packets) waits 0 l
    if timeout ≠ 0 then
      -- the further delay before an erase or a reset changes nothing here
      if l.rxBufLen ≠ 0 then
        ({ l with rxBufLen := 0 }, some ⟨fun i => l.rcvBuf (i + 2), l.rxBufLen⟩, [])
      else (l, none, [nokBytes])
    else ({ l with rxBufLen := 0 }, none, [])
  else (l, none, [])

/-- The wait `k` takes the semaphore of a complete frame, which stands in `l'`. -/
def TakesFrame (packets : ℕ → List (List UInt8 × Bool)) (l : BleLink) (k : ℕ) (l' : BleLink) :
    Prop :=
  takesAt (recvWait packets) k 0 l = some l' ∧ l'.rxBufLen = pkgLength l'.rcvBuf

/-- A frame whose semaphore the loop takes is returned. -/
def RecvReturns (waits : ℕ) (bleBlConn : Bool) (connects : ℕ → Bool)
    (packets : ℕ → List (List UInt8 × Bool)) (l : BleLink) : Prop :=
  connected bleBlConn connects waits = true → ∀ k l', k < waits → TakesFrame packets l k l' →
    (bleRecvFor waits bleBlConn connects packets l).2.1
      = some ⟨fun i => l'.rcvBuf (i + 2), pkgLength l'.rcvBuf⟩

/-- The frame has bytes, and is not completed in the last wait. -/
def RecvInTime (waits : ℕ) (bleBlConn : Bool) (connects : ℕ → Bool)
    (packets : ℕ → List (List UInt8 × Bool)) (l : BleLink) : Prop :=
  connected bleBlConn connects waits = true → ∀ k l', k < waits → TakesFrame packets l k l' →
    k + 1 < waits ∧ pkgLength l'.rcvBuf ≠ 0

section Recv

variable {waits : ℕ} {bleBlConn : Bool} {connects : ℕ → Bool}
  {packets : ℕ → List (List UInt8 × Bool)} {l l' : BleLink} {k : ℕ}

/-- What is returned when the wait `k` takes the semaphore. -/
theorem bleRecvFor_of_takesAt (hconn : connected bleBlConn connects waits = true) (hk : k < waits)
    (htakes : takesAt (recvWait packets) k 0 l = some l') :
    (bleRecvFor waits bleBlConn connects packets l).2.1
      = if k + 1 < waits ∧ l'.rxBufLen ≠ 0 then
          some ⟨fun i => l'.rcvBuf (i + 2), l'.rxBufLen⟩ else none := by
  have hloop : waitLoop 20 (recvWait packets) waits 0 l = (20 * (waits - 1 - k), l') :=
    waitLoop_of_takesAt htakes hk
  rw [bleRecvFor, if_pos hconn, hloop]
  by_cases hlast : k + 1 < waits
  · have hpos : 20 * (waits - 1 - k) ≠ 0 := by omega
    by_cases hlen : l'.rxBufLen = 0
    · simp [hpos, hlen]
    · simp [hpos, hlen, hlast]
  · have hzero : 20 * (waits - 1 - k) = 0 := by omega
    simp [hzero, hlast]

/-- In time the function does what `bleRecv` does on a link whose semaphore is given. -/
theorem bleRecvFor_eq_bleRecv (hconn : connected bleBlConn connects waits = true)
    (hk : k + 1 < waits) (htakes : takesAt (recvWait packets) k 0 l = some l')
    (hsem : l'.rxSem = false) (hlen : l'.rxBufLen ≠ 0) :
    bleRecvFor waits bleBlConn connects packets l
      = ((bleRecv { l' with rxSem := true }).1, some (bleRecv { l' with rxSem := true }).2.1,
          (bleRecv { l' with rxSem := true }).2.2) := by
  have hloop : waitLoop 20 (recvWait packets) waits 0 l = (20 * (waits - 1 - k), l') :=
    waitLoop_of_takesAt htakes (Nat.lt_of_succ_lt hk)
  have hpos : 20 * (waits - 1 - k) ≠ 0 := by omega
  have hframe := bleRecv_frame (l := { l' with rxSem := true }) rfl hlen
  rw [bleRecvFor, if_pos hconn, hloop, hframe]
  simp [hpos, hlen, hsem]

/-- A complete frame is returned if and only if it has bytes and the wait that takes it is
not the last one. -/
theorem recvReturns_iff_inTime :
    RecvReturns waits bleBlConn connects packets l
      ↔ RecvInTime waits bleBlConn connects packets l := by
  constructor
  · intro h hconn k l' hk htakes
    have hret := h hconn k l' hk htakes
    rw [bleRecvFor_of_takesAt hconn hk htakes.1, htakes.2] at hret
    split at hret
    · assumption
    · simp at hret
  · intro h hconn k l' hk htakes
    have hin := h hconn k l' hk htakes
    rw [bleRecvFor_of_takesAt hconn hk htakes.1, htakes.2, if_pos hin]

end Recv

/-! ## Sending an answer -/

/-- One `xSemaphoreTake(tx_sem, pdMS_TO_TICKS(20))`; `indicate_cb` runs in the waits that
`confirms` tells. -/
def sendWait (confirms : ℕ → Bool) (i : ℕ) (txSem : Bool) : Bool × Bool :=
  (txSem || confirms i, false)

/-- `bflb_eflash_loader_ble_send` with a timeout of `waits` times 20 ms, where the code has
250 of them: what it returns, and `tx_sem` behind it. -/
def bleSendFor (waits : ℕ) (bleBlConn isIndicateEnabled indicated : Bool) (confirms : ℕ → Bool) :
    ℤ × Bool :=
  -- `tx_sem` has been taken without a wait before
  if bleBlConn && isIndicateEnabled then
    if indicated then
      let (timeout, txSem) := waitLoop 20 (sendWait confirms) waits 0 false
      if timeout ≠ 0 then (0, txSem) else (-1, txSem)
    else (-1, false)
  else (-1, false)

/-- The answer is handed over and the loop waits for its confirmation. -/
def Indicates (bleBlConn isIndicateEnabled indicated : Bool) : Prop :=
  bleBlConn = true ∧ isIndicateEnabled = true ∧ indicated = true

/-- A confirmation that the loop takes is reported. -/
def SendReports (waits : ℕ) (bleBlConn isIndicateEnabled indicated : Bool)
    (confirms : ℕ → Bool) : Prop :=
  Indicates bleBlConn isIndicateEnabled indicated → ∀ k < waits,
    (takesAt (sendWait confirms) k 0 false).isSome →
    (bleSendFor waits bleBlConn isIndicateEnabled indicated confirms).1 = 0

/-- The first confirmation does not come in the last wait. -/
def SendInTime (waits : ℕ) (bleBlConn isIndicateEnabled indicated : Bool)
    (confirms : ℕ → Bool) : Prop :=
  Indicates bleBlConn isIndicateEnabled indicated → ∀ k < waits, confirms k = true →
    (∀ j < k, confirms j = false) → k + 1 < waits

section Send

variable {waits : ℕ} {bleBlConn isIndicateEnabled indicated : Bool} {confirms : ℕ → Bool}

/-- The wait that takes the confirmation is the first in which there is one. -/
theorem takesAt_sendWait (k i : ℕ) : (takesAt (sendWait confirms) k i false).isSome ↔
    confirms (i + k) = true ∧ ∀ j < k, confirms (i + j) = false := by
  induction k generalizing i with
  | zero => cases h : confirms i <;> simp [takesAt, sendWait, h]
  | succ k ih =>
    cases h : confirms i with
    | true =>
      simp only [takesAt, sendWait, h]
      constructor
      · intro hno
        simp at hno
      · rintro ⟨-, hfirst⟩
        have h0 := hfirst 0 (Nat.succ_pos k)
        simp [h] at h0
    | false =>
      have hrest := ih (i + 1)
      have hidx : ∀ j, i + 1 + j = i + (j + 1) := by
        intro j
        omega
      simp only [hidx] at hrest
      simp only [takesAt, sendWait, h, Bool.or_self, Bool.false_eq_true, if_false]
      rw [hrest]
      refine and_congr_right fun _ => ⟨fun hfirst j hj => ?_, fun hfirst j hj => ?_⟩
      · cases j with
        | zero => exact h
        | succ j => exact hfirst j (Nat.lt_of_succ_lt_succ hj)
      · exact hfirst (j + 1) (Nat.succ_lt_succ hj)

theorem bleSendFor_of_takesAt (hind : Indicates bleBlConn isIndicateEnabled indicated) {k : ℕ}
    (hk : k < waits) (htakes : (takesAt (sendWait confirms) k 0 false).isSome) :
    (bleSendFor waits bleBlConn isIndicateEnabled indicated confirms).1 = 0 ↔ k + 1 < waits := by
  obtain ⟨txSem, htx⟩ := Option.isSome_iff_exists.mp htakes
  have hloop : waitLoop 20 (sendWait confirms) waits 0 false = (20 * (waits - 1 - k), txSem) :=
    waitLoop_of_takesAt htx hk
  obtain ⟨rfl, rfl, rfl⟩ := hind
  simp only [bleSendFor, hloop, Bool.and_self, if_true]
  by_cases hlast : k + 1 < waits
  · have hpos : 20 * (waits - 1 - k) ≠ 0 := by omega
    simp [hpos, hlast]
  · have hzero : 20 * (waits - 1 - k) = 0 := by omega
    simp [hzero, hlast]

/-- A confirmation is reported if and only if it does not come in the last wait. -/
theorem sendReports_iff_inTime :
    SendReports waits bleBlConn isIndicateEnabled indicated confirms
      ↔ SendInTime waits bleBlConn isIndicateEnabled indicated confirms := by
  constructor
  · intro h hind k hk hconf hfirst
    have htakes : (takesAt (sendWait confirms) k 0 false).isSome := by
      rw [takesAt_sendWait]
      simpa using ⟨hconf, hfirst⟩
    exact (bleSendFor_of_takesAt hind hk htakes).1 (h hind k hk htakes)
  · intro h hind k hk htakes
    have hfirst := (takesAt_sendWait k 0).1 htakes
    simp only [Nat.zero_add] at hfirst
    exact (bleSendFor_of_takesAt hind hk htakes).2 (h hind k hk hfirst.1 hfirst.2)

end Send

end Loader

namespace App

/-! ## Waiting for a response -/

/-- `delay(1)`; `onResponse` adds the responses of the delay. -/
def rxDelay (arrivals : ℕ → List (List UInt8)) (i : ℕ) (rxQueue : List (List UInt8)) :
    List (List UInt8) :=
  rxQueue ++ arrivals i

/-- `!rxQueue.isEmpty()`. -/
def hasResponse (rxQueue : List (List UInt8)) : Bool := !rxQueue.isEmpty

/-- The loop of `getResponse`: what is left of `timeout`, and the queue. -/
def responseLoop (timeout : ℕ) (arrivals : ℕ → List (List UInt8)) (rxQueue : List (List UInt8)) :
    ℕ × List (List UInt8) :=
  pollLoop hasResponse (rxDelay arrivals) timeout 0 rxQueue

/-- `getResponse`, where the code has a `timeout` of 4000: whether it is `RESPONSE_OK`, and
the queue behind it. -/
def getResponseFor (timeout : ℕ) (arrivals : ℕ → List (List UInt8)) (rxQueue : List (List UInt8)) :
    Bool × List (List UInt8) :=
  let (timeout, rxQueue) := responseLoop timeout arrivals rxQueue
  if timeout = 0 then (false, rxQueue)
  else
    match rxQueue with
    | [] => (false, [])
    | response :: rxQueue => (responseOk response, rxQueue)

/-- A response that is in the queue when the loop ends is taken out and judged. -/
def ResponseReported (timeout : ℕ) (arrivals : ℕ → List (List UInt8))
    (rxQueue : List (List UInt8)) : Prop :=
  ∀ response rest, (responseLoop timeout arrivals rxQueue).2 = response :: rest →
    getResponseFor timeout arrivals rxQueue = (responseOk response, rest)

/-- A response of the delay `last` is not the first. -/
def ResponseInTime (last : ℕ) (arrivals : ℕ → List (List UInt8))
    (rxQueue : List (List UInt8)) : Prop :=
  arrivals last ≠ [] → rxQueue ≠ [] ∨ ∃ j < last, arrivals j ≠ []

variable {timeout : ℕ} {arrivals : ℕ → List (List UInt8)} {rxQueue : List (List UInt8)}

theorem delayed_rxDelay (k i : ℕ) (rxQueue : List (List UInt8)) :
    delayed (rxDelay arrivals) k i rxQueue
      = rxQueue ++ (List.range k).flatMap fun j => arrivals (i + j) := by
  induction k generalizing i rxQueue with
  | zero => simp [delayed]
  | succ k ih =>
    rw [delayed, ih, rxDelay, List.range_succ_eq_map, List.flatMap_cons, List.flatMap_map,
      List.append_assoc]
    simp [Nat.add_assoc, Nat.add_comm 1]

/-- Something is in the queue behind `k` delays. -/
theorem delayed_ne_nil (k : ℕ) : delayed (rxDelay arrivals) k 0 rxQueue ≠ [] ↔
    rxQueue ≠ [] ∨ ∃ j < k, arrivals j ≠ [] := by
  rw [delayed_rxDelay, ne_eq, List.append_eq_nil_iff, List.flatMap_eq_nil_iff, not_and_or]
  simp

/-- When a response is there before the last delay has ended, the loop leaves time. -/
theorem responseReported_of_ready {k : ℕ} (hk : k < timeout)
    (hne : delayed (rxDelay arrivals) k 0 rxQueue ≠ []) :
    ResponseReported timeout arrivals rxQueue := by
  have hready : hasResponse (delayed (rxDelay arrivals) k 0 rxQueue) = true := by
    simpa [hasResponse] using hne
  obtain ⟨hpos, -⟩ := pollLoop_of_ready hk hready
  intro response rest hqueue
  have hloop : responseLoop timeout arrivals rxQueue
      = ((responseLoop timeout arrivals rxQueue).1, response :: rest) := by rw [← hqueue]
  have hleft : (responseLoop timeout arrivals rxQueue).1 ≠ 0 := Nat.ne_of_gt hpos
  rw [getResponseFor, hloop]
  simp only [if_neg hleft]

/-- Without one a response of the last delay is left in the queue. -/
theorem responseReported_of_never
    (h : ∀ k < timeout, delayed (rxDelay arrivals) k 0 rxQueue = []) :
    ResponseReported timeout arrivals rxQueue
      ↔ delayed (rxDelay arrivals) timeout 0 rxQueue = [] := by
  have hloop : responseLoop timeout arrivals rxQueue
      = (0, delayed (rxDelay arrivals) timeout 0 rxQueue) :=
    pollLoop_of_never fun k hk => by simp [hasResponse, h k hk]
  unfold ResponseReported
  simp only [getResponseFor, hloop, if_true]
  constructor
  · intro hrep
    cases hq : delayed (rxDelay arrivals) timeout 0 rxQueue with
    | nil => rfl
    | cons response rest =>
      have hlen := congrArg (fun r => r.2.length) (hrep response rest hq)
      simp [hq] at hlen
  · intro hnil response rest hq
    simp [hnil] at hq

/-- A response is reported if and only if it does not come in the last delay. -/
theorem responseReported_iff_inTime (last : ℕ) :
    ResponseReported (last + 1) arrivals rxQueue ↔ ResponseInTime last arrivals rxQueue := by
  have hstep : delayed (rxDelay arrivals) (last + 1) 0 rxQueue ≠ [] ↔
      delayed (rxDelay arrivals) last 0 rxQueue ≠ [] ∨ arrivals last ≠ [] := by
    rw [delayed_ne_nil, delayed_ne_nil, Nat.exists_lt_succ_right, or_assoc]
  by_cases hbefore : delayed (rxDelay arrivals) last 0 rxQueue = []
  · have hnever : ∀ k < last + 1, delayed (rxDelay arrivals) k 0 rxQueue = [] := by
      intro k hk
      by_contra hne
      refine (delayed_ne_nil last).2 ?_ hbefore
      rcases (delayed_ne_nil k).1 hne with hqueue | ⟨j, hj, harr⟩
      · exact .inl hqueue
      · exact .inr ⟨j, by omega, harr⟩
    rw [responseReported_of_never hnever, ResponseInTime, ← delayed_ne_nil, ← not_iff_not]
    rw [← ne_eq, hstep]
    simp [hbefore]
  · exact iff_of_true (responseReported_of_ready (Nat.lt_succ_self last) hbefore)
      fun _ => (delayed_ne_nil last).1 hbefore

end App

namespace Ota

open Loader App

/-- What the loops take or find is reported if and only if it is there before the last
wait. -/
theorem deadline_iff (waits last : ℕ) (bleBlConn isIndicateEnabled indicated : Bool)
    (connects confirms : ℕ → Bool) (packets : ℕ → List (List UInt8 × Bool)) (l : BleLink)
    (arrivals : ℕ → List (List UInt8)) (rxQueue : List (List UInt8)) :
    (RecvReturns waits bleBlConn connects packets l
        ↔ RecvInTime waits bleBlConn connects packets l) ∧
      (SendReports waits bleBlConn isIndicateEnabled indicated confirms
        ↔ SendInTime waits bleBlConn isIndicateEnabled indicated confirms) ∧
      (ResponseReported (last + 1) arrivals rxQueue ↔ ResponseInTime last arrivals rxQueue) :=
  ⟨recvReturns_iff_inTime, sendReports_iff_inTime, responseReported_iff_inTime last⟩

/-- The packet that completes a frame of one byte. -/
def lastPacket : List UInt8 × Bool := ([1, 0, 0x10], false)

/-- Of two waits the second takes the frame, of 250 the last the confirmation, and the
response comes in the last of 4000 delays: nothing of it is reported. -/
theorem lost_at_deadline :
    ¬ RecvReturns 2 true (fun _ => false) (fun i => if i = 1 then [lastPacket] else [])
        ⟨fun _ => 0, 0, false⟩ ∧
      ¬ SendReports 250 true true true (fun i => i == 249) ∧
      ¬ ResponseReported 4000 (fun i => if i = 3999 then [[0x4F, 0x4B]] else []) [] := by
  refine ⟨fun h => ?_, fun h => ?_, fun h => ?_⟩
  · have htakes := (recvReturns_iff_inTime.1 h rfl 1 _ (by decide) ⟨rfl, rfl⟩).1
    exact absurd htakes (by decide)
  · have hlast := sendReports_iff_inTime.1 h ⟨rfl, rfl, rfl⟩ 249 (by decide) rfl
      fun j hj => beq_eq_false_iff_ne.2 (Nat.ne_of_lt hj)
    exact absurd hlast (by decide)
  · rcases (responseReported_iff_inTime 3999).1 h (by simp) with hqueue | ⟨j, hj, harr⟩
    · exact hqueue rfl
    · have hne : j ≠ 3999 := Nat.ne_of_lt hj
      simp [hne] at harr

end Ota
