import LegoTrain.App.Readiness
import LegoTrain.Lib.Permits

/-!
# The acknowledgement of a write

`writeRawData` of `FirmwareUpdateHandler.kt` takes one permit of `tx_done_sem` before it hands
its data to `writeData`, and waits for another one behind it.  `onDataWritten` releases a permit
for every `onCharacteristicWrite` with success, whatever write it is for, and what
`writeCharacteristic` answers is not looked at.

* `WriteSystem`, `writeStep` : the calls, one behind the other, over `leStep`;
* `Acknowledged` : what `true` is meant to say;
* `WriteGuard`, `acknowledged` : it says so when no stale permit is taken;
* `late_acknowledgement` : the success of a write that timed out before.
-/

namespace App

open BluetoothLeService Transition

/-! ## The calls -/

/-- `writeData`: its result, and what is handed to the stack. -/
def BluetoothLeService.writeData (s : BluetoothLeService) (data : List UInt8) :
    Bool × Option (Gatt × Characteristic × List UInt8) :=
  match s.writeHandle with
  | some c => (true, s.bluetoothGatt.map fun g => (g, c, data))
  | none => (false, none)

/-- The data of a call of `writeRawData`, and the number of the call. -/
structure RawWrite where
  call : ℕ
  data : List UInt8
  deriving DecidableEq, Repr

/-- Where the call in progress stands. -/
inductive WriteCall
  /-- behind `tx_done_sem.tryAcquire()` -/
  | drained (w : RawWrite)
  /-- in `tx_done_sem.tryAcquire(2, TimeUnit.SECONDS)` -/
  | waits (w : RawWrite)
  deriving DecidableEq, Repr

def WriteCall.write : WriteCall → RawWrite
  | .drained w => w
  | .waits w => w

/-! ## The system -/

/-- What has happened to a write. -/
inductive WriteNote
  /-- a connection was given the data and accepted it -/
  | accepted (w : RawWrite)
  /-- `onCharacteristicWrite` had success -/
  | confirmed (w : RawWrite)
  | returned (w : RawWrite) (result : Bool)
  deriving DecidableEq, Repr

/-- Each `true` comes after the data was accepted and confirmed; the newest comes first. -/
def Acknowledged : List WriteNote → Prop
  | [] => True
  | .returned w true :: history =>
    .accepted w ∈ history ∧ .confirmed w ∈ history ∧ Acknowledged history
  | _ :: history => Acknowledged history

/-- The service, the calls, and what has happened. -/
structure WriteSystem where
  le : LeSystem
  /-- the permits of `tx_done_sem`; fresh are those that the call in progress waits for, and
  those released behind them -/
  permits : Permits
  /-- the number of the next call -/
  next : ℕ
  call : Option WriteCall
  /-- the writes that were accepted and that the stack has not called back for -/
  outstanding : List RawWrite
  history : List WriteNote
  deriving DecidableEq, Repr

/-- `tx_done_sem` begins with one permit. -/
def WriteSystem.init : WriteSystem := ⟨.init, ⟨1, 0⟩, 0, none, [], []⟩

/-- What may happen. -/
inductive WriteEvent
  | le (e : LeEvent)
  /-- the call, up to its first `tryAcquire` -/
  | writeRawData (data : List UInt8)
  /-- `writeData`, where `writeCharacteristic` answers `answer` -/
  | writeData (answer : Bool)
  /-- the second `tryAcquire` takes a permit -/
  | acquire
  /-- it takes none in two seconds -/
  | timeout
  | characteristicWrite (w : RawWrite) (status : ℤ)
  deriving DecidableEq, Repr

namespace WriteSystem

/-- A success for the call in progress, or behind it. -/
def Meant (s : WriteSystem) (w : RawWrite) : Prop :=
  ∃ call ∈ s.call, call.write = w ∨ .confirmed call.write ∈ s.history

instance (s : WriteSystem) (w : RawWrite) : Decidable (s.Meant w) :=
  decidable_of_iff (s.call.any fun call =>
      decide (call.write = w ∨ .confirmed call.write ∈ s.history)) <| by
    cases h : s.call <;> simp [Meant, h]

/-- The call returns. -/
def endCall (s : WriteSystem) (w : RawWrite) (result : Bool) : WriteSystem :=
  { s with call := none, history := .returned w result :: s.history }

/-- `writeData` in the call. -/
def write (s : WriteSystem) (w : RawWrite) (answer : Bool) : WriteSystem :=
  match s.le.service.writeData w.data with
  | (false, _) => s.endCall w false
  | (true, none) => { s with call := some (.waits w) }
  | (true, some _) =>
    if answer then
      { s with
        call := some (.waits w)
        outstanding := w :: s.outstanding
        history := .accepted w :: s.history }
    else { s with call := some (.waits w) }

/-- `onCharacteristicWrite` and `onDataWritten`. -/
def onCharacteristicWrite (s : WriteSystem) (w : RawWrite) (status : ℤ) : WriteSystem :=
  let s' := { s with outstanding := s.outstanding.erase w }
  if status = gattSuccess then
    { s' with
      permits := if s.Meant w then s.permits.release else s.permits.releaseStale
      history := .confirmed w :: s.history }
  else s'

end WriteSystem

/-- A step of the system. -/
def writeStep (s : WriteSystem) : WriteEvent → Option WriteSystem
  | .le e => (leStep s.le e).map fun le => { s with le := le }
  | .writeRawData data =>
    if s.call = none then
      some { s with
        permits := s.permits.take.age
        next := s.next + 1
        call := some (.drained ⟨s.next, data⟩) }
    else none
  | .writeData answer =>
    match s.call with
    | some (.drained w) => some (s.write w answer)
    | _ => none
  | .acquire =>
    match s.call with
    | some (.waits w) =>
      if 0 < s.permits.total then
        some ({ s with permits := s.permits.take }.endCall w true)
      else none
    | _ => none
  | .timeout =>
    match s.call with
    | some (.waits w) => if s.permits.total = 0 then some (s.endCall w false) else none
    | _ => none
  | .characteristicWrite w status =>
    if w ∈ s.outstanding then some (s.onCharacteristicWrite w status) else none

/-- No permit is taken from before the call, or of another write that was confirmed before that
of the call. -/
def WriteGuard (s : WriteSystem) (e : WriteEvent) : Prop := e = .acquire → s.permits.stale = 0

instance (s : WriteSystem) (e : WriteEvent) : Decidable (WriteGuard s e) :=
  inferInstanceAs (Decidable (_ → _))

/-! ## The invariant -/

/-- Only accepted writes are outstanding or confirmed, a fresh permit tells that the write of
the call in progress is confirmed, and every `true` was meant. -/
structure Tracked (s : WriteSystem) : Prop where
  outstanding : ∀ w ∈ s.outstanding, .accepted w ∈ s.history
  confirmed : ∀ w, .confirmed w ∈ s.history → .accepted w ∈ s.history
  fresh : ∀ call ∈ s.call, 0 < s.permits.fresh → .confirmed call.write ∈ s.history
  acknowledged : Acknowledged s.history

theorem tracked_init : Tracked WriteSystem.init := by
  refine ⟨?_, ?_, ?_, trivial⟩
  · intro w hw
    cases hw
  · intro w hw
    cases hw
  · intro call hcall
    cases hcall

/-- The end of a call: `true` has to be meant. -/
theorem Tracked.endCall {s : WriteSystem} (h : Tracked s) (w : RawWrite) {result : Bool}
    (hmeant : result = true → .confirmed w ∈ s.history) : Tracked (s.endCall w result) := by
  refine ⟨?_, ?_, ?_, ?_⟩
  · intro w' hw'
    exact List.mem_cons_of_mem _ (h.outstanding w' hw')
  · intro w' hw'
    have hconfirmed : .confirmed w' ∈ s.history := by
      simpa [WriteSystem.endCall] using hw'
    exact List.mem_cons_of_mem _ (h.confirmed w' hconfirmed)
  · intro call hcall
    cases hcall
  · cases result with
    | true =>
      have hconfirmed := hmeant rfl
      exact ⟨h.confirmed w hconfirmed, hconfirmed, h.acknowledged⟩
    | false => exact h.acknowledged

/-- The call goes on to wait. -/
theorem Tracked.waits {s : WriteSystem} (h : Tracked s) {w : RawWrite}
    (hcall : s.call = some (.drained w)) : Tracked { s with call := some (.waits w) } := by
  refine ⟨h.outstanding, h.confirmed, ?_, h.acknowledged⟩
  rintro call hwaits hfresh
  cases hwaits
  exact h.fresh (.drained w) hcall hfresh

theorem Tracked.write {s : WriteSystem} (h : Tracked s) {w : RawWrite}
    (hcall : s.call = some (.drained w)) (answer : Bool) : Tracked (s.write w answer) := by
  have hwaits := h.waits hcall
  unfold WriteSystem.write
  split
  · exact h.endCall w (by simp)
  · exact hwaits
  · split
    · -- the data was accepted
      refine ⟨?_, ?_, ?_, h.acknowledged⟩
      · intro w' hw'
        rcases List.mem_cons.1 hw' with rfl | hw'
        · exact List.mem_cons_self
        · exact List.mem_cons_of_mem _ (h.outstanding w' hw')
      · intro w' hw'
        have hconfirmed : .confirmed w' ∈ s.history := by
          simpa using hw'
        exact List.mem_cons_of_mem _ (h.confirmed w' hconfirmed)
      · intro call hwait hfresh
        exact List.mem_cons_of_mem _ (hwaits.fresh call hwait hfresh)
    · exact hwaits

/-- A callback of the stack. -/
theorem Tracked.onCharacteristicWrite {s : WriteSystem} (h : Tracked s) {w : RawWrite}
    (hw : w ∈ s.outstanding) (status : ℤ) : Tracked (s.onCharacteristicWrite w status) := by
  unfold WriteSystem.onCharacteristicWrite
  simp only
  split
  · refine ⟨?_, ?_, ?_, h.acknowledged⟩
    · intro w' hw'
      exact List.mem_cons_of_mem _ (h.outstanding w' (List.mem_of_mem_erase hw'))
    · intro w' hw'
      rcases List.mem_cons.1 hw' with heq | hw'
      · cases heq
        exact List.mem_cons_of_mem _ (h.outstanding w hw)
      · exact List.mem_cons_of_mem _ (h.confirmed w' hw')
    · intro call hcall hfresh
      by_cases hmeant : s.Meant w
      · obtain ⟨call', hcall', hcases⟩ := hmeant
        obtain rfl := Option.mem_unique hcall hcall'
        rcases hcases with rfl | hconfirmed
        · exact List.mem_cons_self
        · exact List.mem_cons_of_mem _ hconfirmed
      · simp only [if_neg hmeant, Permits.fresh_releaseStale] at hfresh
        exact List.mem_cons_of_mem _ (h.fresh call hcall hfresh)
  · refine ⟨?_, h.confirmed, h.fresh, h.acknowledged⟩
    intro w' hw'
    exact h.outstanding w' (List.mem_of_mem_erase hw')

/-- A permit is taken that is not stale. -/
theorem Tracked.acquire {s : WriteSystem} (h : Tracked s) {w : RawWrite}
    (hcall : s.call = some (.waits w)) (hstale : s.permits.stale = 0)
    (hpos : 0 < s.permits.total) :
    Tracked ({ s with permits := s.permits.take }.endCall w true) := by
  have hfresh := Permits.fresh_pos hstale hpos
  have htaken : Tracked { s with permits := s.permits.take } := by
    refine ⟨h.outstanding, h.confirmed, ?_, h.acknowledged⟩
    intro call hcall hleft
    exact h.fresh call hcall (Nat.lt_of_lt_of_le hleft (Permits.fresh_take_le _))
  exact htaken.endCall w fun _ => h.fresh (.waits w) hcall hfresh

/-- **The step lemma.** -/
theorem writeStep_tracked (s : WriteSystem) (e : WriteEvent) (s' : WriteSystem) (h : Tracked s)
    (hguard : WriteGuard s e) (hstep : writeStep s e = some s') : Tracked s' := by
  cases e with
  | le e =>
    obtain ⟨le, -, rfl⟩ := Option.map_eq_some_iff.1 hstep
    exact ⟨h.outstanding, h.confirmed, h.fresh, h.acknowledged⟩
  | writeRawData data =>
    simp only [writeStep] at hstep
    split at hstep
    · cases hstep
      refine ⟨h.outstanding, h.confirmed, ?_, h.acknowledged⟩
      intro call _ hfresh
      simp at hfresh
    · cases hstep
  | writeData answer =>
    simp only [writeStep] at hstep
    split at hstep
    · rename_i w hcall
      cases hstep
      exact h.write hcall answer
    · cases hstep
  | acquire =>
    simp only [writeStep] at hstep
    split at hstep
    · rename_i w hcall
      split at hstep
      · rename_i hpos
        cases hstep
        exact h.acquire hcall (hguard rfl) hpos
      · cases hstep
    · cases hstep
  | timeout =>
    simp only [writeStep] at hstep
    split at hstep
    · rename_i w hcall
      split at hstep
      · cases hstep
        exact h.endCall w (by simp)
      · cases hstep
    · cases hstep
  | characteristicWrite w status =>
    simp only [writeStep] at hstep
    split at hstep
    · rename_i hw
      cases hstep
      exact h.onCharacteristicWrite hw status
    · cases hstep

/-! ## Every run -/

/-- **An acknowledgement belongs to its write**: in every run in which no stale permit is taken,
`writeRawData` returns `true` only for data that a connection accepted and whose success has
come. -/
theorem acknowledged {es : List WriteEvent} {s : WriteSystem}
    (hguard : Along writeStep WriteGuard WriteSystem.init es)
    (hrun : run writeStep WriteSystem.init es = some s) : Acknowledged s.history :=
  (run_inv writeStep_tracked tracked_init hguard hrun).acknowledged

/-- The train is connected, and some data is written. -/
def trainWritten : List WriteEvent :=
  trainSetup.map .le ++
    [.writeRawData [1], .writeData true, .characteristicWrite ⟨0, [1]⟩ gattSuccess, .acquire]

theorem acknowledged_train :
    ∃ s, run writeStep WriteSystem.init trainWritten = some s ∧
      s.history = [.returned ⟨0, [1]⟩ true, .confirmed ⟨0, [1]⟩, .accepted ⟨0, [1]⟩] ∧
        Acknowledged s.history := by
  have hguard : Along writeStep WriteGuard WriteSystem.init trainWritten :=
    alongb_sound (g := fun s e => decide (WriteGuard s e)) (fun _ _ => of_decide_eq_true)
      (by decide)
  have hrun : ∃ s, run writeStep WriteSystem.init trainWritten = some s ∧
      s.history = [.returned ⟨0, [1]⟩ true, .confirmed ⟨0, [1]⟩, .accepted ⟨0, [1]⟩] :=
    ⟨_, (Option.some_get (by decide)).symm, by decide⟩
  obtain ⟨s, hs, hhistory⟩ := hrun
  exact ⟨s, hs, hhistory, acknowledged hguard hs⟩

/-- The first write is not confirmed in time.  The stack does not take the second one, and then
calls back for the first. -/
def trainLate : List WriteEvent :=
  trainSetup.map .le ++
    [.writeRawData [1], .writeData true, .timeout,
      .writeRawData [2], .writeData false, .characteristicWrite ⟨0, [1]⟩ gattSuccess, .acquire]

/-- The second call returns `true`, and its data was not accepted. -/
theorem late_acknowledgement :
    ¬ ∀ (es : List WriteEvent) (s : WriteSystem), run writeStep WriteSystem.init es = some s →
      Acknowledged s.history := by
  intro h
  have hrun : ∃ s, run writeStep WriteSystem.init trainLate = some s ∧
      s.history = [.returned ⟨1, [2]⟩ true, .confirmed ⟨0, [1]⟩, .returned ⟨0, [1]⟩ false,
        .accepted ⟨0, [1]⟩] :=
    ⟨_, (Option.some_get (by decide)).symm, by decide⟩
  obtain ⟨s, hs, hhistory⟩ := hrun
  have hack := h trainLate s hs
  rw [hhistory] at hack
  simp [Acknowledged] at hack

end App
