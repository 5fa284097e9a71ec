import LegoTrain.App.Readiness
import LegoTrain.Lib.Permits

/-!
# The calls that wait for a connection

`waitNewConnection`, `makeNewConnection` and `connectIfNeeded` of `BluetoothLeService.kt`, any
number of them at a time, among the events of the Bluetooth stack and of the app.  `con_sem` is
released at every success of a CCC write, and it is drained by `clearConnnectionStatus` and
`connectIfNeeded` only.

* `ConCall.turn` : a turn of the loop of a call;
* `ConSystem`, `conStep` : the calls over `leStep`;
* `NewlyReady` : what `true` is meant to say;
* `ConGuard`, `newly_ready` : it says so when no old permit is taken;
* `old_connection` : a permit of a connection that was lost.
-/

namespace App

open BluetoothLeService Transition

/-! ## The calls -/

/-- A call that waits for `con_sem`, with its `timeout`. -/
inductive ConCall
  | waitNewConnection (timeout : ℕ)
  | makeNewConnection (timeout : ℕ)
  /-- in `con_sem.acquire()` -/
  | connectIfNeeded
  deriving DecidableEq, Repr

/-- What a turn of the loop comes to. -/
inductive ConTurn
  | waits (call : ConCall)
  | returns (result : Bool)
  /-- `connectIfNeeded` returns nothing -/
  | done
  deriving DecidableEq, Repr

namespace ConCall

/-- The turn begins with `con_sem.tryAcquire()`. -/
def tries : ConCall → Bool
  | .makeNewConnection timeout => timeout ≠ 0
  | _ => true

/-- The call reports a new connection. -/
def reports : ConCall → Bool
  | .connectIfNeeded => false
  | _ => true

/-- A turn of the loop, up to the next `delay(1)` or the end of the call. -/
def turn (acquired : Bool) : ConCall → ConTurn
  | .waitNewConnection timeout =>
    if acquired then .returns (¬ 5000 < timeout)
    else if 5000 < timeout + 1 then .returns (¬ 5000 < timeout + 1)
    else .waits (.waitNewConnection (timeout + 1))
  | .makeNewConnection timeout =>
    if timeout = 0 ∨ acquired then .returns (timeout ≠ 0)
    else .waits (.makeNewConnection (timeout - 1))
  | .connectIfNeeded => if acquired then .done else .waits .connectIfNeeded

end ConCall

/-! ## The system -/

/-- What has happened to the connection, as far as it matters for `con_sem`. -/
inductive ConNote
  /-- a CCC write succeeded -/
  | ready
  | cleared
  /-- the connection in use was lost -/
  | lost
  /-- `waitNewConnection` or `makeNewConnection` returned -/
  | returned (result : Bool)
  deriving DecidableEq, Repr

/-- What `true` is not to be older than. -/
def ConNote.isMark : ConNote → Bool
  | .ready => false
  | .cleared => true
  | .lost => true
  | .returned result => result

/-- What has happened since the last mark; the newest comes first. -/
def sinceMark (history : List ConNote) : List ConNote := history.takeWhile fun n => !n.isMark

/-- Each `true` comes after a CCC write that came after the marks before it. -/
def NewlyReady : List ConNote → Prop
  | [] => True
  | .returned true :: history => .ready ∈ sinceMark history ∧ NewlyReady history
  | _ :: history => NewlyReady history

/-- The service, the calls that wait, and what has happened. -/
structure ConSystem where
  le : LeSystem
  calls : List ConCall
  /-- the permits of `con_sem`; those from before the last mark are stale -/
  permits : Permits
  history : List ConNote
  deriving DecidableEq, Repr

/-- `con_sem` begins with one permit. -/
def ConSystem.init : ConSystem := ⟨.init, [], ⟨1, 0⟩, []⟩

/-- What may happen. -/
inductive ConEvent
  /-- an event of the stack, or a call; those of `makeNewConnection` and `connectIfNeeded` go
  on to wait -/
  | le (e : LeEvent)
  | waitNewConnection
  /-- a turn of the loop of the `i`-th call -/
  | turn (i : ℕ)
  /-- the coroutine of the `i`-th call is cancelled -/
  | cancelled (i : ℕ)
  deriving DecidableEq, Repr

/-- An event loses the connection in use. -/
def Loses (s : BluetoothLeService) (e : LeEvent) : Prop :=
  s.bluetoothGatt ≠ none ∧ (linkChange s e = .retries ∨ linkChange s e = .closes)

instance (s : BluetoothLeService) (e : LeEvent) : Decidable (Loses s e) :=
  inferInstanceAs (Decidable (_ ∧ _))

namespace ConSystem

/-- What an event is for the history. -/
def notes (s : ConSystem) : LeEvent → List ConNote
  | .descriptorWrite _ status => if status = gattSuccess then [.ready] else []
  | .clearConnnectionStatus => [.cleared]
  | e => if Loses s.le.service e then [.lost] else []

/-- The permits after an event. -/
def permitsAfter (s : ConSystem) : LeEvent → Permits
  | .descriptorWrite _ status => if status = gattSuccess then s.permits.release else s.permits
  | .clearConnnectionStatus => .drain
  | .connectIfNeeded _ => if s.le.service.isConnected then s.permits else .drain
  | e => if Loses s.le.service e then s.permits.age else s.permits

/-- The call that an event begins. -/
def begins (s : ConSystem) : LeEvent → List ConCall
  | .makeNewConnection _ => [.makeNewConnection 10000]
  | .connectIfNeeded _ => if s.le.service.isConnected then [] else [.connectIfNeeded]
  | _ => []

/-- The system after an event of the service. -/
def advance (s : ConSystem) (e : LeEvent) (le : LeSystem) : ConSystem where
  le := le
  calls := s.calls ++ s.begins e
  permits := s.permitsAfter e
  history := s.notes e ++ s.history

/-- A permit is taken. -/
def acquire (s : ConSystem) (le : LeSystem) : ConSystem :=
  { s with le := le, permits := s.permits.take }

/-- The `i`-th call goes on, or is over. -/
def endTurn (s : ConSystem) (i : ℕ) : ConTurn → ConSystem
  | .waits call => { s with calls := s.calls.set i call }
  | .done => { s with calls := s.calls.eraseIdx i }
  | .returns result =>
    { s with
      calls := s.calls.eraseIdx i
      permits := if result then s.permits.age else s.permits
      history := .returned result :: s.history }

/-- A turn of the loop of a call. -/
def turn (s : ConSystem) (i : ℕ) (call : ConCall) : ConSystem :=
  if call.tries then
    match leStep s.le .tryAcquire with
    | some le => (s.acquire le).endTurn i (call.turn true)
    | none => s.endTurn i (call.turn false)
  else s.endTurn i (call.turn false)

end ConSystem

/-- A step of the system. -/
def conStep (s : ConSystem) : ConEvent → Option ConSystem
  | .le e => if e = .tryAcquire then none else (leStep s.le e).map (s.advance e)
  | .waitNewConnection => some { s with calls := s.calls ++ [.waitNewConnection 0] }
  | .turn i => s.calls[i]?.map (s.turn i)
  | .cancelled i => some { s with calls := s.calls.eraseIdx i }

/-- A call that reports a new connection takes no permit from before the last mark. -/
def ConGuard (s : ConSystem) : ConEvent → Prop
  | .turn i =>
    ∀ call ∈ s.calls[i]?, call.reports → 0 < s.le.service.conSem → s.permits.stale = 0
  | _ => True

instance (s : ConSystem) (e : ConEvent) : Decidable (ConGuard s e) := by
  cases e <;> unfold ConGuard <;> infer_instance

/-! ## The permits -/

namespace BluetoothLeService

@[simp] theorem conSem_connectToDevice (s : BluetoothLeService) (address : String)
    (conn : ConnectGatt) : (s.connectToDevice address conn).conSem = s.conSem := by
  unfold connectToDevice
  split
  · rfl
  · cases conn <;> rfl

@[simp] theorem conSem_reconnect (s : BluetoothLeService) (conn : ConnectGatt) :
    (s.reconnect conn).conSem = s.conSem := by
  unfold reconnect
  split
  · simp
  · rfl

@[simp] theorem conSem_closeGattConnection (s : BluetoothLeService) :
    s.closeGattConnection.conSem = s.conSem := rfl

@[simp] theorem conSem_retryConnect (s : BluetoothLeService) (conn : ConnectGatt) :
    (s.retryConnect conn).1.conSem = s.conSem := by
  unfold retryConnect
  split
  · simp only
    split
    · simp
    · rfl
  · rfl

@[simp] theorem conSem_onConnectionStateChange (s : BluetoothLeService) (gatt : Option Gatt)
    (status newState : ℤ) (conn : ConnectGatt) :
    (s.onConnectionStateChange gatt status newState conn).1.conSem = s.conSem := by
  unfold onConnectionStateChange
  split
  · split
    · rfl
    · split
      · simp
      · rfl
  · simp

@[simp] theorem conSem_onServicesDiscovered (s : BluetoothLeService) (services : List GattService)
    (status : ℤ) (conn : ConnectGatt) :
    (s.onServicesDiscovered services status conn).1.conSem = s.conSem := by
  have hgrab := (grabServices_sameLink s services).conSem
  unfold onServicesDiscovered
  split
  · simp only
    split
    · simpa using hgrab
    · exact hgrab
  · simp

end BluetoothLeService

/-- An event that neither releases nor takes permits. -/
def LeEvent.OffSem : LeEvent → Prop
  | .descriptorWrite _ _ => False
  | .clearConnnectionStatus => False
  | .connectIfNeeded _ => False
  | .tryAcquire => False
  | _ => True

theorem conSem_after {s s' : BluetoothLeService} {n : ℕ} {e : LeEvent} (he : e.OffSem)
    (h : s.after n e = some s') : s'.conSem = s.conSem := by
  cases e with
  | descriptorWrite c status => exact he.elim
  | clearConnnectionStatus => exact he.elim
  | connectIfNeeded answer => exact he.elim
  | tryAcquire => exact he.elim
  | addRuns i =>
    simp only [after] at h
    split at h
    · cases h
      rfl
    · cases h
  | connectToDevice address answer =>
    cases h
    exact conSem_connectToDevice _ _ _
  | makeNewConnection answer =>
    cases h
    exact conSem_reconnect _ _
  | connectionStateChange gatt status newState answer =>
    cases h
    exact conSem_onConnectionStateChange _ _ _ _ _
  | servicesDiscovered gatt services status answer =>
    cases h
    exact conSem_onServicesDiscovered _ _ _ _
  | _ =>
    cases h
    rfl

/-- `connectIfNeeded` loses no connection. -/
theorem not_loses_connectIfNeeded (s : BluetoothLeService) (answer : ConnectAnswer) :
    ¬ Loses s (.connectIfNeeded answer) := by
  rintro ⟨-, h⟩
  simp only [linkChange] at h
  split at h <;> simp at h

/-! ## The invariant -/

/-- Every permit is accounted for, the fresh ones came after the last mark, and every `true`
was meant. -/
structure Accounted (s : ConSystem) : Prop where
  permits : s.le.service.conSem = s.permits.total
  fresh : s.permits.fresh ≤ (sinceMark s.history).count .ready
  newlyReady : NewlyReady s.history

theorem accounted_init : Accounted ConSystem.init := ⟨rfl, Nat.le_refl _, trivial⟩

/-- Nothing happens to the permits. -/
theorem Accounted.same {s : ConSystem} (h : Accounted s) {e : LeEvent} {le : LeSystem}
    (hconSem : le.service.conSem = s.le.service.conSem)
    (hpermits : s.permitsAfter e = s.permits) (hnotes : s.notes e = []) :
    Accounted (s.advance e le) := by
  refine ⟨?_, ?_, ?_⟩
  · simp [ConSystem.advance, hpermits, hconSem, h.permits]
  · simpa [ConSystem.advance, hpermits, hnotes] using h.fresh
  · simpa [ConSystem.advance, hnotes] using h.newlyReady

/-- A loss makes the permits stale. -/
theorem Accounted.lose {s : ConSystem} (h : Accounted s) {e : LeEvent} {le : LeSystem}
    (hconSem : le.service.conSem = s.le.service.conSem)
    (hpermits : s.permitsAfter e = if Loses s.le.service e then s.permits.age else s.permits)
    (hnotes : s.notes e = if Loses s.le.service e then [.lost] else []) :
    Accounted (s.advance e le) := by
  by_cases hlose : Loses s.le.service e
  · rw [if_pos hlose] at hpermits hnotes
    refine ⟨?_, ?_, ?_⟩
    · simp [ConSystem.advance, hpermits, hconSem, h.permits]
    · simp [ConSystem.advance, hpermits]
    · simpa [ConSystem.advance, hnotes, NewlyReady] using h.newlyReady
  · rw [if_neg hlose] at hpermits hnotes
    exact h.same hconSem hpermits hnotes

/-- An event of the service. -/
theorem Accounted.advance {s : ConSystem} (h : Accounted s) {e : LeEvent} {le : LeSystem}
    (he : e ≠ .tryAcquire) (hstep : leStep s.le e = some le) : Accounted (s.advance e le) := by
  obtain ⟨-, service, hafter, rfl⟩ := leStep_eq_some.1 hstep
  cases e with
  | tryAcquire => exact absurd rfl he
  | descriptorWrite c status =>
    cases hafter
    by_cases hstatus : status = gattSuccess
    · refine ⟨?_, ?_, ?_⟩
      · simp [ConSystem.advance, ConSystem.permitsAfter, LeSystem.advance, onDescriptorWrite,
          hstatus, h.permits]
      · simpa [ConSystem.advance, ConSystem.permitsAfter, ConSystem.notes, hstatus, sinceMark,
          ConNote.isMark] using h.fresh
      · simpa [ConSystem.advance, ConSystem.notes, hstatus, NewlyReady] using h.newlyReady
    · exact h.same (by simp [LeSystem.advance, onDescriptorWrite, hstatus])
        (by simp [ConSystem.permitsAfter, hstatus]) (by simp [ConSystem.notes, hstatus])
  | clearConnnectionStatus =>
    cases hafter
    refine ⟨rfl, Nat.zero_le _, ?_⟩
    simpa [ConSystem.advance, ConSystem.notes, NewlyReady] using h.newlyReady
  | connectIfNeeded answer =>
    have hnotes : s.notes (.connectIfNeeded answer) = [] :=
      if_neg (not_loses_connectIfNeeded s.le.service answer)
    simp only [after] at hafter
    by_cases hconn : s.le.service.isConnected = true
    · rw [if_pos hconn] at hafter
      cases hafter
      exact h.same rfl (by simp [ConSystem.permitsAfter, hconn]) hnotes
    · rw [if_neg hconn] at hafter
      cases hafter
      refine ⟨?_, ?_, ?_⟩
      · simp [ConSystem.advance, ConSystem.permitsAfter, LeSystem.advance, hconn,
          clearConnnectionStatus]
      · simp [ConSystem.advance, ConSystem.permitsAfter, hconn]
      · simpa [ConSystem.advance, hnotes] using h.newlyReady
  | _ =>
    refine h.lose (conSem_after ?_ hafter) rfl rfl
    trivial

/-! ### A turn of a loop -/

/-- A permit is taken. -/
theorem Accounted.acquire {s : ConSystem} (h : Accounted s) {le : LeSystem}
    (hstep : leStep s.le .tryAcquire = some le) :
    0 < s.le.service.conSem ∧ Accounted (s.acquire le) := by
  obtain ⟨-, service, hafter, rfl⟩ := leStep_eq_some.1 hstep
  simp only [after, tryAcquire] at hafter
  split at hafter
  · rename_i hpos
    cases hafter
    refine ⟨hpos, ?_, ?_, h.newlyReady⟩
    · simp [ConSystem.acquire, LeSystem.advance, h.permits]
    · exact Nat.le_trans (Permits.fresh_take_le _) h.fresh
  · cases hafter

/-- A loop that took no permit does not return `true`. -/
theorem ConCall.turn_false (call : ConCall) : call.turn false ≠ .returns true := by
  intro h
  cases call with
  | waitNewConnection timeout =>
    by_cases hover : 5000 < timeout + 1
    · simp [turn, hover] at h
    · simp [turn, hover] at h
  | makeNewConnection timeout =>
    by_cases hover : timeout = 0
    · simp [turn, hover] at h
    · simp [turn, hover] at h
  | connectIfNeeded => cases h

/-- `connectIfNeeded` returns nothing. -/
theorem ConCall.reports_of_turn {call : ConCall} {acquired result : Bool}
    (h : call.turn acquired = .returns result) : call.reports = true := by
  cases call with
  | connectIfNeeded => cases acquired <;> cases h
  | _ => rfl

/-- The end of a turn: `true` has to be meant. -/
theorem Accounted.endTurn {s : ConSystem} (h : Accounted s) (i : ℕ) {t : ConTurn}
    (hmeant : t = .returns true → .ready ∈ sinceMark s.history) : Accounted (s.endTurn i t) := by
  cases t with
  | waits call => exact ⟨h.permits, h.fresh, h.newlyReady⟩
  | done => exact ⟨h.permits, h.fresh, h.newlyReady⟩
  | returns result =>
    cases result with
    | true => exact ⟨h.permits, Nat.zero_le _, hmeant rfl, h.newlyReady⟩
    | false => exact ⟨h.permits, h.fresh, h.newlyReady⟩

/-- A fresh permit is there only after a CCC write. -/
theorem Accounted.ready_of_fresh {s : ConSystem} (h : Accounted s) (hstale : s.permits.stale = 0)
    (hpos : 0 < s.le.service.conSem) : .ready ∈ sinceMark s.history := by
  rw [h.permits] at hpos
  have hfresh := Permits.fresh_pos hstale hpos
  exact List.count_pos_iff.1 (Nat.lt_of_lt_of_le hfresh h.fresh)

theorem Accounted.turn {s : ConSystem} (h : Accounted s) (i : ℕ) {call : ConCall}
    (hguard : call.reports → 0 < s.le.service.conSem → s.permits.stale = 0) :
    Accounted (s.turn i call) := by
  have hidle : Accounted (s.endTurn i (call.turn false)) :=
    h.endTurn i fun ht => absurd ht call.turn_false
  unfold ConSystem.turn
  split
  · split
    · rename_i le hstep
      obtain ⟨hpos, hacquire⟩ := h.acquire hstep
      refine hacquire.endTurn i fun ht => ?_
      exact h.ready_of_fresh (hguard (ConCall.reports_of_turn ht) hpos) hpos
    · exact hidle
  · exact hidle

/-- **The step lemma.** -/
theorem conStep_accounted (s : ConSystem) (e : ConEvent) (s' : ConSystem) (h : Accounted s)
    (hguard : ConGuard s e) (hstep : conStep s e = some s') : Accounted s' := by
  cases e with
  | le e =>
    simp only [conStep] at hstep
    split at hstep
    · cases hstep
    · rename_i he
      obtain ⟨le, hle, rfl⟩ := Option.map_eq_some_iff.1 hstep
      exact h.advance he hle
  | waitNewConnection =>
    cases hstep
    exact ⟨h.permits, h.fresh, h.newlyReady⟩
  | turn i =>
    obtain ⟨call, hcall, rfl⟩ := Option.map_eq_some_iff.1 hstep
    exact h.turn i (hguard call hcall)
  | cancelled i =>
    cases hstep
    exact ⟨h.permits, h.fresh, h.newlyReady⟩

/-! ## Every run -/

/-- **A new connection is a new one**: in every run in which no old permit is taken by a call
that reports one, each `true` comes after a CCC write that came after the last clear, the last
`true` and the last loss. -/
theorem newly_ready {es : List ConEvent} {s : ConSystem}
    (hguard : Along conStep ConGuard ConSystem.init es)
    (hrun : run conStep ConSystem.init es = some s) : NewlyReady s.history :=
  (run_inv conStep_accounted accounted_init hguard hrun).newlyReady

/-- The permits are drained, the train is connected, and `waitNewConnection` is told so. -/
def trainAwaited : List ConEvent :=
  [.le .clearConnnectionStatus, .waitNewConnection, .turn 0] ++ trainSetup.map .le ++ [.turn 0]

theorem newly_ready_train :
    ∃ s, run conStep ConSystem.init trainAwaited = some s ∧
      s.history = [.returned true, .ready, .cleared] ∧ NewlyReady s.history := by
  have hguard : Along conStep ConGuard ConSystem.init trainAwaited :=
    alongb_sound (g := fun s e => decide (ConGuard s e)) (fun _ _ => of_decide_eq_true)
      (by decide)
  have hrun : ∃ s, run conStep ConSystem.init trainAwaited = some s ∧
      s.history = [.returned true, .ready, .cleared] :=
    ⟨_, (Option.some_get (by decide)).symm, by decide⟩
  obtain ⟨s, hs, hhistory⟩ := hrun
  exact ⟨s, hs, hhistory, newly_ready hguard hs⟩

/-- The permits are drained, the train is connected, and lost before `waitNewConnection`. -/
def trainLost : List ConEvent :=
  .le .clearConnnectionStatus :: trainSetup.map .le ++
    [.le (.connectionStateChange trainGatt gattSuccess stateDisconnected .exception),
      .waitNewConnection, .turn 0]

/-- `waitNewConnection` returns `true`, and there is no connection. -/
theorem old_connection :
    ¬ ∀ (es : List ConEvent) (s : ConSystem), run conStep ConSystem.init es = some s →
      NewlyReady s.history := by
  intro h
  have hrun : ∃ s, run conStep ConSystem.init trainLost = some s ∧
      s.le.service.bluetoothGatt = none ∧
        s.history = [.returned true, .lost, .ready, .cleared] :=
    ⟨_, (Option.some_get (by decide)).symm, by decide, by decide⟩
  obtain ⟨s, hs, -, hhistory⟩ := hrun
  have hready := h trainLost s hs
  rw [hhistory] at hready
  simp [NewlyReady, sinceMark, ConNote.isMark] at hready

end App
