import LegoTrain.App.LeService

/-!
# The reconnections of the app

How often `retry_connect` tries again when every connection fails.  The counter that
`retry_connect` takes down is set to 20 by `connectToDevice` when it is 0, also when
`retry_connect` itself is the caller.

* `retries` : a sequence of callbacks, with what `retry_connect` does;
* `reconnect_bounded_iff` : when the reconnections end;
* `reconnect_unbounded` : 21 failures, and still no end.
-/

namespace App

open BluetoothLeService

/-- A callback about the connection. -/
inductive LinkCallback
  | connectionStateChange (gatt : Option Gatt) (status newState : ℤ) (conn : ConnectGatt)
  | servicesDiscovered (services : List GattService) (status : ℤ) (conn : ConnectGatt)
  deriving DecidableEq, Repr

/-- The service after a callback, and what `retry_connect` does in it. -/
def linkCallback (s : BluetoothLeService) : LinkCallback → BluetoothLeService × List Retry
  | .connectionStateChange gatt status newState conn =>
    s.onConnectionStateChange gatt status newState conn
  | .servicesDiscovered services status conn => s.onServicesDiscovered services status conn

/-- What `retry_connect` does in a sequence of callbacks. -/
def retries (s : BluetoothLeService) : List LinkCallback → List Retry
  | [] => []
  | c :: cs => (linkCallback s c).2 ++ retries (linkCallback s c).1 cs

/-- A failure: an error status, `STATE_DISCONNECTED`, or a discovery that fails or leaves a
handle open. -/
def IsFailure (s : BluetoothLeService) : LinkCallback → Prop
  | .connectionStateChange _ status newState _ =>
    status ≠ gattSuccess ∨ newState = stateDisconnected
  | .servicesDiscovered services status _ =>
    status ≠ gattSuccess ∨ (s.grabServices services).writeHandle = none ∨
      (s.grabServices services).readHandle = none

instance (s : BluetoothLeService) (c : LinkCallback) : Decidable (IsFailure s c) := by
  cases c <;> exact inferInstanceAs (Decidable (_ ∨ _))

/-- No success: of the discoveries there are only failures, and the link may only come up for a
connection there is. -/
def NoSuccess (s : BluetoothLeService) : LinkCallback → Prop
  | .connectionStateChange gatt status newState _ =>
    status = gattSuccess → newState = stateConnected → gatt ≠ none
  | .servicesDiscovered services status conn =>
    IsFailure s (.servicesDiscovered services status conn)

instance (s : BluetoothLeService) (c : LinkCallback) : Decidable (NoSuccess s c) := by
  cases c with
  | connectionStateChange gatt status newState conn => exact inferInstanceAs (Decidable (_ → _))
  | servicesDiscovered services status conn => exact inferInstanceAs (Decidable (_ ∨ _))

/-- None of the callbacks is a success. -/
def Unsuccessful (s : BluetoothLeService) : List LinkCallback → Prop
  | [] => True
  | c :: cs => NoSuccess s c ∧ Unsuccessful (linkCallback s c).1 cs

/-- The number of failures. -/
def failures (s : BluetoothLeService) : List LinkCallback → ℕ
  | [] => 0
  | c :: cs => (if IsFailure s c then 1 else 0) + failures (linkCallback s c).1 cs

/-- At most 20 attempts, and `disconnect` when there are more failures. -/
def Bounded (acts : List Retry) (n : ℕ) : Prop :=
  acts.count .attempt ≤ 20 ∧ (20 < n → .disconnect ∈ acts)

/-! ## One callback -/

/-- The counter is up, and there is an address to connect to. -/
structure Armed (s : BluetoothLeService) : Prop where
  manual : s.isRetryConnect = false
  address : s.connectedAddress ≠ none
  retry : 0 < s.userRetry

/-- The counter is down. -/
structure Spent (s : BluetoothLeService) : Prop where
  manual : s.isRetryConnect = false
  retry : s.userRetry = 0

/-- A connection attempt sets the counter again when it is down. -/
theorem connectToDevice_armed {s : BluetoothLeService} (hmanual : s.isRetryConnect = false)
    {address : String} (hnew : ¬ s.AlreadyConnected address) (conn : ConnectGatt) :
    Armed (s.connectToDevice address conn) := by
  have hretry : 0 < if s.userRetry = 0 then 20 else s.userRetry := by
    split <;> omega
  rw [connectToDevice, if_neg hnew]
  cases conn with
  | «exception» => exact ⟨hmanual, by simp, hretry⟩
  | returns gatt => exact ⟨hmanual, by simp, hretry⟩

/-- So `retry_connect` never takes it down for good. -/
theorem retryConnect_armed {s : BluetoothLeService} (h : Armed s) (conn : ConnectGatt) :
    Armed (s.retryConnect conn).1 ∧ (s.retryConnect conn).2 = [.attempt] := by
  obtain ⟨adrs, hadrs⟩ := Option.ne_none_iff_exists'.1 h.address
  rw [retryConnect, if_pos (.inr h.retry)]
  simp only [hadrs]
  refine ⟨connectToDevice_armed ?_ ?_ conn, trivial⟩
  · exact h.manual
  · simp [AlreadyConnected]

theorem retryConnect_spent {s : BluetoothLeService} (h : Spent s) (conn : ConnectGatt) :
    s.retryConnect conn = (s.disconnect, [.disconnect]) := by
  rw [retryConnect, if_neg]
  simp [h.manual, h.retry]

/-- The counter and the address do not depend on what a discovery finds. -/
theorem Armed.grabServices {s : BluetoothLeService} (h : Armed s) (services : List GattService) :
    Armed (s.grabServices services) := by
  have hsame := grabServices_sameLink s services
  refine ⟨?_, ?_, ?_⟩
  · rw [hsame.isRetryConnect]
    exact h.manual
  · rw [hsame.connectedAddress]
    exact h.address
  · rw [hsame.userRetry]
    exact h.retry

theorem Spent.grabServices {s : BluetoothLeService} (h : Spent s) (services : List GattService) :
    Spent (s.grabServices services) := by
  have hsame := grabServices_sameLink s services
  refine ⟨?_, ?_⟩
  · rw [hsame.isRetryConnect]
    exact h.manual
  · rw [hsame.userRetry]
    exact h.retry

/-- A callback without success is a call of `retry_connect`, if it is a failure, and changes
neither the counter nor the address to nothing. -/
theorem linkCallback_cases {s : BluetoothLeService} {c : LinkCallback} (h : NoSuccess s c) :
    (IsFailure s c ∧ ∃ s' conn, linkCallback s c = s'.retryConnect conn ∧
      (Armed s → Armed s') ∧ (Spent s → Spent s')) ∨
    (¬ IsFailure s c ∧ (linkCallback s c).2 = [] ∧
      (Armed s → Armed (linkCallback s c).1) ∧ (Spent s → Spent (linkCallback s c).1)) := by
  cases c with
  | connectionStateChange gatt status newState conn =>
    simp only [linkCallback, onConnectionStateChange, IsFailure]
    by_cases hstatus : status = gattSuccess
    · rw [if_pos hstatus]
      by_cases hconn : newState = stateConnected
      · obtain ⟨g, hg⟩ := Option.ne_none_iff_exists'.1 (h hstatus hconn)
        rw [if_pos hconn]
        refine .inr ⟨?_, rfl, ?_, ?_⟩
        · simp [hstatus, hconn, stateConnected, stateDisconnected]
        · intro harmed
          exact ⟨harmed.manual, by simp [hg], harmed.retry⟩
        · intro hspent
          exact ⟨hspent.manual, hspent.retry⟩
      · rw [if_neg hconn]
        by_cases hdisc : newState = stateDisconnected
        · rw [if_pos hdisc]
          exact .inl ⟨.inr hdisc, s, conn, rfl, id, id⟩
        · rw [if_neg hdisc]
          exact .inr ⟨by simp [hstatus, hdisc], rfl, id, id⟩
    · rw [if_neg hstatus]
      refine .inl ⟨.inl hstatus, s.closeGattConnection, conn, rfl, ?_, ?_⟩
      · intro harmed
        exact ⟨harmed.manual, harmed.address, harmed.retry⟩
      · intro hspent
        exact ⟨hspent.manual, hspent.retry⟩
  | servicesDiscovered services status conn =>
    refine .inl ⟨h, ?_⟩
    simp only [linkCallback, onServicesDiscovered]
    by_cases hstatus : status = gattSuccess
    · rw [if_pos hstatus, if_pos]
      · exact ⟨_, conn, rfl, fun harmed => harmed.grabServices services,
          fun hspent => hspent.grabServices services⟩
      · rcases h with hne | hhandle
        · exact absurd hstatus hne
        · exact hhandle
    · rw [if_neg hstatus]
      exact ⟨s, conn, rfl, id, id⟩

/-! ## A sequence of failures -/

/-- While the counter is up, every failure leads to another attempt. -/
theorem retries_armed {s : BluetoothLeService} (h : Armed s) {cs : List LinkCallback}
    (hcs : Unsuccessful s cs) : retries s cs = List.replicate (failures s cs) .attempt := by
  induction cs generalizing s with
  | nil => rfl
  | cons c cs ih =>
    rcases linkCallback_cases hcs.1 with
      ⟨hfail, s', conn, heq, harmed, -⟩ | ⟨hfail, hacts, harmed, -⟩
    · have hretry := retryConnect_armed (harmed h) conn
      have hrest : Armed (linkCallback s c).1 := by
        rw [heq]
        exact hretry.1
      rw [retries, failures, if_pos hfail, ih hrest hcs.2, Nat.add_comm, List.replicate_succ, heq,
        hretry.2]
      rfl
    · rw [retries, failures, if_neg hfail, ih (harmed h) hcs.2, hacts, Nat.zero_add]
      rfl

/-- While it is down, every failure leads to `disconnect`. -/
theorem retries_spent {s : BluetoothLeService} (h : Spent s) {cs : List LinkCallback}
    (hcs : Unsuccessful s cs) : retries s cs = List.replicate (failures s cs) .disconnect := by
  induction cs generalizing s with
  | nil => rfl
  | cons c cs ih =>
    rcases linkCallback_cases hcs.1 with
      ⟨hfail, s', conn, heq, -, hspent⟩ | ⟨hfail, hacts, -, hspent⟩
    · rw [retryConnect_spent (hspent h)] at heq
      have hrest : Spent (linkCallback s c).1 := by
        rw [heq]
        exact ⟨(hspent h).manual, (hspent h).retry⟩
      rw [retries, failures, if_pos hfail, ih hrest hcs.2, Nat.add_comm, List.replicate_succ, heq]
      rfl
    · rw [retries, failures, if_neg hfail, ih (hspent h) hcs.2, hacts, Nat.zero_add]
      rfl

/-- **When the reconnections end**: the failures after a call of `connectToDevice` meet with at
most 20 attempts and then `disconnect` exactly when there are no more than 20 of them, or the
call found the device connected and the counter down. -/
theorem reconnect_bounded_iff {s : BluetoothLeService} (hmanual : s.isRetryConnect = false)
    (address : String) (conn : ConnectGatt) {cs : List LinkCallback}
    (hcs : Unsuccessful (s.connectToDevice address conn) cs) :
    Bounded (retries (s.connectToDevice address conn) cs)
        (failures (s.connectToDevice address conn) cs) ↔
      failures (s.connectToDevice address conn) cs ≤ 20 ∨
        (s.AlreadyConnected address ∧ s.userRetry = 0) := by
  by_cases hspent : s.AlreadyConnected address ∧ s.userRetry = 0
  · have hs : s.connectToDevice address conn = s := if_pos hspent.1
    rw [hs] at hcs ⊢
    rw [retries_spent ⟨hmanual, hspent.2⟩ hcs]
    refine iff_of_true ⟨?_, ?_⟩ (.inr hspent)
    · simp [List.count_replicate]
    · intro hlt
      simp only [List.mem_replicate, and_true]
      omega
  · have harmed : Armed (s.connectToDevice address conn) := by
      by_cases hconn : s.AlreadyConnected address
      · have hs : s.connectToDevice address conn = s := if_pos hconn
        rw [hs]
        refine ⟨hmanual, by simp [hconn.1], ?_⟩
        have hne : s.userRetry ≠ 0 := fun h0 => hspent ⟨hconn, h0⟩
        omega
      · exact connectToDevice_armed hmanual hconn conn
    rw [retries_armed harmed hcs, Bounded]
    simp only [hspent, or_false, List.count_replicate_self, List.mem_replicate]
    constructor
    · exact fun h => h.1
    · intro h
      exact ⟨h, fun hlt => by omega⟩

/-- The connection to a train. -/
def trainGatt : Gatt := ⟨0, "00:11:22:33:44:55"⟩

/-- A connection that fails with an error, `n` times. -/
theorem errors_spec (s : BluetoothLeService) (gatt : Option Gatt) {status : ℤ}
    (hstatus : status ≠ gattSuccess) (newState : ℤ) (conn : ConnectGatt) (n : ℕ) :
    Unsuccessful s (List.replicate n (.connectionStateChange gatt status newState conn)) ∧
      failures s (List.replicate n (.connectionStateChange gatt status newState conn)) = n := by
  induction n generalizing s with
  | zero => exact ⟨trivial, rfl⟩
  | succ n ih =>
    obtain ⟨hcs, hn⟩ := ih (linkCallback s (.connectionStateChange gatt status newState conn)).1
    refine ⟨⟨fun h => absurd h hstatus, hcs⟩, ?_⟩
    rw [List.replicate_succ, failures, if_pos (.inl hstatus), hn]
    omega

/-- The train is out of reach: the connection fails three times. -/
theorem reconnect_bounded_three :
    Bounded (retries (BluetoothLeService.init.connectToDevice trainGatt.address .exception)
      (List.replicate 3 (.connectionStateChange none 133 stateDisconnected .exception)))
      (failures (BluetoothLeService.init.connectToDevice trainGatt.address .exception)
        (List.replicate 3 (.connectionStateChange none 133 stateDisconnected .exception))) := by
  have herrors := errors_spec (BluetoothLeService.init.connectToDevice trainGatt.address .exception)
    none (show (133 : ℤ) ≠ gattSuccess by decide) stateDisconnected .exception 3
  refine (reconnect_bounded_iff rfl trainGatt.address .exception herrors.1).2 (.inl ?_)
  rw [herrors.2]
  decide

/-- The connection fails 21 times: there are 21 attempts and no `disconnect`. -/
theorem reconnect_unbounded :
    let s := BluetoothLeService.init.connectToDevice trainGatt.address (.returns trainGatt)
    let cs := List.replicate 21
      (.connectionStateChange trainGatt 133 stateDisconnected (.returns trainGatt))
    Unsuccessful s cs ∧ failures s cs = 21 ∧ retries s cs = List.replicate 21 .attempt ∧
      ¬ Bounded (retries s cs) 21 := by
  intro s cs
  have herror : (133 : ℤ) ≠ gattSuccess := by decide
  have harmed : Armed s := connectToDevice_armed rfl (by simp [AlreadyConnected, init]) _
  obtain ⟨hcs, hfail⟩ :=
    errors_spec s trainGatt herror stateDisconnected (.returns trainGatt) 21
  have hacts := retries_armed harmed hcs
  rw [hfail] at hacts
  refine ⟨hcs, hfail, hacts, ?_⟩
  rw [hacts]
  rintro ⟨hcount, -⟩
  exact absurd hcount (by decide)

end App
