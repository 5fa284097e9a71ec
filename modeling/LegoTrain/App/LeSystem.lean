import LegoTrain.App.Reconnect
import LegoTrain.Lib.Transition

/-!
# The Bluetooth service and the stack under it

The service of `BluetoothLeService.kt` among the callbacks of the Bluetooth stack, the calls of
the app, and the coroutines that `GattCommandQueue.add` has launched, in any order.  Every
connection that `connectGatt` opens has a number of its own, and a callback may come from any
connection that was ever opened.

* `LeEvent`, `LeSystem`, `leStep` : what may happen, and what has happened;
* `linkChange` : what an event does to the connection;
* `after_effect` : what it does to the service then.
-/

namespace App

open BluetoothLeService Transition

/-- What `connectGatt` answers. -/
inductive ConnectAnswer
  | exception
  | null
  /-- a new connection -/
  | gatt
  deriving DecidableEq, Repr

/-- `connectGatt`, where a new connection has the number `n`. -/
def connectGatt (n : ℕ) (address : String) : ConnectAnswer → ConnectGatt
  | .exception => .exception
  | .null => .returns none
  | .gatt => .returns (some ⟨n, address⟩)

/-- What may happen. -/
inductive LeEvent
  | connectToDevice (address : String) (answer : ConnectAnswer)
  /-- `disconnect`, or `onUnbind` -/
  | disconnect
  | disconnectDevice
  | makeNewConnection (answer : ConnectAnswer)
  | connectIfNeeded (answer : ConnectAnswer)
  | enableReconnect
  | disableReconnect
  | clearConnnectionStatus
  /-- a turn of the loops that wait for `con_sem` -/
  | tryAcquire
  | connectionStateChange (gatt : Option Gatt) (status newState : ℤ) (answer : ConnectAnswer)
  | servicesDiscovered (gatt : Option Gatt) (services : List GattService) (status : ℤ)
      (answer : ConnectAnswer)
  /-- for the CCC descriptor of `c` -/
  | descriptorWrite (c : Characteristic) (status : ℤ)
  | characteristicRead (c : Characteristic)
  /-- the body of the `i`-th call of `add` runs -/
  | addRuns (i : ℕ)
  deriving DecidableEq, Repr

/-- `gatt?.services`: the characteristics are those of the connection. -/
def servicesOf : Option Gatt → List GattService → List GattService
  | none, _ => []
  | some g, services => services.map fun service =>
      { service with characteristics := service.characteristics.map ({ · with gatt := g.id }) }

namespace BluetoothLeService

/-- `connectGatt` for the address that `reconnect` and `retry_connect` use. -/
def connectAgain (s : BluetoothLeService) (n : ℕ) (answer : ConnectAnswer) : ConnectGatt :=
  connectGatt n (s.connectedAddress.getD "") answer

/-- The service after an event, when a new connection has the number `n`. -/
def after (s : BluetoothLeService) (n : ℕ) : LeEvent → Option BluetoothLeService
  | .connectToDevice address answer =>
    some (s.connectToDevice address (connectGatt n address answer))
  | .disconnect => some s.disconnect
  | .disconnectDevice => some s.disconnectDevice
  | .makeNewConnection answer =>
    some (s.closeGattConnection.reconnect (s.connectAgain n answer))
  | .connectIfNeeded answer =>
    if s.isConnected then some s
    else some (s.clearConnnectionStatus.reconnect (s.connectAgain n answer))
  | .enableReconnect => some s.enableReconnect
  | .disableReconnect => some s.disableReconnect
  | .clearConnnectionStatus => some s.clearConnnectionStatus
  | .tryAcquire => s.tryAcquire
  | .connectionStateChange gatt status newState answer =>
    some (s.onConnectionStateChange gatt status newState (s.connectAgain n answer)).1
  | .servicesDiscovered gatt services status answer =>
    some (s.onServicesDiscovered (servicesOf gatt services) status (s.connectAgain n answer)).1
  | .descriptorWrite _ status => some (s.onDescriptorWrite status)
  | .characteristicRead _ => some s.onCharacteristicRead
  | .addRuns i =>
    match s.commandsQueue.adding[i]? with
    | some work =>
      some { s with
        commandsQueue := { s.commandsQueue with
          adding := s.commandsQueue.adding.eraseIdx i }.addBody work }
    | none => none

/-- The number of the connection in use. -/
def link (s : BluetoothLeService) : Option ℕ := s.bluetoothGatt.map Gatt.id

/-- The test of `retry_connect`. -/
def Reconnects (s : BluetoothLeService) : Prop := s.isRetryConnect ∨ 0 < s.userRetry

instance (s : BluetoothLeService) : Decidable s.Reconnects := inferInstanceAs (Decidable (_ ∨ _))

/-- A discovery that fails, or leaves a handle open. -/
abbrev DiscoveryFails (s : BluetoothLeService) (gatt : Option Gatt) (services : List GattService)
    (status : ℤ) : Prop :=
  IsFailure s (.servicesDiscovered (servicesOf gatt services) status .exception)

end BluetoothLeService

/-! ## The connection -/

/-- What becomes of the connection. -/
inductive LinkChange
  | keeps
  /-- it stays, and its services are discovered -/
  | finds
  /-- there is another one, and the old one is not closed -/
  | takes
  /-- `retry_connect` tries again -/
  | retries
  | closes
  deriving DecidableEq, Repr

/-- What an event does to the connection. -/
def linkChange (s : BluetoothLeService) : LeEvent → LinkChange
  | .connectToDevice address answer =>
    if s.AlreadyConnected address ∨ answer = .exception then .keeps else .takes
  | .disconnect => .closes
  | .disconnectDevice => .closes
  | .makeNewConnection _ => .closes
  | .connectIfNeeded _ => if s.isConnected ∨ s.bluetoothGatt ≠ none then .keeps else .takes
  | .connectionStateChange gatt status newState _ =>
    if status = gattSuccess then
      if newState = stateConnected then
        if gatt.map Gatt.id = s.link then .keeps else .takes
      else if newState = stateDisconnected then
        if s.Reconnects then .retries else .closes
      else .keeps
    else .closes
  | .servicesDiscovered gatt services status _ =>
    if s.DiscoveryFails gatt services status then
      if s.Reconnects then .retries else .closes
    else .finds
  | _ => .keeps

/-- The connection of a work. -/
def PieceOfWork.gatt : PieceOfWork → ℕ
  | .setupNotify c => c.gatt
  | .readCharacteristic c => c.gatt

/-! ## The system -/

/-- The service, and what has happened. -/
structure LeSystem where
  service : BluetoothLeService
  /-- the number of the next connection -/
  next : ℕ
  /-- connections whose services were discovered -/
  discovered : List ℕ
  /-- connections whose CCC descriptor was written -/
  subscribed : List ℕ
  /-- the works in the order in which they were put into the queue -/
  enqueued : List PieceOfWork
  /-- the works that are executed, on a connection that was not lost since, and not completed -/
  outstanding : List PieceOfWork
  /-- for each completion, the outstanding work it is for, and the work that it removes -/
  completions : List (Option PieceOfWork × Option PieceOfWork)
  deriving DecidableEq, Repr

def LeSystem.init : LeSystem := ⟨.init, 0, [], [], [], [], []⟩

/-- The connection of a callback is one that was opened. -/
def CallbackBelow (n : ℕ) : LeEvent → Prop
  | .connectionStateChange gatt _ _ _ => ∀ g ∈ gatt, g.id < n
  | .servicesDiscovered gatt _ _ _ => ∀ g ∈ gatt, g.id < n
  | .descriptorWrite c _ => c.gatt < n
  | .characteristicRead c => c.gatt < n
  | _ => True

instance (n : ℕ) (e : LeEvent) : Decidable (CallbackBelow n e) := by
  cases e <;> unfold CallbackBelow <;> infer_instance

namespace LeEvent

/-- The connection whose services an event discovers. -/
def discovers : LeEvent → List ℕ
  | .servicesDiscovered (some g) _ status _ => if status = gattSuccess then [g.id] else []
  | _ => []

/-- The connection whose CCC descriptor an event has written. -/
def subscribes : LeEvent → List ℕ
  | .descriptorWrite c status => if status = gattSuccess then [c.gatt] else []
  | _ => []

/-- The work whose callback an event is. -/
def completes : LeEvent → Option PieceOfWork
  | .descriptorWrite c _ => some (.setupNotify c)
  | .characteristicRead c => some (.readCharacteristic c)
  | _ => none

end LeEvent

namespace LeSystem

/-- The work that an event puts into the queue. -/
def enqueues (s : LeSystem) : LeEvent → List PieceOfWork
  | .addRuns i => s.service.commandsQueue.adding[i]?.toList
  | _ => []

/-- The works that stay outstanding: those of a connection that is lost are never completed. -/
def staysOutstanding (s : LeSystem) (e : LeEvent) : List PieceOfWork :=
  match linkChange s.service e with
  | .retries => []
  | .closes => []
  | _ =>
    match e.completes with
    | some work => s.outstanding.erase work
    | none => s.outstanding

/-- The completion that an event is. -/
def completion (s : LeSystem) (e : LeEvent) : List (Option PieceOfWork × Option PieceOfWork) :=
  match e.completes with
  | some work =>
    [(if work ∈ s.outstanding then some work else none, s.service.commandsQueue.queue.head?)]
  | none => []

/-- The works that are executed on the way from `s` to `service`. -/
def launched (s : LeSystem) (service : BluetoothLeService) : List PieceOfWork :=
  service.commandsQueue.executing.drop s.service.commandsQueue.executing.length

/-- The system after an event that brings the service to `service`. -/
def advance (s : LeSystem) (e : LeEvent) (service : BluetoothLeService) : LeSystem where
  service := service
  next := s.next + 1
  discovered := s.discovered ++ e.discovers
  subscribed := s.subscribed ++ e.subscribes
  enqueued := s.enqueued ++ s.enqueues e
  outstanding := s.staysOutstanding e ++ s.launched service
  completions := s.completions ++ s.completion e

end LeSystem

/-- A step of the system. -/
def leStep (s : LeSystem) (e : LeEvent) : Option LeSystem :=
  if CallbackBelow s.next e then (s.service.after s.next e).map (s.advance e) else none

theorem leStep_eq_some {s s' : LeSystem} {e : LeEvent} :
    leStep s e = some s' ↔
      CallbackBelow s.next e ∧
        ∃ service, s.service.after s.next e = some service ∧ s.advance e service = s' := by
  unfold leStep
  by_cases h : CallbackBelow s.next e <;> simp [h]

/-- The service of a train, with the characteristics of the robot. -/
def trainService : GattService :=
  ⟨.other "train", [⟨0, .robotRead, 0x22, true⟩, ⟨0, .robotWrite, 0x08, false⟩]⟩

/-- The train is connected, its services are discovered and the notification is being set up. -/
def trainNotifies : List LeEvent :=
  [.connectToDevice trainGatt.address .gatt,
    .connectionStateChange trainGatt gattSuccess stateConnected .null,
    .servicesDiscovered trainGatt [trainService] gattSuccess .null,
    .addRuns 0]

/-! ## What an event does -/

namespace BluetoothLeService

/-- Nothing is queued or in flight. -/
def QueueIdle (s : BluetoothLeService) : Prop :=
  s.commandsQueue.queue = [] ∧ s.commandsQueue.busy = false

instance (s : BluetoothLeService) : Decidable s.QueueIdle := inferInstanceAs (Decidable (_ ∧ _))

/-- No handle is set, and no notification is set up. -/
def Clean (s : BluetoothLeService) : Prop :=
  s.notificationReady = false ∧ s.readHandle = none ∧ s.writeHandle = none

instance (s : BluetoothLeService) : Decidable s.Clean := inferInstanceAs (Decidable (_ ∧ _))

/-- The queue is the same, apart from the calls of `add` that have not run. -/
structure SameQueue (s s' : BluetoothLeService) : Prop where
  queue : s'.commandsQueue.queue = s.commandsQueue.queue
  busy : s'.commandsQueue.busy = s.commandsQueue.busy
  executing : s'.commandsQueue.executing = s.commandsQueue.executing

/-- The handles are the same. -/
structure SameHandles (s s' : BluetoothLeService) : Prop where
  notificationReady : s'.notificationReady = s.notificationReady
  readHandle : s'.readHandle = s.readHandle
  writeHandle : s'.writeHandle = s.writeHandle

theorem SameQueue.refl (s : BluetoothLeService) : SameQueue s s := ⟨rfl, rfl, rfl⟩

theorem SameQueue.trans {s s' s'' : BluetoothLeService} (h : SameQueue s s')
    (h' : SameQueue s' s'') : SameQueue s s'' :=
  ⟨h'.1.trans h.1, h'.2.trans h.2, h'.3.trans h.3⟩

theorem SameHandles.refl (s : BluetoothLeService) : SameHandles s s := ⟨rfl, rfl, rfl⟩

theorem SameHandles.clean {s s' : BluetoothLeService} (h : SameHandles s s') (hs : s.Clean) :
    s'.Clean :=
  ⟨h.1.trans hs.1, h.2.trans hs.2.1, h.3.trans hs.2.2⟩

theorem SameQueue.idle {s s' : BluetoothLeService} (h : SameQueue s s') (hs : s.QueueIdle) :
    s'.QueueIdle :=
  ⟨h.1.trans hs.1, h.2.trans hs.2⟩

/-! ### The attempts to connect -/

theorem connectToDevice_same (s : BluetoothLeService) (address : String) (conn : ConnectGatt) :
    SameQueue s (s.connectToDevice address conn) ∧
      SameHandles s (s.connectToDevice address conn) := by
  unfold connectToDevice
  split
  · exact ⟨.refl s, .refl s⟩
  · cases conn with
    | «exception» => exact ⟨⟨rfl, rfl, rfl⟩, ⟨rfl, rfl, rfl⟩⟩
    | returns gatt => exact ⟨⟨rfl, rfl, rfl⟩, ⟨rfl, rfl, rfl⟩⟩

theorem reconnect_same (s : BluetoothLeService) (conn : ConnectGatt) :
    SameQueue s (s.reconnect conn) ∧ SameHandles s (s.reconnect conn) := by
  unfold reconnect
  split
  · exact connectToDevice_same s _ conn
  · exact ⟨.refl s, .refl s⟩

/-- The connection is replaced only when the device is another one, or not connected. -/
theorem connectToDevice_link {s : BluetoothLeService} {n : ℕ} {address : String}
    {answer : ConnectAnswer} (h : s.AlreadyConnected address ∨ answer = .exception) :
    (s.connectToDevice address (connectGatt n address answer)).link = s.link := by
  unfold connectToDevice
  split
  · rfl
  · rename_i hnew
    rcases h with halready | rfl
    · exact absurd halready hnew
    · rfl

theorem reconnect_link {s : BluetoothLeService} (h : s.bluetoothGatt ≠ none) (conn : ConnectGatt) :
    (s.reconnect conn).link = s.link := by
  unfold reconnect
  split
  · rename_i adrs hadrs
    rw [connectToDevice, if_pos ⟨hadrs, h⟩]
  · rfl

/-- `retry_connect` takes the handles away, and leaves the queue and the notification. -/
theorem retryConnect_retries {s : BluetoothLeService} (h : s.Reconnects) (conn : ConnectGatt) :
    SameQueue s (s.retryConnect conn).1 ∧
      SameHandles { s with readHandle := none, writeHandle := none } (s.retryConnect conn).1 := by
  have hretry : s.isRetryConnect = true ∨ 0 < s.userRetry := h
  rw [retryConnect, if_pos hretry]
  simp only
  split
  · obtain ⟨hqueue, hhandles⟩ := connectToDevice_same { s with
      userRetry := s.userRetry - 1
      bluetoothGatt := none
      readHandle := none
      writeHandle := none } _ conn
    exact ⟨⟨hqueue.1, hqueue.2, hqueue.3⟩, ⟨hhandles.1, hhandles.2, hhandles.3⟩⟩
  · exact ⟨⟨rfl, rfl, rfl⟩, ⟨rfl, rfl, rfl⟩⟩

theorem retryConnect_closes {s : BluetoothLeService} (h : ¬ s.Reconnects) (conn : ConnectGatt) :
    (s.retryConnect conn).1 = s.closeGattConnection := by
  have hretry : ¬ (s.isRetryConnect = true ∨ 0 < s.userRetry) := h
  rw [retryConnect, if_neg hretry]
  rfl

/-! ### The discoveries -/

/-- The characteristics of a service that `grabReadAndWriteCharacteristics` takes. -/
def grabbed (service : GattService) : List Characteristic :=
  ((service.getCharacteristic .robotRead).filter fun c => c.isReadable && c.canNotify).toList ++
    ((service.getCharacteristic .robotWrite).filter Characteristic.isWritable).toList

/-- The queue is the same, and new handles are among the characteristics `cs`. -/
structure Grabs (cs : List Characteristic) (s s' : BluetoothLeService) : Prop where
  sameQueue : SameQueue s s'
  readHandle : ∀ c, s'.readHandle = some c → s.readHandle = some c ∨ c ∈ cs
  writeHandle : ∀ c, s'.writeHandle = some c → s.writeHandle = some c ∨ c ∈ cs

theorem Grabs.refl (cs : List Characteristic) (s : BluetoothLeService) : Grabs cs s s :=
  ⟨.refl s, fun _ => .inl, fun _ => .inl⟩

theorem Grabs.trans {cs : List Characteristic} {s s' s'' : BluetoothLeService}
    (h : Grabs cs s s') (h' : Grabs cs s' s'') : Grabs cs s s'' := by
  refine ⟨h.sameQueue.trans h'.sameQueue, ?_, ?_⟩
  · intro c hc
    rcases h'.readHandle c hc with hold | hnew
    · exact h.readHandle c hold
    · exact .inr hnew
  · intro c hc
    rcases h'.writeHandle c hc with hold | hnew
    · exact h.writeHandle c hold
    · exact .inr hnew

theorem Grabs.mono {cs cs' : List Characteristic} {s s' : BluetoothLeService}
    (h : Grabs cs s s') (hsub : cs ⊆ cs') : Grabs cs' s s' :=
  ⟨h.sameQueue, fun c hc => (h.readHandle c hc).imp_right fun hmem => hsub hmem,
    fun c hc => (h.writeHandle c hc).imp_right fun hmem => hsub hmem⟩

theorem subscribeNotifyForReadHandle_grabs (s : BluetoothLeService) :
    Grabs [] s s.subscribeNotifyForReadHandle := by
  unfold subscribeNotifyForReadHandle
  split
  · split
    · split
      · exact ⟨⟨rfl, rfl, rfl⟩, fun _ => .inl, fun _ => .inl⟩
      · exact .refl [] s
    · exact .refl [] s
  · exact .refl [] s

theorem grabRead_grabs (s : BluetoothLeService) (service : GattService) :
    Grabs (grabbed service) s (s.grabRead service) := by
  unfold grabRead
  split
  · rename_i c hget
    split
    · rename_i husable
      have hmem : c ∈ grabbed service := by
        simp only [Bool.and_eq_true] at husable
        simp [grabbed, hget, husable]
      have hset : Grabs (grabbed service) s { s with readHandle := some c } :=
        ⟨⟨rfl, rfl, rfl⟩, fun c' hc' => .inr (by cases hc'; exact hmem), fun _ => .inl⟩
      exact hset.trans ((subscribeNotifyForReadHandle_grabs _).mono (List.nil_subset _))
    · exact .refl _ s
  · exact .refl _ s

theorem grabWrite_grabs (s : BluetoothLeService) (service : GattService) :
    Grabs (grabbed service) s (s.grabWrite service) := by
  unfold grabWrite
  split
  · rename_i c hget
    split
    · rename_i hwritable
      have hmem : c ∈ grabbed service := by
        simp [grabbed, hget, hwritable]
      exact ⟨⟨rfl, rfl, rfl⟩, fun _ => .inl, fun c' hc' => .inr (by cases hc'; exact hmem)⟩
    · exact .refl _ s
  · exact .refl _ s

theorem grabReadAndWriteCharacteristics_grabs (s : BluetoothLeService) (service : GattService) :
    Grabs (grabbed service) s (s.grabReadAndWriteCharacteristics service) := by
  rw [grabReadAndWriteCharacteristics_eq]
  exact (grabRead_grabs s service).trans (grabWrite_grabs _ service)

theorem foldl_add_same (cs : List Characteristic) (q : GattCommandQueue PieceOfWork) :
    let q' := cs.foldl (fun q c => q.add (.readCharacteristic c)) q
    q'.queue = q.queue ∧ q'.busy = q.busy ∧ q'.executing = q.executing := by
  induction cs generalizing q with
  | nil => exact ⟨rfl, rfl, rfl⟩
  | cons c cs ih => exact ih (q.add (.readCharacteristic c))

theorem readService_grabs (s : BluetoothLeService) (service : GattService)
    (uuids : List CharacteristicUuid) : Grabs [] s (s.readService service uuids) := by
  obtain ⟨hqueue, hbusy, hexecuting⟩ :=
    foldl_add_same (uuids.filterMap service.getCharacteristic) s.commandsQueue
  exact ⟨⟨hqueue, hbusy, hexecuting⟩, fun _ => .inl, fun _ => .inl⟩

theorem onService_grabs (s : BluetoothLeService) (service : GattService) :
    Grabs (grabbed service) s (s.onService service) := by
  have h := grabReadAndWriteCharacteristics_grabs s service
  unfold onService
  simp only
  split
  · exact h.trans ((readService_grabs _ _ _).mono (List.nil_subset _))
  · exact h.trans ((readService_grabs _ _ _).mono (List.nil_subset _))
  · exact h

/-- A discovery leaves the queue, and takes handles among the characteristics it finds. -/
theorem grabServices_grabs (s : BluetoothLeService) (services : List GattService) :
    Grabs (services.flatMap grabbed) s (s.grabServices services) := by
  have hready (cs : List Characteristic) : Grabs cs s { s with servicesReady := true } :=
    ⟨⟨rfl, rfl, rfl⟩, fun _ => .inl, fun _ => .inl⟩
  refine (hready _).trans ?_
  unfold grabServices
  generalize ({ s with servicesReady := true } : BluetoothLeService) = s₀
  induction services generalizing s₀ with
  | nil => exact .refl _ s₀
  | cons service services ih =>
    rw [List.flatMap_cons]
    have hfirst := (onService_grabs s₀ service).mono
      (List.subset_append_left _ (services.flatMap grabbed))
    exact hfirst.trans ((ih _).mono (List.subset_append_right _ _))

end BluetoothLeService

/-! ### All events -/

namespace LeEvent

/-- The characteristics that a discovery takes. -/
def finds : LeEvent → List Characteristic
  | .servicesDiscovered gatt services _ _ => (servicesOf gatt services).flatMap grabbed
  | _ => []

/-- An event that is not about the queue. -/
def OffQueue : LeEvent → Prop
  | .descriptorWrite _ _ => False
  | .characteristicRead _ => False
  | .addRuns _ => False
  | _ => True

end LeEvent

/-- What an event that is not about the queue may do. -/
def LinkEffect (s : BluetoothLeService) (e : LeEvent) (s' : BluetoothLeService) :
    LinkChange → Prop
  | .keeps => SameQueue s s' ∧ SameHandles s s' ∧ s'.link = s.link
  | .finds =>
    Grabs e.finds s s' ∧ s'.notificationReady = s.notificationReady ∧ s'.link = s.link
  | .takes => SameQueue s s' ∧ SameHandles s s'
  | .retries =>
    SameQueue s s' ∧ s'.notificationReady = s.notificationReady ∧
      s'.readHandle = none ∧ s'.writeHandle = none
  | .closes =>
    s'.commandsQueue.executing = s.commandsQueue.executing ∧ s'.QueueIdle ∧ s'.Clean

theorem closeGattConnection_effect (s : BluetoothLeService) (e : LeEvent) :
    LinkEffect s e s.closeGattConnection .closes :=
  ⟨rfl, ⟨rfl, rfl⟩, rfl, rfl, rfl⟩

/-- What follows the closing. -/
theorem LinkEffect.closes_then {s s₁ s' : BluetoothLeService} {e : LeEvent}
    (h : LinkEffect s e s₁ .closes) (hqueue : SameQueue s₁ s') (hhandles : SameHandles s₁ s') :
    LinkEffect s e s' .closes :=
  ⟨hqueue.executing.trans h.1, hqueue.idle h.2.1, hhandles.clean h.2.2⟩

theorem retryConnect_effect {s s₁ : BluetoothLeService} (e : LeEvent) (conn : ConnectGatt)
    (hqueue : SameQueue s s₁) (hready : s₁.notificationReady = s.notificationReady)
    (hretry : s₁.Reconnects ↔ s.Reconnects) :
    LinkEffect s e (s₁.retryConnect conn).1 (if s.Reconnects then .retries else .closes) := by
  by_cases h : s.Reconnects
  · obtain ⟨hsame, hhandles⟩ := retryConnect_retries (hretry.2 h) conn
    rw [if_pos h]
    exact ⟨hqueue.trans hsame, hhandles.notificationReady.trans hready, hhandles.readHandle,
      hhandles.writeHandle⟩
  · rw [if_neg h, retryConnect_closes (mt hretry.1 h)]
    exact ⟨hqueue.executing, ⟨rfl, rfl⟩, rfl, rfl, rfl⟩

theorem onConnectionStateChange_effect (s : BluetoothLeService) (gatt : Option Gatt)
    (status newState : ℤ) (answer : ConnectAnswer) (conn : ConnectGatt) :
    LinkEffect s (.connectionStateChange gatt status newState answer)
      (s.onConnectionStateChange gatt status newState conn).1
      (linkChange s (.connectionStateChange gatt status newState answer)) := by
  unfold linkChange onConnectionStateChange
  by_cases hstatus : status = gattSuccess
  · simp only [if_pos hstatus]
    by_cases hconn : newState = stateConnected
    · simp only [if_pos hconn]
      by_cases hlink : gatt.map Gatt.id = s.link
      · rw [if_pos hlink]
        exact ⟨⟨rfl, rfl, rfl⟩, ⟨rfl, rfl, rfl⟩, hlink⟩
      · rw [if_neg hlink]
        exact ⟨⟨rfl, rfl, rfl⟩, ⟨rfl, rfl, rfl⟩⟩
    · simp only [if_neg hconn]
      by_cases hdisc : newState = stateDisconnected
      · simp only [if_pos hdisc]
        exact retryConnect_effect _ conn (.refl s) rfl Iff.rfl
      · simp only [if_neg hdisc]
        exact ⟨.refl s, .refl s, rfl⟩
  · -- the connection is closed before it is retried
    simp only [if_neg hstatus]
    have hclose := closeGattConnection_effect s
      (.connectionStateChange gatt status newState answer)
    by_cases hretry : s.closeGattConnection.Reconnects
    · obtain ⟨hqueue, hhandles⟩ := retryConnect_retries hretry conn
      exact hclose.closes_then hqueue ⟨hhandles.1, hhandles.2, hhandles.3⟩
    · rw [retryConnect_closes hretry]
      exact hclose

theorem onServicesDiscovered_effect (s : BluetoothLeService) (gatt : Option Gatt)
    (services : List GattService) (status : ℤ) (answer : ConnectAnswer) (conn : ConnectGatt) :
    LinkEffect s (.servicesDiscovered gatt services status answer)
      (s.onServicesDiscovered (servicesOf gatt services) status conn).1
      (linkChange s (.servicesDiscovered gatt services status answer)) := by
  have hgrabs := grabServices_grabs s (servicesOf gatt services)
  have hsame := grabServices_sameLink s (servicesOf gatt services)
  have hretry : (s.grabServices (servicesOf gatt services)).Reconnects ↔ s.Reconnects := by
    unfold Reconnects
    rw [hsame.isRetryConnect, hsame.userRetry]
  simp only [linkChange, DiscoveryFails, IsFailure, onServicesDiscovered]
  by_cases hstatus : status = gattSuccess
  · by_cases hhandles : (s.grabServices (servicesOf gatt services)).writeHandle = none ∨
        (s.grabServices (servicesOf gatt services)).readHandle = none
    · simp only [hstatus, hhandles, not_true_eq_false, false_or, ne_eq, if_true]
      exact retryConnect_effect _ conn hgrabs.sameQueue hsame.notificationReady hretry
    · simp only [hstatus, hhandles, not_true_eq_false, or_self, ne_eq, if_true, if_false]
      exact ⟨hgrabs, hsame.notificationReady, congrArg (Option.map Gatt.id) hsame.bluetoothGatt⟩
  · simp only [hstatus, not_false_eq_true, true_or, ne_eq, if_true, if_false]
    exact retryConnect_effect _ conn (.refl s) rfl Iff.rfl

theorem connectIfNeeded_effect {s s' : BluetoothLeService} {n : ℕ} {answer : ConnectAnswer}
    (h : s.after n (.connectIfNeeded answer) = some s') :
    LinkEffect s (.connectIfNeeded answer) s' (linkChange s (.connectIfNeeded answer)) := by
  obtain ⟨hqueue, hhandles⟩ := reconnect_same s.clearConnnectionStatus (s.connectAgain n answer)
  have hsame : SameQueue s _ ∧ SameHandles s _ :=
    ⟨⟨hqueue.1, hqueue.2, hqueue.3⟩, ⟨hhandles.1, hhandles.2, hhandles.3⟩⟩
  simp only [after] at h
  simp only [linkChange]
  by_cases hconn : s.isConnected = true
  · rw [if_pos hconn] at h
    cases h
    rw [if_pos (.inl hconn)]
    exact ⟨.refl s, .refl s, rfl⟩
  · rw [if_neg hconn] at h
    cases h
    by_cases hgatt : s.bluetoothGatt ≠ none
    · rw [if_pos (.inr hgatt)]
      exact ⟨hsame.1, hsame.2, reconnect_link (s := s.clearConnnectionStatus) hgatt _⟩
    · rw [if_neg (not_or.2 ⟨hconn, hgatt⟩)]
      exact hsame

/-- **What an event does**, as `linkChange` has it. -/
theorem after_effect {s s' : BluetoothLeService} {n : ℕ} {e : LeEvent} (he : e.OffQueue)
    (h : s.after n e = some s') : LinkEffect s e s' (linkChange s e) := by
  cases e with
  | connectToDevice address answer =>
    cases h
    have hsame := connectToDevice_same s address (connectGatt n address answer)
    simp only [linkChange]
    split
    · rename_i hold
      exact ⟨hsame.1, hsame.2, connectToDevice_link hold⟩
    · exact hsame
  | disconnect =>
    cases h
    exact closeGattConnection_effect s _
  | disconnectDevice =>
    cases h
    exact ⟨rfl, ⟨rfl, rfl⟩, rfl, rfl, rfl⟩
  | makeNewConnection answer =>
    cases h
    have hsame := reconnect_same s.closeGattConnection (s.connectAgain n answer)
    exact (closeGattConnection_effect s _).closes_then hsame.1 hsame.2
  | connectIfNeeded answer => exact connectIfNeeded_effect h
  | enableReconnect =>
    cases h
    exact ⟨⟨rfl, rfl, rfl⟩, ⟨rfl, rfl, rfl⟩, rfl⟩
  | disableReconnect =>
    cases h
    exact ⟨⟨rfl, rfl, rfl⟩, ⟨rfl, rfl, rfl⟩, rfl⟩
  | clearConnnectionStatus =>
    cases h
    exact ⟨⟨rfl, rfl, rfl⟩, ⟨rfl, rfl, rfl⟩, rfl⟩
  | tryAcquire =>
    simp only [after, BluetoothLeService.tryAcquire] at h
    split at h
    · cases h
      exact ⟨⟨rfl, rfl, rfl⟩, ⟨rfl, rfl, rfl⟩, rfl⟩
    · cases h
  | connectionStateChange gatt status newState answer =>
    cases h
    exact onConnectionStateChange_effect s gatt status newState answer _
  | servicesDiscovered gatt services status answer =>
    cases h
    exact onServicesDiscovered_effect s gatt services status answer _
  | descriptorWrite c status => exact he.elim
  | characteristicRead c => exact he.elim
  | addRuns i => exact he.elim

end App
