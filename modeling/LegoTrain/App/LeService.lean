import Mathlib.Data.Nat.Basic

/-!
# The Bluetooth service of the app

`CommandQueues.kt` and `BluetoothLeService.kt`: the queue of the GATT commands, and the
service around one GATT connection at a time.  The objects of the Bluetooth stack are told
apart by the connection they belong to, and what the stack answers to `connectGatt` comes as
an argument.  What is published to the user interface is left out.

* `GattCommandQueue` : `add`, `completeCommand`, `clear`;
* `connectToDevice`, `disconnect`, `disconnectDevice`, `retryConnect` : the connection;
* `onConnectionStateChange`, `onServicesDiscovered`, `onDescriptorWrite`,
  `onCharacteristicRead` : the callbacks.
-/

namespace App

/-! ## The queue of the commands -/

/-- `GattCommandQueue`, with the coroutines that it has launched and that have not run yet. -/
structure GattCommandQueue (Work : Type) where
  queue : List Work
  busy : Bool
  /-- launched by `add` -/
  adding : List Work
  /-- launched by `processNextInQueue` -/
  executing : List Work
  deriving DecidableEq, Repr

namespace GattCommandQueue

variable {Work : Type}

def empty : GattCommandQueue Work := ⟨[], false, [], []⟩

/-- `processNextInQueue`. -/
def processNextInQueue (q : GattCommandQueue Work) : GattCommandQueue Work :=
  if q.busy then q
  else
    match q.queue with
    | [] => q
    | work :: _ => { q with busy := true, executing := q.executing ++ [work] }

/-- `add`: its body runs later. -/
def add (q : GattCommandQueue Work) (work : Work) : GattCommandQueue Work :=
  { q with adding := q.adding ++ [work] }

/-- The body of `add`. -/
def addBody (q : GattCommandQueue Work) (work : Work) : GattCommandQueue Work :=
  { q with queue := q.queue ++ [work] }.processNextInQueue

/-- `completeCommand`. -/
def completeCommand (q : GattCommandQueue Work) : GattCommandQueue Work :=
  match q.queue with
  | [] => { q with busy := false }
  | _ :: rest => { q with busy := false, queue := rest }.processNextInQueue

/-- `clear`. -/
def clear (q : GattCommandQueue Work) : GattCommandQueue Work :=
  { q with busy := false, queue := [] }

end GattCommandQueue

/-! ## The objects of the Bluetooth stack -/

/-- `BluetoothGatt`: a connection to a device. -/
structure Gatt where
  id : ℕ
  address : String
  deriving DecidableEq, Repr

/-- The UUIDs of the characteristics that the service knows. -/
inductive CharacteristicUuid
  | robotRead
  | robotWrite
  | deviceName
  | appearance
  | manufacturerName
  | modelNumberString
  | other (uuid : String)
  deriving DecidableEq, Repr

/-- The UUIDs of the services that it knows. -/
inductive ServiceUuid
  | genericAccess
  | deviceInfo
  | other (uuid : String)
  deriving DecidableEq, Repr

/-- `BluetoothGattCharacteristic`, of the connection `gatt`. -/
structure Characteristic where
  gatt : ℕ
  uuid : CharacteristicUuid
  properties : ℕ
  /-- there is a descriptor with `CCC_DESCRIPTOR_UUID` -/
  cccDescriptor : Bool
  deriving DecidableEq, Repr

/-- `hasProperty`. -/
def Characteristic.hasProperty (c : Characteristic) (property : ℕ) : Bool :=
  c.properties &&& property ≠ 0

/-- `PROPERTY_READ`, `PROPERTY_WRITE` and `PROPERTY_INDICATE`. -/
def Characteristic.isReadable (c : Characteristic) : Bool := c.hasProperty 0x02

def Characteristic.isWritable (c : Characteristic) : Bool := c.hasProperty 0x08

def Characteristic.canNotify (c : Characteristic) : Bool := c.hasProperty 0x20

/-- `BluetoothGattService`. -/
structure GattService where
  uuid : ServiceUuid
  characteristics : List Characteristic
  deriving DecidableEq, Repr

/-- `getCharacteristic`. -/
def GattService.getCharacteristic (service : GattService) (uuid : CharacteristicUuid) :
    Option Characteristic :=
  service.characteristics.find? fun c => c.uuid = uuid

/-- The works that are put into the queue. -/
inductive PieceOfWork
  /-- `"setup notify"` -/
  | setupNotify (c : Characteristic)
  /-- `"readCharacteristic"` -/
  | readCharacteristic (c : Characteristic)
  deriving DecidableEq, Repr

/-- `GATT_SUCCESS`. -/
def gattSuccess : ℤ := 0

/-- `BluetoothProfile.STATE_DISCONNECTED` and `BluetoothProfile.STATE_CONNECTED`. -/
def stateDisconnected : ℤ := 0

def stateConnected : ℤ := 2

/-- What `getRemoteDevice` and `connectGatt` come to. -/
inductive ConnectGatt
  | exception
  | returns (gatt : Option Gatt)
  deriving DecidableEq, Repr

/-! ## The service -/

/-- `BluetoothLeService`. -/
structure BluetoothLeService where
  commandsQueue : GattCommandQueue PieceOfWork
  bluetoothGatt : Option Gatt
  connectedAddress : Option String
  readHandle : Option Characteristic
  writeHandle : Option Characteristic
  servicesReady : Bool
  notificationReady : Bool
  isRetryConnect : Bool
  userRetry : ℕ
  /-- the permits of `con_sem` -/
  conSem : ℕ
  deriving DecidableEq, Repr

namespace BluetoothLeService

/-- The service before any connection. -/
def init : BluetoothLeService := ⟨.empty, none, none, none, none, false, false, false, 0, 1⟩

/-- `IsConnected`. -/
def isConnected (s : BluetoothLeService) : Bool :=
  s.servicesReady && s.notificationReady && s.readHandle.isSome && s.writeHandle.isSome

/-- `enableReconnect` and `disableReconnect`. -/
def enableReconnect (s : BluetoothLeService) : BluetoothLeService :=
  { s with isRetryConnect := true }

def disableReconnect (s : BluetoothLeService) : BluetoothLeService :=
  { s with isRetryConnect := false, userRetry := 0 }

/-- `clearConnnectionStatus`. -/
def clearConnnectionStatus (s : BluetoothLeService) : BluetoothLeService := { s with conSem := 0 }

/-- `con_sem.tryAcquire()`. -/
def tryAcquire (s : BluetoothLeService) : Option BluetoothLeService :=
  if 0 < s.conSem then some { s with conSem := s.conSem - 1 } else none

/-- `disconnectDevice`. -/
def disconnectDevice (s : BluetoothLeService) : BluetoothLeService :=
  { s with
    commandsQueue := s.commandsQueue.clear
    servicesReady := false
    notificationReady := false
    writeHandle := none
    readHandle := none
    userRetry := 0
    bluetoothGatt := none }

/-- `closeGattConnection`. -/
def closeGattConnection (s : BluetoothLeService) : BluetoothLeService :=
  { s with
    commandsQueue := s.commandsQueue.clear
    servicesReady := false
    notificationReady := false
    writeHandle := none
    readHandle := none
    bluetoothGatt := none }

/-- The test of `connectToDevice`. -/
def AlreadyConnected (s : BluetoothLeService) (address : String) : Prop :=
  s.connectedAddress = some address ∧ s.bluetoothGatt ≠ none

instance (s : BluetoothLeService) (address : String) : Decidable (s.AlreadyConnected address) :=
  inferInstanceAs (Decidable (_ ∧ _))

/-- `connectToDevice`. -/
def connectToDevice (s : BluetoothLeService) (address : String) (conn : ConnectGatt) :
    BluetoothLeService :=
  if s.AlreadyConnected address then s
  else
    let s := { s with
      connectedAddress := some address
      userRetry := if s.userRetry = 0 then 20 else s.userRetry }
    match conn with
    | .exception => s
    | .returns gatt => { s with bluetoothGatt := gatt }

/-- `reconnect`. -/
def reconnect (s : BluetoothLeService) (conn : ConnectGatt) : BluetoothLeService :=
  match s.connectedAddress with
  | some adrs => s.connectToDevice adrs conn
  | none => s

/-- `disconnect`. -/
def disconnect (s : BluetoothLeService) : BluetoothLeService := s.closeGattConnection

/-- What `retry_connect` does. -/
inductive Retry
  /-- it calls `connectToDevice` -/
  | attempt
  /-- it calls `disconnect` -/
  | disconnect
  deriving DecidableEq, Repr

/-- `retry_connect`. -/
def retryConnect (s : BluetoothLeService) (conn : ConnectGatt) :
    BluetoothLeService × List Retry :=
  if s.isRetryConnect ∨ 0 < s.userRetry then
    let s := { s with
      userRetry := s.userRetry - 1
      bluetoothGatt := none
      readHandle := none
      writeHandle := none }
    match s.connectedAddress with
    | some adrs => (s.connectToDevice adrs conn, [.attempt])
    | none => (s, [])
  else (s.disconnect, [.disconnect])

/-! ## The callbacks -/

/-- `onConnectionStateChange`; `conn` is for the attempt that it may lead to. -/
def onConnectionStateChange (s : BluetoothLeService) (gatt : Option Gatt) (status newState : ℤ)
    (conn : ConnectGatt) : BluetoothLeService × List Retry :=
  if status = gattSuccess then
    if newState = stateConnected then
      ({ s with connectedAddress := gatt.map Gatt.address, bluetoothGatt := gatt }, [])
    else if newState = stateDisconnected then s.retryConnect conn
    else (s, [])
  else s.closeGattConnection.retryConnect conn

/-- `subscribeNotifyForReadHandle`. -/
def subscribeNotifyForReadHandle (s : BluetoothLeService) : BluetoothLeService :=
  if s.servicesReady then
    match s.readHandle with
    | some c =>
      if c.cccDescriptor && c.canNotify then
        { s with commandsQueue := s.commandsQueue.add (.setupNotify c) }
      else s
    | none => s
  else s

/-- `grabReadAndWriteCharacteristics`. -/
def grabReadAndWriteCharacteristics (s : BluetoothLeService) (service : GattService) :
    BluetoothLeService :=
  let s :=
    match service.getCharacteristic .robotRead with
    | some c =>
      if c.isReadable && c.canNotify then
        { s with readHandle := some c }.subscribeNotifyForReadHandle
      else s
    | none => s
  match service.getCharacteristic .robotWrite with
  | some c => if c.isWritable then { s with writeHandle := some c } else s
  | none => s

/-- The first half of `grabReadAndWriteCharacteristics`. -/
def grabRead (s : BluetoothLeService) (service : GattService) : BluetoothLeService :=
  match service.getCharacteristic .robotRead with
  | some c =>
    if c.isReadable && c.canNotify then
      { s with readHandle := some c }.subscribeNotifyForReadHandle
    else s
  | none => s

/-- And the second. -/
def grabWrite (s : BluetoothLeService) (service : GattService) : BluetoothLeService :=
  match service.getCharacteristic .robotWrite with
  | some c => if c.isWritable then { s with writeHandle := some c } else s
  | none => s

theorem grabReadAndWriteCharacteristics_eq (s : BluetoothLeService) (service : GattService) :
    s.grabReadAndWriteCharacteristics service = (s.grabRead service).grabWrite service := rfl

/-- `readGenericAccessService` and `readDeviceInfoService`: the characteristics that are read. -/
def readService (s : BluetoothLeService) (service : GattService)
    (uuids : List CharacteristicUuid) : BluetoothLeService :=
  { s with
    commandsQueue := (uuids.filterMap service.getCharacteristic).foldl
      (fun q c => q.add (.readCharacteristic c)) s.commandsQueue }

/-- The fields that a service that was discovered does not change. -/
structure SameLink (s s' : BluetoothLeService) : Prop where
  bluetoothGatt : s'.bluetoothGatt = s.bluetoothGatt
  connectedAddress : s'.connectedAddress = s.connectedAddress
  servicesReady : s'.servicesReady = s.servicesReady
  notificationReady : s'.notificationReady = s.notificationReady
  isRetryConnect : s'.isRetryConnect = s.isRetryConnect
  userRetry : s'.userRetry = s.userRetry
  conSem : s'.conSem = s.conSem

theorem SameLink.refl (s : BluetoothLeService) : SameLink s s :=
  ⟨rfl, rfl, rfl, rfl, rfl, rfl, rfl⟩

theorem SameLink.trans {s s' s'' : BluetoothLeService} (h : SameLink s s')
    (h' : SameLink s' s'') : SameLink s s'' :=
  ⟨h'.1.trans h.1, h'.2.trans h.2, h'.3.trans h.3, h'.4.trans h.4, h'.5.trans h.5,
    h'.6.trans h.6, h'.7.trans h.7⟩

theorem subscribeNotifyForReadHandle_sameLink (s : BluetoothLeService) :
    SameLink s s.subscribeNotifyForReadHandle := by
  unfold subscribeNotifyForReadHandle
  split
  · split
    · split
      · exact ⟨rfl, rfl, rfl, rfl, rfl, rfl, rfl⟩
      · exact .refl s
    · exact .refl s
  · exact .refl s

theorem grabRead_sameLink (s : BluetoothLeService) (service : GattService) :
    SameLink s (s.grabRead service) := by
  have hnotify (c : Characteristic) :
      SameLink s { s with readHandle := some c }.subscribeNotifyForReadHandle := by
    have h := subscribeNotifyForReadHandle_sameLink { s with readHandle := some c }
    exact ⟨h.1, h.2, h.3, h.4, h.5, h.6, h.7⟩
  unfold grabRead
  split
  · split
    · exact hnotify _
    · exact .refl s
  · exact .refl s

theorem grabWrite_sameLink (s : BluetoothLeService) (service : GattService) :
    SameLink s (s.grabWrite service) := by
  unfold grabWrite
  split
  · split
    · exact ⟨rfl, rfl, rfl, rfl, rfl, rfl, rfl⟩
    · exact .refl s
  · exact .refl s

theorem grabReadAndWriteCharacteristics_sameLink (s : BluetoothLeService)
    (service : GattService) : SameLink s (s.grabReadAndWriteCharacteristics service) := by
  rw [grabReadAndWriteCharacteristics_eq]
  exact (grabRead_sameLink s service).trans (grabWrite_sameLink _ service)

/-- One service that was discovered. -/
def onService (s : BluetoothLeService) (service : GattService) : BluetoothLeService :=
  let s := s.grabReadAndWriteCharacteristics service
  match service.uuid with
  | .genericAccess => s.readService service [.deviceName, .appearance]
  | .deviceInfo => s.readService service [.manufacturerName, .modelNumberString]
  | .other _ => s

theorem onService_sameLink (s : BluetoothLeService) (service : GattService) :
    SameLink s (s.onService service) := by
  have h := grabReadAndWriteCharacteristics_sameLink s service
  unfold onService
  simp only
  split
  · exact h.trans ⟨rfl, rfl, rfl, rfl, rfl, rfl, rfl⟩
  · exact h.trans ⟨rfl, rfl, rfl, rfl, rfl, rfl, rfl⟩
  · exact h

/-- The services of a successful discovery. -/
def grabServices (s : BluetoothLeService) (services : List GattService) : BluetoothLeService :=
  services.foldl onService { s with servicesReady := true }

theorem grabServices_sameLink (s : BluetoothLeService) (services : List GattService) :
    SameLink { s with servicesReady := true } (s.grabServices services) := by
  unfold grabServices
  generalize ({ s with servicesReady := true } : BluetoothLeService) = s₀
  induction services generalizing s₀ with
  | nil => exact .refl s₀
  | cons service services ih => exact (onService_sameLink s₀ service).trans (ih _)

/-- `onServicesDiscovered`. -/
def onServicesDiscovered (s : BluetoothLeService) (services : List GattService) (status : ℤ)
    (conn : ConnectGatt) : BluetoothLeService × List Retry :=
  if status = gattSuccess then
    let s := s.grabServices services
    if s.writeHandle = none ∨ s.readHandle = none then s.retryConnect conn else (s, [])
  else s.retryConnect conn

/-- `onDescriptorWrite`. -/
def onDescriptorWrite (s : BluetoothLeService) (status : ℤ) : BluetoothLeService :=
  let s :=
    if status = gattSuccess then { s with notificationReady := true, conSem := s.conSem + 1 }
    else s
  { s with commandsQueue := s.commandsQueue.completeCommand }

/-- `onCharacteristicRead`. -/
def onCharacteristicRead (s : BluetoothLeService) : BluetoothLeService :=
  { s with commandsQueue := s.commandsQueue.completeCommand }

end BluetoothLeService

end App
