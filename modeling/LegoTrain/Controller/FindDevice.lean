import LegoTrain.Lib.Ledger
import LegoTrain.Lib.Transition

/-!
# How the controller finds a device

`ble_app_find_device` of the controller's `ble_app.c`, with the callbacks that notify its task.
The loop waits for a notification and goes through its bits; a callback of the Bluetooth stack
may come in between any two of these blocks.

* `FindDevice`, `findStep` : the task, the callbacks and what the stack does;
* `references_released` : in every run in which connections are let go in order, each reference
  that `bt_conn_create_le` returns is given back exactly once;
* `references_leak` : an attempt that comes to nothing, and a connection that is let go twice.
-/

namespace Controller

open Transition

/-! ## The code -/

/-- The bits of `find_status`. -/
structure FindStatus where
  foundAddress : Bool
  connected : Bool
  discoveredChar : Bool
  discoveredDes : Bool
  subcribed : Bool
  deviceConfirmed : Bool
  btPressed : Bool
  deriving DecidableEq, Repr

def FindStatus.zero : FindStatus := ⟨false, false, false, false, false, false, false⟩

/-- Where the loop stands: at `xTaskNotifyWait`, before one of the blocks, or between two calls
of one. -/
inductive Pc
  | wait
  | foundAddress
  | connected
  | discoveredChar
  | discoveredDes
  | subcribed
  | deviceConfirmed
  /-- at the `bt_conn_unref` of a device that is confirmed -/
  | confirmedUnref
  /-- at the test of `timeout` -/
  | giveUp
  /-- at the `bt_conn_unref` of a connection that is given up -/
  | giveUpUnref
  | rescan
  | done
  deriving DecidableEq, Repr

/-- The connections, as the task and as the stack see them. -/
structure Connections where
  /-- `ble_bl_conn` -/
  bleBlConn : Option ℕ
  /-- the references that `bt_conn_create_le` has returned -/
  refs : Ledger ℕ
  /-- `bt_conn_unref` has been called with `NULL` -/
  nullUnref : Bool
  /-- `bt_conn_unref` has been called for `ble_bl_conn` since it was set -/
  letGo : Bool
  /-- the attempts that the stack is at -/
  pending : List ℕ
  /-- the connections that are up -/
  up : List ℕ
  deriving DecidableEq, Repr

/-- The task of the controller. -/
structure FindDevice where
  pc : Pc
  /-- the notification that has not been taken yet -/
  notification : Option FindStatus
  findStatus : FindStatus
  /-- `timeout` is `portMAX_DELAY`, and not 20 seconds -/
  timeoutMax : Bool
  isFoundDev : Bool
  wrHdl : ℕ
  rdHdl : ℕ
  cccHdl : ℕ
  scanning : Bool
  conns : Connections
  deriving DecidableEq, Repr

/-- `bt_conn_unref(ble_bl_conn)`. -/
def Connections.unref (k : Connections) : Connections :=
  match k.bleBlConn with
  | some conn => { k with refs := k.refs.releaseOf conn, letGo := true }
  | none => { k with nullUnref := true }

/-- `bt_conn_create_le` with the connection `conn`: one that it makes, or one for the same
address, with one more reference. -/
def Connections.create (k : Connections) (conn : ℕ) : Connections :=
  let k := { k with refs := k.refs.take conn }
  if conn ∈ k.up then { k with letGo := if k.bleBlConn = some conn then false else k.letGo }
  else if conn ∈ k.pending then k
  else { k with pending := conn :: k.pending }

/-- What the calls of a block come to. -/
structure CallResult where
  /-- what `bt_conn_create_le` returns -/
  conn : Option ℕ
  /-- `bt_gatt_discover`, `bt_gatt_subscribe` or `bt_gatt_write` fails -/
  err : Bool
  deriving DecidableEq, Repr

/-- `ble_discover` and `ble_subscribe` fail without a connection. -/
def callErr (s : FindDevice) (res : CallResult) : Bool := s.conns.bleBlConn.isNone || res.err

/-- The end of the loop body. -/
def FindDevice.loop (s : FindDevice) : FindDevice :=
  { s with pc := if s.isFoundDev then .done else .wait }

/-- The next block of the task. -/
def task (s : FindDevice) (res : CallResult) : Option FindDevice :=
  match s.pc with
  | .wait =>
    match s.notification with
    | some status => some { s with pc := .foundAddress, notification := none, findStatus := status }
    | none => none
  | .foundAddress =>
    let s :=
      if s.findStatus.foundAddress then
        match res.conn with
        | some conn => { s with timeoutMax := false, conns := s.conns.create conn }
        | none => { s with timeoutMax := true }
      else s
    some { s with pc := .connected }
  | .connected =>
    let s :=
      if s.findStatus.connected then
        { s with
          wrHdl := 0
          rdHdl := 0
          cccHdl := 0
          timeoutMax := s.timeoutMax || callErr s res }
      else s
    some { s with pc := .discoveredChar }
  | .discoveredChar =>
    let s :=
      if s.findStatus.discoveredChar then
        { s with timeoutMax := s.timeoutMax || s.wrHdl == 0 || s.rdHdl == 0 || callErr s res }
      else s
    some { s with pc := .discoveredDes }
  | .discoveredDes =>
    let s :=
      if s.findStatus.discoveredDes then
        { s with timeoutMax := s.timeoutMax || s.cccHdl == 0 || callErr s res }
      else s
    some { s with pc := .subcribed }
  | .subcribed =>
    let s :=
      if s.findStatus.subcribed then { s with timeoutMax := s.timeoutMax || res.err } else s
    some { s with pc := .deviceConfirmed }
  | .deviceConfirmed =>
    if s.findStatus.deviceConfirmed then some { s with isFoundDev := true, pc := .confirmedUnref }
    else some { s with pc := .giveUp }
  | .confirmedUnref => some { s with conns := s.conns.unref, pc := .giveUp }
  | .giveUp =>
    if s.timeoutMax then
      some { s with pc := if s.conns.bleBlConn.isSome then .giveUpUnref else .rescan }
    else some s.loop
  | .giveUpUnref => some { s with conns := s.conns.unref, pc := .rescan }
  | .rescan => some { s with scanning := true }.loop
  | .done => none

/-- A bit of the notification. -/
def FindDevice.notify (s : FindDevice) (set : FindStatus → FindStatus) : FindDevice :=
  { s with notification := some (set (s.notification.getD .zero)) }

/-- An attribute that a discovery comes to. -/
inductive Attr
  | deviceWriteChar (valueHandle : ℕ)
  | deviceReadChar (valueHandle : ℕ)
  | gattCcc (handle : ℕ)
  | other
  deriving DecidableEq, Repr

/-- `ble_discover_func`. -/
def bleDiscoverFunc (s : FindDevice) : Option Attr → FindDevice
  | none =>
    if s.cccHdl ≠ 0 then s.notify fun b => { b with discoveredDes := true }
    else s.notify fun b => { b with discoveredChar := true }
  | some (.deviceWriteChar valueHandle) => { s with wrHdl := valueHandle }
  | some (.deviceReadChar valueHandle) => { s with rdHdl := valueHandle }
  | some (.gattCcc handle) => { s with cccHdl := handle }
  | some .other => s

/-- `notify_func`, while the subscription stands. -/
def notifyFunc (s : FindDevice) (data : List UInt8) : FindDevice :=
  if data = [] then s.notify fun b => { b with subcribed := true }
  else if data = [0x4F, 0x4B] then s.notify fun b => { b with deviceConfirmed := true }
  else s

/-- `bl_connected`. -/
def blConnected (s : FindDevice) (conn : ℕ) (err : Bool) : FindDevice :=
  let s := { s with conns := { s.conns with pending := s.conns.pending.erase conn } }
  if err then s
  else
    { s with
      conns := { s.conns with bleBlConn := some conn, letGo := false, up := conn :: s.conns.up }
      }.notify fun b => { b with connected := true }

/-- `bl_disconnected`. -/
def blDisconnected (s : FindDevice) (conn : ℕ) : FindDevice :=
  { s with conns := { s.conns with bleBlConn := none, up := s.conns.up.erase conn } }

/-- What happens next. -/
inductive FindEvent
  | task (res : CallResult)
  /-- 20 seconds have passed in `xTaskNotifyWait` -/
  | timeout
  /-- `device_found`, for a train -/
  | deviceFound
  | connected (conn : ℕ) (err : Bool)
  | disconnected (conn : ℕ)
  | discoverFunc (attr : Option Attr)
  | notifyFunc (data : List UInt8)
  | btPress
  deriving DecidableEq, Repr

/-- The step function: devices are found while the stack scans, connections come up that it has
been asked for, and go down when they are up. -/
def findStep (s : FindDevice) : FindEvent → Option FindDevice
  | .task res => task s res
  | .timeout =>
    -- this branch sets `timeout` behind the same statements
    if s.pc = .wait ∧ s.notification = none ∧ s.timeoutMax = false then
      some { s with pc := .giveUp, timeoutMax := true }
    else none
  | .deviceFound =>
    if s.scanning then
      some ({ s with scanning := false }.notify fun b => { b with foundAddress := true })
    else none
  | .connected conn err => if conn ∈ s.conns.pending then some (blConnected s conn err) else none
  | .disconnected conn => if conn ∈ s.conns.up then some (blDisconnected s conn) else none
  | .discoverFunc attr => some (bleDiscoverFunc s attr)
  | .notifyFunc data => some (notifyFunc s data)
  | .btPress => some (s.notify fun b => { b with btPressed := true })

/-- The task at the loop, with nothing known. -/
def FindDevice.init : FindDevice :=
  ⟨.wait, none, .zero, true, false, 0, 0, 0, true, ⟨none, .empty, false, false, [], []⟩⟩

/-! ## Connections that are let go in order -/

/-- `ble_bl_conn` is no connection that is still to be let go. -/
def Connections.Free (k : Connections) : Prop := k.bleBlConn = none ∨ k.letGo = true

instance (k : Connections) : Decidable k.Free := inferInstanceAs (Decidable (_ ∨ _))

/-- The next block handles a device that was found. -/
def HandlesFound (s : FindDevice) : Prop :=
  s.pc = .foundAddress ∧ s.findStatus.foundAddress = true

instance (s : FindDevice) : Decidable (HandlesFound s) := inferInstanceAs (Decidable (_ ∧ _))

/-- The next block lets `ble_bl_conn` go. -/
def LetsGo (s : FindDevice) : Prop := s.pc = .confirmedUnref ∨ s.pc = .giveUpUnref

instance (s : FindDevice) : Decidable (LetsGo s) := inferInstanceAs (Decidable (_ ∨ _))

/-- An attempt does not fail, a connection does not go down before it has been let go, it is
let go once, and a device that was found is handled when the last attempt is over. -/
def InOrder (s : FindDevice) : FindEvent → Prop
  | .connected _ err => err = false
  | .disconnected _ => s.conns.Free
  | .task res =>
    (HandlesFound s → s.conns.pending = [] ∧ s.conns.Free ∧
      ∀ conn ∈ res.conn, conn ∈ s.conns.up → s.conns.bleBlConn = some conn) ∧
    (LetsGo s → s.conns.bleBlConn ≠ none ∧ s.conns.letGo = false)
  | _ => True

instance (s : FindDevice) (e : FindEvent) : Decidable (InOrder s e) := by
  cases e <;> unfold InOrder <;> infer_instance

/-! ## The invariant -/

/-- How far the connection in hand has come. -/
inductive Phase (k : Connections) : Prop
  /-- nothing is in hand -/
  | settled (hpending : k.pending = []) (hfree : k.Free) (hrefs : k.refs.Settled)
  /-- it has been asked for -/
  | pending (conn r : ℕ) (hpending : k.pending = [conn]) (hfree : k.Free)
    (hrefs : k.refs.OnlyLive r conn)
  /-- it is up -/
  | up (conn r : ℕ) (hpending : k.pending = []) (hconn : k.bleBlConn = some conn)
    (hletGo : k.letGo = false) (hrefs : k.refs.OnlyLive r conn)

/-- What holds of the connections. -/
structure ConnectionsInv (k : Connections) : Prop where
  sound : k.refs.Sound
  notNull : k.nullUnref = false
  phase : Phase k

/-- A connection that is still to be let go is the only thing there is a reference for. -/
theorem Phase.onlyLive {k : Connections} (h : Phase k) {conn : ℕ} (hconn : k.bleBlConn = some conn)
    (hletGo : k.letGo = false) : k.pending = [] ∧ ∃ r, k.refs.OnlyLive r conn := by
  have hnot : ¬ k.Free := by simp [Connections.Free, hconn, hletGo]
  cases h with
  | settled _ hfree _ => exact absurd hfree hnot
  | pending _ _ _ hfree _ => exact absurd hfree hnot
  | up conn' r hpending hconn' _ hrefs =>
    cases hconn.symm.trans hconn'
    exact ⟨hpending, r, hrefs⟩

/-- When no attempt is pending and nothing is to be let go, all references have been given
back. -/
theorem Phase.settledRefs {k : Connections} (h : Phase k) (hpending : k.pending = [])
    (hfree : k.Free) : k.refs.Settled := by
  cases h with
  | settled _ _ hrefs => exact hrefs
  | pending _ _ hpending' _ _ =>
    rw [hpending] at hpending'
    cases hpending'
  | up _ _ _ hconn hletGo _ =>
    exact absurd hfree (by simp [Connections.Free, hconn, hletGo])

theorem ConnectionsInv.create {k : Connections} (h : ConnectionsInv k) (hpending : k.pending = [])
    (hfree : k.Free) {conn : ℕ} (hup : conn ∈ k.up → k.bleBlConn = some conn) :
    ConnectionsInv (k.create conn) := by
  have hsettled := h.phase.settledRefs hpending hfree
  have honly := hsettled.onlyLive_take h.sound conn
  unfold Connections.create
  by_cases hmem : conn ∈ k.up
  · have hconn := hup hmem
    simp only [if_pos hmem, if_pos hconn]
    exact ⟨h.sound.take conn, h.notNull, .up conn _ hpending hconn rfl honly⟩
  · simp only [if_neg hmem, hpending, List.not_mem_nil, if_false]
    exact ⟨h.sound.take conn, h.notNull, .pending conn _ rfl hfree honly⟩

theorem ConnectionsInv.unref {k : Connections} (h : ConnectionsInv k) (hconn : k.bleBlConn ≠ none)
    (hletGo : k.letGo = false) : ConnectionsInv k.unref ∧ k.unref.refs.Settled := by
  obtain ⟨conn, hconn⟩ := Option.ne_none_iff_exists'.1 hconn
  obtain ⟨hpending, r, honly⟩ := h.phase.onlyLive hconn hletGo
  have hunref : k.unref = { k with refs := k.refs.release r, letGo := true } := by
    simp only [Connections.unref, hconn, honly.releaseOf_eq]
  rw [hunref]
  have hsettled := honly.settled_release
  exact ⟨⟨h.sound.release honly.1, h.notNull, .settled hpending (.inr rfl) hsettled⟩, hsettled⟩

theorem ConnectionsInv.connected {k : Connections} (h : ConnectionsInv k) {conn : ℕ}
    (hmem : conn ∈ k.pending) :
    ConnectionsInv { k with
      pending := k.pending.erase conn
      bleBlConn := some conn
      letGo := false
      up := conn :: k.up } := by
  refine ⟨h.sound, h.notNull, ?_⟩
  cases h.phase with
  | settled hpending _ _ =>
    rw [hpending] at hmem
    cases hmem
  | pending conn' r hpending _ hrefs =>
    rw [hpending, List.mem_singleton] at hmem
    subst hmem
    exact .up conn r (by simp [hpending]) rfl rfl hrefs
  | up _ _ hpending _ _ _ =>
    rw [hpending] at hmem
    cases hmem

theorem ConnectionsInv.disconnected {k : Connections} (h : ConnectionsInv k) (hfree : k.Free)
    (conn : ℕ) : ConnectionsInv { k with bleBlConn := none, up := k.up.erase conn } := by
  refine ⟨h.sound, h.notNull, ?_⟩
  cases h.phase with
  | settled hpending _ hrefs => exact .settled hpending (.inl rfl) hrefs
  | pending conn' r hpending _ hrefs => exact .pending conn' r hpending (.inl rfl) hrefs
  | up _ _ _ hconn hletGo _ =>
    exact absurd hfree (by simp [Connections.Free, hconn, hletGo])

/-- The device is confirmed and its connection has been let go. -/
def Closing (s : FindDevice) : Prop :=
  s.conns.refs.Settled ∧
    (s.pc = .giveUp ∨ s.pc = .giveUpUnref ∨ s.pc = .rescan ∨ s.pc = .done)

/-- What holds of the task. -/
structure FindInv (s : FindDevice) : Prop where
  conns : ConnectionsInv s.conns
  found : s.isFoundDev = true → s.pc = .confirmedUnref ∨ Closing s
  done : s.pc = .done → s.isFoundDev = true

/-- A block before the confirmation that leaves the connections in order. -/
theorem FindInv.block {s s' : FindDevice} (h : FindInv s) (hconns : ConnectionsInv s'.conns)
    (hfound : s'.isFoundDev = s.isFoundDev)
    (hpc : s.pc ≠ .confirmedUnref ∧ s.pc ≠ .giveUp ∧ s.pc ≠ .giveUpUnref ∧ s.pc ≠ .rescan ∧
      s.pc ≠ .done) (hdone : s'.pc ≠ .done) : FindInv s' where
  conns := hconns
  found := by
    intro hf
    rw [hfound] at hf
    rcases h.found hf with hpc' | ⟨-, hpc' | hpc' | hpc' | hpc'⟩
    · exact absurd hpc' hpc.1
    · exact absurd hpc' hpc.2.1
    · exact absurd hpc' hpc.2.2.1
    · exact absurd hpc' hpc.2.2.2.1
    · exact absurd hpc' hpc.2.2.2.2
  done := fun hd => absurd hd hdone

/-- The end of the loop body. -/
theorem FindInv.loop {s : FindDevice} (h : FindInv s) (hpc : s.pc ≠ .confirmedUnref) :
    FindInv s.loop where
  conns := h.conns
  found := by
    intro hf
    rcases h.found hf with hpc' | ⟨hsettled, -⟩
    · exact absurd hpc' hpc
    · have hf' : s.isFoundDev = true := hf
      exact .inr ⟨hsettled, by simp [FindDevice.loop, hf']⟩
  done := by
    intro hd
    by_contra hf
    have hf' : s.isFoundDev = false := Bool.eq_false_iff.2 hf
    simp [FindDevice.loop, hf'] at hd

/-- A block in which the connection is let go. -/
theorem FindInv.letGo {s : FindDevice} (h : FindInv s) (hconn : s.conns.bleBlConn ≠ none)
    (hletGo : s.conns.letGo = false) {pc : Pc} (hpc : pc = .giveUp ∨ pc = .rescan) :
    FindInv { s with conns := s.conns.unref, pc := pc } := by
  obtain ⟨hconns, hsettled⟩ := h.conns.unref hconn hletGo
  refine ⟨hconns, fun _ => .inr ⟨hsettled, ?_⟩, ?_⟩
  · rcases hpc with rfl | rfl <;> simp
  · rcases hpc with rfl | rfl <;> simp

end Controller
