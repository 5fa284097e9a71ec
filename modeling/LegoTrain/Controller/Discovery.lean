import LegoTrain.Controller.FindDevice

/-!
# The discovery of a train

`ble_app_find_device` of the controller's `ble_app.c`, from the moment a connection comes up to
`bt_gatt_subscribe` or to its end.  The stack answers `bt_gatt_discover` from the attribute
database of the peer, in handle order, as `gatt_read_type_rsp` and `gatt_find_info_rsp` of
`gatt.c` do.  Which discovery is complete is told from `ccc_hdl` alone.

* `Database` : the attributes of a peer;
* `Discovery`, `discoveryStep` : the task and the stack;
* `EndsRight` : what the discovery is to do;
* `Fits` : the databases with which it does;
* `discovery_iff` : exactly these.
-/

namespace Controller

open Transition

/-! ## The attributes of a peer -/

/-- The UUIDs of characteristics. -/
inductive CharUuid
  | deviceWrite
  | deviceRead
  /-- that of the CCC descriptor, which is not meant for a characteristic -/
  | gattCcc
  | other
  deriving DecidableEq, Repr

/-- The types of attributes. -/
inductive AttrType
  /-- the declaration of a primary or secondary service -/
  | service
  | included
  /-- the declaration of a characteristic -/
  | characteristic (uuid : CharUuid) (valueHandle : ℕ)
  /-- a descriptor, or the value of a characteristic, with the UUID of the CCC descriptor -/
  | gattCcc
  /-- any other one -/
  | other
  deriving DecidableEq, Repr

structure Attribute where
  handle : ℕ
  type : AttrType
  deriving DecidableEq, Repr

/-- The type of the value of a characteristic. -/
def CharUuid.valueType : CharUuid → AttrType
  | .gattCcc => .gattCcc
  | _ => .other

/-- The attribute database of a peer, as its responses to the find information requests cut
it. -/
structure Database where
  pdus : List (List Attribute)
  sorted : pdus.flatten.Pairwise fun a b => a.handle < b.handle
  inRange : ∀ a ∈ pdus.flatten, 0 < a.handle ∧ a.handle ≤ 0xFFFF
  /-- the attribute behind a declaration is its value -/
  valued : ∀ a ∈ pdus.flatten, ∀ uuid v, a.type = .characteristic uuid v →
    ∃ b ∈ pdus.flatten, b.handle = v ∧ b.type = uuid.valueType ∧ a.handle < v ∧
      ∀ x ∈ pdus.flatten, a.handle < x.handle → v ≤ x.handle

/-- What `ble_discover_func` is called with for a declaration. -/
def Attribute.declared (a : Attribute) : Option Attr :=
  match a.type with
  | .characteristic .deviceWrite v => some (.deviceWriteChar v)
  | .characteristic .deviceRead v => some (.deviceReadChar v)
  | .characteristic _ _ => some .other
  | _ => none

/-- `gatt_find_info_rsp`: what it is called with for one response. -/
def findInfoRsp (skip : Bool) : List Attribute → List Attr
  | [] => []
  | a :: as =>
    if skip then findInfoRsp false as
    else
      match a.type with
      | .service => findInfoRsp false as
      | .included => findInfoRsp false as
      | .characteristic _ _ => findInfoRsp true as
      | .gattCcc => .gattCcc a.handle :: findInfoRsp false as
      | .other => .other :: findInfoRsp false as

namespace Database

variable (db : Database)

def attributes : List Attribute := db.pdus.flatten

/-- The answers to a discovery of characteristics. -/
def characteristics : List Attr := db.attributes.filterMap Attribute.declared

/-- The answers to a discovery of descriptors. -/
def descriptors : List Attr := db.pdus.flatMap (findInfoRsp false)

end Database

/-! ## The task and the stack -/

/-- The steps of the discovery, which the task is notified of. -/
inductive Stage
  | connected
  | discoveredChar
  | discoveredDes
  deriving DecidableEq, Repr

namespace Stage

def bit : Stage → FindStatus → Bool
  | .connected => FindStatus.connected
  | .discoveredChar => FindStatus.discoveredChar
  | .discoveredDes => FindStatus.discoveredDes

/-- The block of the loop that handles it. -/
def block : Stage → Pc
  | .connected => .connected
  | .discoveredChar => .discoveredChar
  | .discoveredDes => .discoveredDes

/-- The block is still to come when the loop stands at `pc`. -/
def ahead : Stage → Pc → Bool
  | _, .foundAddress => true
  | _, .connected => true
  | b, .discoveredChar => b ≠ .connected
  | b, .discoveredDes => b = .discoveredDes
  | _, _ => false

end Stage

/-- The next block handles the step. -/
def Handles (s : FindDevice) (b : Stage) : Prop := s.pc = b.block ∧ b.bit s.findStatus = true

instance (s : FindDevice) (b : Stage) : Decidable (Handles s b) :=
  inferInstanceAs (Decidable (_ ∧ _))

/-- How often the task is still to handle the step. -/
def pendingCount (s : FindDevice) (b : Stage) : ℕ :=
  (s.notification.any b.bit).toNat + (b.ahead s.pc && b.bit s.findStatus).toNat

/-- The task is to handle this step, and no other. -/
def Only (s : FindDevice) (o : Option Stage) : Prop :=
  ∀ b, pendingCount s b = if o = some b then 1 else 0

/-- The next block gives the connection up. -/
def Abandons (s : FindDevice) : Prop :=
  s.pc = .giveUp ∧ s.timeoutMax = true ∨
    s.pc = .deviceConfirmed ∧ s.findStatus.deviceConfirmed = true

instance (s : FindDevice) : Decidable (Abandons s) := inferInstanceAs (Decidable (_ ∨ _))

/-- The task with one connection. -/
structure Discovery where
  find : FindDevice
  /-- what the stack has still to call `ble_discover_func` with, before `NULL` -/
  answers : Option (List Attr)
  /-- the calls of `bt_gatt_discover` -/
  requests : ℕ
  /-- `rd_hdl` and `ccc_hdl` at the call of `bt_gatt_subscribe` -/
  subscribed : Option (ℕ × ℕ)
  abandoned : Bool
  deriving DecidableEq, Repr

/-- What happens next. -/
inductive DiscoveryEvent
  | task (res : CallResult)
  | timeout
  | btPress
  /-- the stack calls `ble_discover_func` -/
  | deliver
  | disconnected (conn : ℕ)
  deriving DecidableEq, Repr

namespace Discovery

/-- It has been subscribed, or the connection has been given up. -/
def Over (s : Discovery) : Prop := s.subscribed ≠ none ∨ s.abandoned = true

instance (s : Discovery) : Decidable s.Over := inferInstanceAs (Decidable (_ ∨ _))

/-- `bt_gatt_discover`, which fails or not. -/
def discover (s : Discovery) (answers : List Attr) (err : Bool) : Discovery :=
  { s with
    requests := s.requests + 1
    answers := if err then s.answers else some answers }

/-- The calls of `bt_gatt_discover` and `bt_gatt_subscribe` in the next block. -/
def calls (db : Database) (s : Discovery) (res : CallResult) : Discovery :=
  if s.find.conns.bleBlConn = none then s
  else if Handles s.find .connected then s.discover db.characteristics res.err
  else if Handles s.find .discoveredChar ∧ s.find.wrHdl ≠ 0 ∧ s.find.rdHdl ≠ 0 then
    s.discover db.descriptors res.err
  else if Handles s.find .discoveredDes ∧ s.find.cccHdl ≠ 0 then
    { s with subscribed := some (s.find.rdHdl, s.find.cccHdl) }
  else s

/-- The task goes through its next block. -/
def block (db : Database) (s : Discovery) (res : CallResult) (find : FindDevice) : Discovery :=
  { s.calls db res with find := find, abandoned := Abandons s.find }

end Discovery

/-- A step, up to the subscription or to the end of the connection. -/
def discoveryStep (db : Database) (s : Discovery) (e : DiscoveryEvent) : Option Discovery :=
  if s.Over then none
  else
    match e with
    | .task res => (task s.find res).map (s.block db res)
    | .timeout => (findStep s.find .timeout).map fun find => { s with find := find }
    | .btPress => (findStep s.find .btPress).map fun find => { s with find := find }
    | .deliver =>
      match s.answers with
      | some (a :: as) =>
        some { s with find := bleDiscoverFunc s.find (some a), answers := some as }
      | some [] => some { s with find := bleDiscoverFunc s.find none, answers := none }
      | none => none
    | .disconnected conn =>
      -- the stack gives the discovery up
      (findStep s.find (.disconnected conn)).map fun find =>
        { s with find := find, answers := s.answers.map fun _ => [] }

/-- The task of a connection that has just come up: of the discovery, `bl_connected` is all it
has been notified of. -/
structure JustConnected (s : FindDevice) : Prop where
  bleBlConn : s.conns.bleBlConn ≠ none
  only : Only s (some .connected)

/-- Nothing has been asked for. -/
def Discovery.start (s : FindDevice) : Discovery := ⟨s, none, 0, none, false⟩

/-! ## What the discovery is to do -/

/-- The handle `ccc` is one of a descriptor of the characteristic with the value `rd`. -/
def Database.DescriptorOf (db : Database) (rd ccc : ℕ) : Prop :=
  rd < ccc ∧ ∀ a ∈ db.attributes, a.declared ≠ none → rd < a.handle → ccc < a.handle

/-- The discovery ends, and picks the right descriptor. -/
structure EndsRight (db : Database) : Prop where
  finite : ∃ n, ∀ s₀ es s, JustConnected s₀ →
    run (discoveryStep db) (.start s₀) es = some s → s.requests ≤ n
  descriptor : ∀ s₀ es s rd ccc, JustConnected s₀ →
    run (discoveryStep db) (.start s₀) es = some s → s.subscribed = some (rd, ccc) →
      db.DescriptorOf rd ccc

namespace Attr

/-- The handles that `ble_discover_func` takes from an attribute. -/
def writeHandle : Attr → Option ℕ
  | .deviceWriteChar v => some v
  | _ => none

def readHandle : Attr → Option ℕ
  | .deviceReadChar v => some v
  | _ => none

def cccHandle : Attr → Option ℕ
  | .gattCcc handle => some handle
  | _ => none

end Attr

namespace Database

variable (db : Database)

/-- The value of the last write characteristic. -/
def lastWrite : Option ℕ := (db.characteristics.filterMap Attr.writeHandle).getLast?

def lastRead : Option ℕ := (db.characteristics.filterMap Attr.readHandle).getLast?

/-- The last CCC descriptor of all. -/
def lastCcc : Option ℕ := (db.descriptors.filterMap Attr.cccHandle).getLast?

end Database

/-- There is no read or no write characteristic, or the last CCC descriptor is one of the last
read characteristic. -/
def Fits (db : Database) : Prop :=
  ∀ rd, db.lastWrite ≠ none → db.lastRead = some rd →
    ∃ ccc, db.lastCcc = some ccc ∧ db.DescriptorOf rd ccc

/-! ## The handles -/

/-- The handle after some attributes: the last one there is. -/
def handleAfter (f : Attr → Option ℕ) (handle : ℕ) (as : List Attr) : ℕ :=
  as.foldl (fun h a => (f a).getD h) handle

theorem handleAfter_eq (f : Attr → Option ℕ) (handle : ℕ) (as : List Attr) :
    handleAfter f handle as = (as.filterMap f).getLast?.getD handle := by
  induction as generalizing handle with
  | nil => rfl
  | cons a as ih =>
    have htail : handleAfter f handle (a :: as) = handleAfter f ((f a).getD handle) as := rfl
    rw [htail, ih]
    cases hf : f a with
    | none => rw [List.filterMap_cons_none hf, Option.getD_none]
    | some v =>
      rw [List.filterMap_cons_some hf, List.getLast?_cons, Option.getD_some, Option.getD_some]

theorem handleAfter_of_none {f : Attr → Option ℕ} {as : List Attr} (h : ∀ a ∈ as, f a = none)
    (handle : ℕ) : handleAfter f handle as = handle := by
  rw [handleAfter_eq, List.filterMap_eq_nil_iff.2 h]
  rfl

@[simp] theorem handleAfter_concat (f : Attr → Option ℕ) (handle : ℕ) (as : List Attr) (a : Attr) :
    handleAfter f handle (as ++ [a]) = (f a).getD (handleAfter f handle as) := by
  simp [handleAfter]

/-- What `ble_discover_func` does with an attribute. -/
theorem bleDiscoverFunc_some (s : FindDevice) (a : Attr) :
    bleDiscoverFunc s (some a)
      = { s with
          wrHdl := a.writeHandle.getD s.wrHdl
          rdHdl := a.readHandle.getD s.rdHdl
          cccHdl := a.cccHandle.getD s.cccHdl } := by
  cases a <;> rfl

namespace Database

variable {db : Database}

theorem mem_characteristics {a : Attr} (h : a ∈ db.characteristics) :
    ∃ x ∈ db.attributes, x.declared = some a := List.mem_filterMap.1 h

/-- A discovery of characteristics finds no descriptor. -/
theorem cccHandle_characteristics : ∀ a ∈ db.characteristics, a.cccHandle = none := by
  intro a ha
  obtain ⟨x, -, hx⟩ := mem_characteristics ha
  unfold Attribute.declared at hx
  split at hx <;> cases hx <;> rfl

/-- What a find information response gives. -/
theorem mem_findInfoRsp {skip : Bool} {as : List Attribute} {a : Attr}
    (h : a ∈ findInfoRsp skip as) :
    a = .other ∨ ∃ x ∈ as, a = .gattCcc x.handle := by
  induction as generalizing skip with
  | nil => cases h
  | cons x as ih =>
    have hlater {skip' : Bool} (h' : a ∈ findInfoRsp skip' as) :
        a = .other ∨ ∃ y ∈ x :: as, a = .gattCcc y.handle := by
      rcases ih h' with hother | ⟨y, hy, heq⟩
      · exact .inl hother
      · exact .inr ⟨y, List.mem_cons_of_mem _ hy, heq⟩
    unfold findInfoRsp at h
    split at h
    · exact hlater h
    · split at h
      · exact hlater h
      · exact hlater h
      · exact hlater h
      · rcases List.mem_cons.1 h with rfl | h
        · exact .inr ⟨x, List.mem_cons_self, rfl⟩
        · exact hlater h
      · rcases List.mem_cons.1 h with rfl | h
        · exact .inl rfl
        · exact hlater h

theorem mem_descriptors {a : Attr} (h : a ∈ db.descriptors) :
    a = .other ∨ ∃ x ∈ db.attributes, a = .gattCcc x.handle := by
  obtain ⟨pdu, hpdu, ha⟩ := List.mem_flatMap.1 h
  rcases mem_findInfoRsp ha with hother | ⟨x, hx, heq⟩
  · exact .inl hother
  · exact .inr ⟨x, List.mem_flatten.2 ⟨pdu, hpdu, hx⟩, heq⟩

/-- A discovery of descriptors finds no characteristic. -/
theorem writeHandle_descriptors : ∀ a ∈ db.descriptors, a.writeHandle = none := by
  intro a ha
  rcases mem_descriptors ha with rfl | ⟨x, -, rfl⟩ <;> rfl

theorem readHandle_descriptors : ∀ a ∈ db.descriptors, a.readHandle = none := by
  intro a ha
  rcases mem_descriptors ha with rfl | ⟨x, -, rfl⟩ <;> rfl

/-- No handle is zero. -/
theorem lastCcc_pos {ccc : ℕ} (h : db.lastCcc = some ccc) : ccc ≠ 0 := by
  obtain ⟨a, ha, hccc⟩ := List.mem_filterMap.1 (List.mem_of_getLast? h)
  rcases mem_descriptors ha with rfl | ⟨x, hx, rfl⟩
  · cases hccc
  · cases hccc
    exact Nat.ne_of_gt (db.inRange x hx).1

/-- The value of a characteristic that was found. -/
theorem value_pos {a : Attr} (h : a ∈ db.characteristics) {v : ℕ}
    (hv : a.writeHandle = some v ∨ a.readHandle = some v) : v ≠ 0 := by
  obtain ⟨x, hx, hdecl⟩ := mem_characteristics h
  have hvalue : ∃ uuid, x.type = .characteristic uuid v := by
    unfold Attribute.declared at hdecl
    split at hdecl
    · rename_i w htype
      cases hdecl
      rcases hv with hv | hv
      · cases hv
        exact ⟨_, htype⟩
      · cases hv
    · rename_i w htype
      cases hdecl
      rcases hv with hv | hv
      · cases hv
      · cases hv
        exact ⟨_, htype⟩
    · cases hdecl
      rcases hv with hv | hv <;> cases hv
    · cases hdecl
  obtain ⟨uuid, htype⟩ := hvalue
  obtain ⟨b, -, -, -, hlt, -⟩ := db.valued x hx uuid v htype
  exact Nat.ne_of_gt (Nat.zero_lt_of_lt hlt)

theorem lastWrite_pos {wr : ℕ} (h : db.lastWrite = some wr) : wr ≠ 0 := by
  obtain ⟨a, ha, hwr⟩ := List.mem_filterMap.1 (List.mem_of_getLast? h)
  exact value_pos ha (.inl hwr)

theorem lastRead_pos {rd : ℕ} (h : db.lastRead = some rd) : rd ≠ 0 := by
  obtain ⟨a, ha, hrd⟩ := List.mem_filterMap.1 (List.mem_of_getLast? h)
  exact value_pos ha (.inr hrd)

end Database

/-! ## What a block does -/

@[simp] theorem bleBlConn_create (k : Connections) (conn : ℕ) :
    (k.create conn).bleBlConn = k.bleBlConn := by
  unfold Connections.create
  simp only
  split
  · rfl
  · split <;> rfl

@[simp] theorem bleBlConn_unref (k : Connections) : k.unref.bleBlConn = k.bleBlConn := by
  unfold Connections.unref
  split <;> rfl

/-- Where the loop may stand behind a block. -/
def Pc.next : Pc → List Pc
  | .wait => [.foundAddress]
  | .foundAddress => [.connected]
  | .connected => [.discoveredChar]
  | .discoveredChar => [.discoveredDes]
  | .discoveredDes => [.subcribed]
  | .subcribed => [.deviceConfirmed]
  | .deviceConfirmed => [.confirmedUnref, .giveUp]
  | .confirmedUnref => [.giveUp]
  | .giveUp => [.giveUpUnref, .rescan, .done, .wait]
  | .giveUpUnref => [.rescan]
  | .rescan => [.done, .wait]
  | .done => []

/-- What a block does to the notifications, the connection and the handles. -/
structure TaskFrame (s s' : FindDevice) : Prop where
  pc : s'.pc ∈ s.pc.next
  taken : s.pc = .wait → s.notification = some s'.findStatus ∧ s'.notification = none
  kept : s.pc ≠ .wait → s'.notification = s.notification ∧ s'.findStatus = s.findStatus
  bleBlConn : s'.conns.bleBlConn = s.conns.bleBlConn
  zeroed : Handles s .connected → s'.wrHdl = 0 ∧ s'.rdHdl = 0 ∧ s'.cccHdl = 0
  handles : ¬ Handles s .connected →
    s'.wrHdl = s.wrHdl ∧ s'.rdHdl = s.rdHdl ∧ s'.cccHdl = s.cccHdl

/-- A block that is not one of the discovery. -/
theorem TaskFrame.other {s s' : FindDevice} (hpc : s'.pc ∈ s.pc.next)
    (hwait : s.pc ≠ .wait) (hconnected : s.pc ≠ .connected)
    (hnotification : s'.notification = s.notification) (hstatus : s'.findStatus = s.findStatus)
    (hconn : s'.conns.bleBlConn = s.conns.bleBlConn)
    (hhandles : s'.wrHdl = s.wrHdl ∧ s'.rdHdl = s.rdHdl ∧ s'.cccHdl = s.cccHdl) :
    TaskFrame s s' :=
  ⟨hpc, fun h => absurd h hwait, fun _ => ⟨hnotification, hstatus⟩, hconn,
    fun h => absurd h.1 hconnected, fun _ => hhandles⟩

theorem task_frame {s s' : FindDevice} {res : CallResult} (h : task s res = some s') :
    TaskFrame s s' := by
  unfold task at h
  split at h
  case h_1 hpc =>
    split at h
    · rename_i status hstatus
      cases h
      exact ⟨by simp [hpc, Pc.next], fun _ => ⟨hstatus, rfl⟩, fun hne => absurd hpc hne, rfl,
        fun hconn => by simp [hpc, Handles, Stage.block] at hconn, fun _ => ⟨rfl, rfl, rfl⟩⟩
    · cases h
  case h_2 hpc =>
    cases h
    refine .other (by simp [hpc, Pc.next]) (by simp [hpc]) (by simp [hpc]) ?_ ?_ ?_ ?_
    all_goals
      split
      · split <;> simp
      · simp
  case h_3 hpc =>
    cases h
    by_cases hbit : s.findStatus.connected = true
    · refine ⟨by simp [hpc, Pc.next], fun hw => ?_, fun _ => by simp [hbit], by simp [hbit],
        fun _ => by simp [hbit], fun hno => absurd ⟨hpc, hbit⟩ hno⟩
      rw [hpc] at hw
      cases hw
    · refine ⟨by simp [hpc, Pc.next], fun hw => ?_, fun _ => by simp [hbit], by simp [hbit],
        fun hyes => absurd hyes.2 hbit, fun _ => by simp [hbit]⟩
      rw [hpc] at hw
      cases hw
  case h_4 hpc =>
    cases h
    refine .other (by simp [hpc, Pc.next]) (by simp [hpc]) (by simp [hpc]) ?_ ?_ ?_ ?_
    all_goals split <;> simp
  case h_5 hpc =>
    cases h
    refine .other (by simp [hpc, Pc.next]) (by simp [hpc]) (by simp [hpc]) ?_ ?_ ?_ ?_
    all_goals split <;> simp
  case h_6 hpc =>
    cases h
    refine .other (by simp [hpc, Pc.next]) (by simp [hpc]) (by simp [hpc]) ?_ ?_ ?_ ?_
    all_goals split <;> simp
  case h_7 hpc =>
    split at h
    · cases h
      exact .other (by simp [hpc, Pc.next]) (by simp [hpc]) (by simp [hpc]) rfl rfl rfl
        ⟨rfl, rfl, rfl⟩
    · cases h
      exact .other (by simp [hpc, Pc.next]) (by simp [hpc]) (by simp [hpc]) rfl rfl rfl
        ⟨rfl, rfl, rfl⟩
  case h_8 hpc =>
    cases h
    exact .other (by simp [hpc, Pc.next]) (by simp [hpc]) (by simp [hpc]) rfl rfl (by simp)
      ⟨rfl, rfl, rfl⟩
  case h_9 hpc =>
    split at h
    · cases h
      refine .other ?_ (by simp [hpc]) (by simp [hpc]) rfl rfl rfl ⟨rfl, rfl, rfl⟩
      simp only [hpc, Pc.next]
      split <;> simp
    · cases h
      refine .other ?_ (by simp [hpc]) (by simp [hpc]) rfl rfl rfl ⟨rfl, rfl, rfl⟩
      simp only [hpc, Pc.next, FindDevice.loop]
      split <;> simp
  case h_10 hpc =>
    cases h
    exact .other (by simp [hpc, Pc.next]) (by simp [hpc]) (by simp [hpc]) rfl rfl (by simp)
      ⟨rfl, rfl, rfl⟩
  case h_11 hpc =>
    cases h
    refine .other ?_ (by simp [hpc]) (by simp [hpc]) rfl rfl rfl ⟨rfl, rfl, rfl⟩
    simp only [hpc, Pc.next, FindDevice.loop]
    split <;> simp
  case h_12 hpc => cases h

/-! ## What the task is still to handle -/

/-- The block of a step is not to come any more when it has been passed. -/
theorem ahead_next (b : Stage) {pc : Pc} (hwait : pc ≠ .wait) :
    ∀ pc' ∈ pc.next, b.ahead pc' = (b.ahead pc && pc ≠ b.block) := by
  cases pc <;> cases b <;> simp_all [Pc.next, Stage.ahead, Stage.block]

theorem ahead_block (b : Stage) : b.ahead b.block = true := by cases b <;> rfl

theorem pendingCount_task {s s' : FindDevice} {res : CallResult} (h : task s res = some s')
    (b : Stage) : pendingCount s' b + (if Handles s b then 1 else 0) = pendingCount s b := by
  have hframe := task_frame h
  unfold pendingCount Handles
  by_cases hwait : s.pc = .wait
  · obtain ⟨hsome, hnone⟩ := hframe.taken hwait
    have hpc : s'.pc = .foundAddress := by
      simpa [hwait, Pc.next] using hframe.pc
    have hblock : Pc.wait ≠ b.block := by cases b <;> simp [Stage.block]
    simp [hsome, hnone, hpc, hwait, hblock, Stage.ahead]
  · obtain ⟨hnotification, hstatus⟩ := hframe.kept hwait
    rw [hnotification, hstatus, ahead_next b hwait _ hframe.pc]
    by_cases hblock : s.pc = b.block
    · have hahead := ahead_block b
      by_cases hbit : b.bit s.findStatus = true
      · simp [hblock, hahead, hbit]
      · simp [hblock, hbit]
    · simp [hblock]

/-- What is handled was to be handled. -/
theorem Handles.pendingCount_pos {s : FindDevice} {b : Stage} (h : Handles s b) :
    0 < pendingCount s b := by
  unfold pendingCount
  rw [h.1, h.2, ahead_block]
  simp

theorem Only.handles {s : FindDevice} {o : Option Stage} {b : Stage} (h : Only s o)
    (hb : Handles s b) : o = some b := by
  by_contra hne
  have hpos := hb.pendingCount_pos
  rw [h b, if_neg hne] at hpos
  exact Nat.lt_irrefl 0 hpos

/-- The step is handled, or it stays. -/
theorem Only.task {s s' : FindDevice} {res : CallResult} {o : Option Stage} (h : Only s o)
    (hs : task s res = some s') :
    (∃ b, Handles s b ∧ o = some b ∧ Only s' none) ∨ (∀ b, ¬ Handles s b) ∧ Only s' o := by
  by_cases hb : ∃ b, Handles s b
  · obtain ⟨b, hb⟩ := hb
    have ho := h.handles hb
    refine .inl ⟨b, hb, ho, fun b' => ?_⟩
    have hcount := pendingCount_task hs b'
    rw [h b', ho] at hcount
    by_cases hb' : b = b'
    · subst hb'
      simp only [hb, if_true] at hcount
      simpa using hcount
    · have hno : ¬ Handles s b' := fun hyes => hb' (Option.some.inj (ho.symm.trans (h.handles hyes)))
      simpa [hb', hno] using hcount
  · have hno := not_exists.1 hb
    refine .inr ⟨hno, fun b' => ?_⟩
    have hcount := pendingCount_task hs b'
    rw [if_neg (hno b'), Nat.add_zero] at hcount
    rw [hcount]
    exact h b'

theorem pendingCount_notify_same {set : FindStatus → FindStatus} {b : Stage}
    (h : ∀ st, b.bit (set st) = b.bit st) (s : FindDevice) :
    pendingCount (s.notify set) b = pendingCount s b := by
  have hzero : b.bit .zero = false := by cases b <;> rfl
  unfold pendingCount FindDevice.notify
  cases s.notification with
  | none => simp [h, hzero]
  | some st => simp [h]

theorem pendingCount_notify_set {set : FindStatus → FindStatus} {b : Stage}
    (h : ∀ st, b.bit (set st) = true) {s : FindDevice} (hs : pendingCount s b = 0) :
    pendingCount (s.notify set) b = 1 := by
  have hahead : (b.ahead s.pc && b.bit s.findStatus).toNat = 0 := by
    unfold pendingCount at hs
    omega
  have hpc : (s.notify set).pc = s.pc ∧ (s.notify set).findStatus = s.findStatus := ⟨rfl, rfl⟩
  rw [pendingCount, hpc.1, hpc.2, hahead]
  simp [FindDevice.notify, h]

/-- The task is notified of one step. -/
theorem Only.notify {s : FindDevice} (h : Only s none) {set : FindStatus → FindStatus}
    {b₀ : Stage} (hset : ∀ st, b₀.bit (set st) = true)
    (hsame : ∀ b, b₀ ≠ b → ∀ st, b.bit (set st) = b.bit st) : Only (s.notify set) (some b₀) := by
  intro b
  have hnone : pendingCount s b = 0 := by simpa using h b
  by_cases hb : b₀ = b
  · subst hb
    rw [if_pos rfl]
    exact pendingCount_notify_set hset hnone
  · rw [if_neg (by simpa using hb), pendingCount_notify_same (hsame b hb), hnone]

/-- The end of a discovery is the next step to handle. -/
theorem Only.complete {s : FindDevice} (h : Only s none) :
    Only (bleDiscoverFunc s none)
      (some (if s.cccHdl ≠ 0 then .discoveredDes else .discoveredChar)) := by
  by_cases hccc : s.cccHdl ≠ 0
  · simp only [bleDiscoverFunc, if_pos hccc]
    refine h.notify (fun _ => rfl) ?_
    intro b hb st
    cases b <;> first | rfl | exact absurd rfl hb
  · simp only [bleDiscoverFunc, if_neg hccc]
    refine h.notify (fun _ => rfl) ?_
    intro b hb st
    cases b <;> first | rfl | exact absurd rfl hb

/-- A button tells nothing about the discovery. -/
theorem Only.btPress {s : FindDevice} {o : Option Stage} (h : Only s o) :
    Only (s.notify fun st => { st with btPressed := true }) o := by
  intro b
  rw [← h b]
  exact pendingCount_notify_same (fun _ => by cases b <;> rfl) s

/-- Nor does the end of the wait. -/
theorem Only.giveUp {s : FindDevice} {o : Option Stage} (h : Only s o) (hpc : s.pc = .wait) :
    Only { s with pc := .giveUp, timeoutMax := true } o := by
  intro b
  rw [← h b]
  cases b <;> simp [pendingCount, hpc, Stage.ahead]

/-- The handles do not matter. -/
theorem Only.of_eq {s s' : FindDevice} {o : Option Stage} (h : Only s o) (hpc : s'.pc = s.pc)
    (hnotification : s'.notification = s.notification) (hstatus : s'.findStatus = s.findStatus) :
    Only s' o := by
  intro b
  rw [← h b, pendingCount, pendingCount, hpc, hnotification, hstatus]

/-! ## How far the discovery has come -/

/-- The handles of the task are these. -/
def HasHandles (s : FindDevice) (wr rd ccc : ℕ) : Prop :=
  s.wrHdl = wr ∧ s.rdHdl = rd ∧ s.cccHdl = ccc

/-- The value of the last write characteristic among some attributes, or zero; the same for the
others. -/
abbrev wrAfter (as : List Attr) : ℕ := handleAfter Attr.writeHandle 0 as

abbrev rdAfter (as : List Attr) : ℕ := handleAfter Attr.readHandle 0 as

abbrev cccAfter (as : List Attr) : ℕ := handleAfter Attr.cccHandle 0 as

/-- How far the discovery has come. -/
inductive Progress (db : Database) (s : Discovery) : Prop
  /-- it is to begin -/
  | connected (honly : Only s.find (some .connected)) (hanswers : s.answers = none)
    (hrequests : s.requests = 0)
  /-- the characteristics `seen` have been found -/
  | chars (seen rest : List Attr) (hdb : db.characteristics = seen ++ rest)
    (honly : Only s.find none) (hanswers : s.answers = some rest) (hrequests : s.requests = 1)
    (hhandles : HasHandles s.find (wrAfter seen) (rdAfter seen) 0)
  /-- all have been found -/
  | discoveredChar (honly : Only s.find (some .discoveredChar)) (hanswers : s.answers = none)
    (hrequests : s.requests = 1)
    (hhandles : HasHandles s.find (wrAfter db.characteristics) (rdAfter db.characteristics) 0)
  /-- the descriptors `seen` have been found -/
  | descriptors (seen rest : List Attr) (hdb : db.descriptors = seen ++ rest)
    (honly : Only s.find none) (hanswers : s.answers = some rest) (hrequests : s.requests = 2)
    (hhandles : HasHandles s.find (wrAfter db.characteristics) (rdAfter db.characteristics)
      (cccAfter seen))
    (hwr : wrAfter db.characteristics ≠ 0) (hrd : rdAfter db.characteristics ≠ 0)
  /-- all have been found -/
  | discoveredDes (honly : Only s.find (some .discoveredDes)) (hanswers : s.answers = none)
    (hrequests : s.requests = 2)
    (hhandles : HasHandles s.find (wrAfter db.characteristics) (rdAfter db.characteristics)
      (cccAfter db.descriptors))
    (hwr : wrAfter db.characteristics ≠ 0) (hrd : rdAfter db.characteristics ≠ 0)
  /-- it does not go on -/
  | stalled (honly : Only s.find none) (hanswers : s.answers = none) (hrequests : s.requests ≤ 2)
  /-- there is no connection any more -/
  | lost (hconn : s.find.conns.bleBlConn = none) (hrequests : s.requests ≤ 2)
  | ended (hover : s.Over) (hrequests : s.requests ≤ 2)

theorem Progress.requests_le {db : Database} {s : Discovery} (h : Progress db s) :
    s.requests ≤ 2 := by
  cases h <;> omega

/-- What holds of the discovery. -/
structure DiscoveryInv (db : Database) (s : Discovery) : Prop where
  progress : Progress db s
  right : ∀ rd ccc, s.subscribed = some (rd, ccc) → db.DescriptorOf rd ccc

/-! ## One step -/

/-- When both characteristics were found, the descriptor is the right one. -/
theorem Fits.ccc {db : Database} (h : Fits db) (hwr : wrAfter db.characteristics ≠ 0)
    (hrd : rdAfter db.characteristics ≠ 0) :
    cccAfter db.descriptors ≠ 0 ∧
      db.DescriptorOf (rdAfter db.characteristics) (cccAfter db.descriptors) := by
  have hwrite : db.lastWrite ≠ none := by
    intro hnone
    rw [wrAfter, handleAfter_eq, ← Database.lastWrite, hnone] at hwr
    exact hwr rfl
  obtain ⟨rd, hread⟩ : ∃ rd, db.lastRead = some rd := by
    rw [← Option.ne_none_iff_exists']
    intro hnone
    rw [rdAfter, handleAfter_eq, ← Database.lastRead, hnone] at hrd
    exact hrd rfl
  obtain ⟨ccc, hlast, hright⟩ := h rd hwrite hread
  rw [rdAfter, cccAfter, handleAfter_eq, handleAfter_eq, ← Database.lastRead, ← Database.lastCcc,
    hread, hlast]
  exact ⟨Database.lastCcc_pos hlast, hright⟩

/-- The discovery does not move. -/
theorem Progress.quiet {db : Database} {s s' : Discovery} (h : Progress db s)
    (hover : ¬ s.Over) (honly : ∀ o, Only s.find o → Only s'.find o)
    (hconn : s'.find.conns.bleBlConn = s.find.conns.bleBlConn)
    (hhandles : ∀ wr rd ccc, HasHandles s.find wr rd ccc → HasHandles s'.find wr rd ccc)
    (hanswers : s'.answers = s.answers) (hrequests : s'.requests = s.requests) :
    Progress db s' := by
  cases h with
  | connected ho ha hr =>
    exact .connected (honly _ ho) (hanswers.trans ha) (hrequests.trans hr)
  | chars seen rest hdb ho ha hr hh =>
    exact .chars seen rest hdb (honly _ ho) (hanswers.trans ha) (hrequests.trans hr)
      (hhandles _ _ _ hh)
  | discoveredChar ho ha hr hh =>
    exact .discoveredChar (honly _ ho) (hanswers.trans ha) (hrequests.trans hr)
      (hhandles _ _ _ hh)
  | descriptors seen rest hdb ho ha hr hh hwr hrd =>
    exact .descriptors seen rest hdb (honly _ ho) (hanswers.trans ha) (hrequests.trans hr)
      (hhandles _ _ _ hh) hwr hrd
  | discoveredDes ho ha hr hh hwr hrd =>
    exact .discoveredDes (honly _ ho) (hanswers.trans ha) (hrequests.trans hr)
      (hhandles _ _ _ hh) hwr hrd
  | stalled ho ha hr => exact .stalled (honly _ ho) (hanswers.trans ha) (hrequests ▸ hr)
  | lost hc hr => exact .lost (hconn.trans hc) (hrequests ▸ hr)
  | ended ho _ => exact absurd ho hover

theorem HasHandles.task {s s' : FindDevice} {res : CallResult} {wr rd ccc : ℕ}
    (h : HasHandles s wr rd ccc) (hs : task s res = some s') (hno : ¬ Handles s .connected) :
    HasHandles s' wr rd ccc := by
  obtain ⟨hwr, hrd, hccc⟩ := (task_frame hs).handles hno
  exact ⟨hwr.trans h.1, hrd.trans h.2.1, hccc.trans h.2.2⟩

namespace Discovery

variable {db : Database} {s : Discovery} {res : CallResult}

/-- Without a connection nothing is called. -/
theorem calls_of_lost (h : s.find.conns.bleBlConn = none) : s.calls db res = s := by
  rw [calls, if_pos h]

theorem calls_of_not_handles (h : ∀ b, ¬ Handles s.find b) : s.calls db res = s := by
  simp [calls, h]

theorem calls_connected (hconn : s.find.conns.bleBlConn ≠ none) (h : Handles s.find .connected) :
    s.calls db res = s.discover db.characteristics res.err := by
  rw [calls, if_neg hconn, if_pos h]

theorem calls_discoveredChar (hconn : s.find.conns.bleBlConn ≠ none)
    (h : Handles s.find .discoveredChar) :
    s.calls db res
      = if s.find.wrHdl ≠ 0 ∧ s.find.rdHdl ≠ 0 then s.discover db.descriptors res.err
        else s := by
  have hfirst : ¬ Handles s.find .connected := by simp [Handles, h.1, Stage.block]
  have hlast : ¬ Handles s.find .discoveredDes := by simp [Handles, h.1, Stage.block]
  simp [calls, hconn, hfirst, h, hlast]

theorem calls_discoveredDes (hconn : s.find.conns.bleBlConn ≠ none)
    (h : Handles s.find .discoveredDes) :
    s.calls db res
      = if s.find.cccHdl ≠ 0 then { s with subscribed := some (s.find.rdHdl, s.find.cccHdl) }
        else s := by
  have hfirst : ¬ Handles s.find .connected := by simp [Handles, h.1, Stage.block]
  have hchar : ¬ Handles s.find .discoveredChar := by simp [Handles, h.1, Stage.block]
  simp [calls, hconn, hfirst, h, hchar]

end Discovery

section Block

variable {db : Database} {s : Discovery} {res : CallResult} {find : FindDevice}

/-- A block that handles no step. -/
theorem DiscoveryInv.passes (h : DiscoveryInv db s) (hover : ¬ s.Over)
    (hs : task s.find res = some find) (hno : ∀ b, ¬ Handles s.find b) :
    DiscoveryInv db (s.block db res find) := by
  have hcalls : s.calls db res = s := Discovery.calls_of_not_handles hno
  unfold Discovery.block
  rw [hcalls]
  refine ⟨h.progress.quiet hover ?_ (task_frame hs).bleBlConn ?_ rfl rfl, h.right⟩
  · intro o ho
    rcases ho.task hs with ⟨b, hb, -⟩ | ⟨-, honly⟩
    · exact absurd hb (hno b)
    · exact honly
  · intro wr rd ccc hh
    exact hh.task hs (hno .connected)

/-- A block without a connection. -/
theorem DiscoveryInv.lost (h : DiscoveryInv db s) (hs : task s.find res = some find)
    (hconn : s.find.conns.bleBlConn = none) : DiscoveryInv db (s.block db res find) := by
  have hcalls : s.calls db res = s := Discovery.calls_of_lost hconn
  unfold Discovery.block
  rw [hcalls]
  exact ⟨.lost ((task_frame hs).bleBlConn.trans hconn) h.progress.requests_le, h.right⟩

/-- A discovery that has begun, or not. -/
theorem Progress.discover {s' : Discovery} {answers : List Attr} {err : Bool}
    (hs' : s' = { s.discover answers err with find := find, abandoned := Abandons s.find })
    (honly : Only find none) (hanswers : s.answers = none) (hrequests : s.requests ≤ 1)
    (hbegun : s'.answers = some answers → s'.requests = s.requests + 1 → Progress db s') :
    Progress db s' := by
  subst hs'
  cases err with
  | true =>
    refine .stalled honly hanswers ?_
    exact Nat.succ_le_succ hrequests
  | false => exact hbegun rfl rfl

/-- A block that handles the step there is. -/
theorem DiscoveryInv.handles (hfits : Fits db) (h : DiscoveryInv db s) (hover : ¬ s.Over)
    (hs : task s.find res = some find) (hconn : s.find.conns.bleBlConn ≠ none) {b : Stage}
    (hb : Handles s.find b) (honly : Only find none) : DiscoveryInv db (s.block db res find) := by
  have hkeeps (hno : b ≠ .connected) {wr rd ccc : ℕ} (hh : HasHandles s.find wr rd ccc) :
      HasHandles find wr rd ccc := by
    refine hh.task hs fun hyes => hno ?_
    have hblock := hb.1.symm.trans hyes.1
    cases b <;> first | rfl | cases hblock
  unfold Discovery.block
  cases h.progress with
  | connected ho ha hr =>
    cases ho.handles hb
    rw [Discovery.calls_connected hconn hb]
    refine ⟨.discover rfl honly ha (by omega) fun hanswers hrequests => ?_, h.right⟩
    exact .chars [] db.characteristics rfl honly hanswers (by omega) ((task_frame hs).zeroed hb)
  | discoveredChar ho ha hr hh =>
    cases ho.handles hb
    have hh' := hkeeps (by simp) hh
    rw [Discovery.calls_discoveredChar hconn hb, hh.1, hh.2.1]
    by_cases hfound : wrAfter db.characteristics ≠ 0 ∧ rdAfter db.characteristics ≠ 0
    · rw [if_pos hfound]
      refine ⟨.discover rfl honly ha (by omega) fun hanswers hrequests => ?_, h.right⟩
      exact .descriptors [] db.descriptors rfl honly hanswers (by omega) hh' hfound.1 hfound.2
    · have hrequests : s.requests ≤ 2 := by omega
      rw [if_neg hfound]
      exact ⟨.stalled honly ha hrequests, h.right⟩
  | discoveredDes ho ha hr hh hwr hrd =>
    cases ho.handles hb
    obtain ⟨hccc, hright⟩ := hfits.ccc hwr hrd
    rw [Discovery.calls_discoveredDes hconn hb, hh.2.1, hh.2.2, if_pos hccc]
    refine ⟨.ended (.inl (by simp)) (by simp [hr]), ?_⟩
    intro rd ccc hsub
    cases hsub
    exact hright
  | chars _ _ _ ho => cases ho.handles hb
  | descriptors _ _ _ ho => cases ho.handles hb
  | stalled ho => cases ho.handles hb
  | lost hc => exact absurd hc hconn
  | ended ho => exact absurd ho hover

/-- A block of the task. -/
theorem DiscoveryInv.task (hfits : Fits db) (h : DiscoveryInv db s) (hover : ¬ s.Over)
    (hs : task s.find res = some find) : DiscoveryInv db (s.block db res find) := by
  by_cases hconn : s.find.conns.bleBlConn = none
  · exact h.lost hs hconn
  by_cases hb : ∃ b, Handles s.find b
  · obtain ⟨b, hb⟩ := hb
    have honly {o : Option Stage} (ho : Only s.find o) : Only find none := by
      rcases ho.task hs with ⟨-, -, -, hnone⟩ | ⟨hno, -⟩
      · exact hnone
      · exact absurd hb (hno b)
    refine h.handles hfits hover hs hconn hb ?_
    cases h.progress with
    | connected ho => exact honly ho
    | chars _ _ _ ho => exact honly ho
    | discoveredChar ho => exact honly ho
    | descriptors _ _ _ ho => exact honly ho
    | discoveredDes ho => exact honly ho
    | stalled ho => exact honly ho
    | lost hc => exact absurd hc hconn
    | ended ho => exact absurd ho hover
  · exact h.passes hover hs (not_exists.1 hb)

end Block

/-- An attribute is found. -/
theorem Progress.found {db : Database} {s : Discovery} {a : Attr} {as : List Attr}
    (h : Progress db s) (hover : ¬ s.Over) (ha : s.answers = some (a :: as)) :
    Progress db { s with find := bleDiscoverFunc s.find (some a), answers := some as } := by
  have honly {o : Option Stage} (ho : Only s.find o) : Only (bleDiscoverFunc s.find (some a)) o := by
    rw [bleDiscoverFunc_some]
    exact ho.of_eq rfl rfl rfl
  have hother (hnone : s.answers = none) : False := by
    rw [hnone] at ha
    cases ha
  cases h with
  | connected _ hnone => exact (hother hnone).elim
  | discoveredChar _ hnone => exact (hother hnone).elim
  | discoveredDes _ hnone => exact (hother hnone).elim
  | stalled _ hnone => exact (hother hnone).elim
  | ended ho => exact absurd ho hover
  | lost hc hr =>
    refine .lost ?_ hr
    rw [bleDiscoverFunc_some]
    exact hc
  | chars seen rest hdb ho hrest hr hh =>
    obtain rfl : rest = a :: as := Option.some.inj (hrest.symm.trans ha)
    have hmem : a ∈ db.characteristics := by simp [hdb]
    have hccc := Database.cccHandle_characteristics a hmem
    refine .chars (seen ++ [a]) as (by simp [hdb]) (honly ho) rfl hr ?_
    rw [bleDiscoverFunc_some]
    simp [HasHandles, hh.1, hh.2.1, hh.2.2, hccc]
  | descriptors seen rest hdb ho hrest hr hh hwr hrd =>
    obtain rfl : rest = a :: as := Option.some.inj (hrest.symm.trans ha)
    have hmem : a ∈ db.descriptors := by simp [hdb]
    have hw := Database.writeHandle_descriptors a hmem
    have hread := Database.readHandle_descriptors a hmem
    refine .descriptors (seen ++ [a]) as (by simp [hdb]) (honly ho) rfl hr ?_ hwr hrd
    rw [bleDiscoverFunc_some]
    simp [HasHandles, hh.1, hh.2.1, hh.2.2, hw, hread]

/-- A discovery is complete. -/
theorem Progress.complete {db : Database} (hfits : Fits db) {s : Discovery} (h : Progress db s)
    (hover : ¬ s.Over) (ha : s.answers = some []) :
    Progress db { s with find := bleDiscoverFunc s.find none, answers := none } := by
  have hsame : (bleDiscoverFunc s.find none).conns = s.find.conns ∧
      ∀ {wr rd ccc}, HasHandles s.find wr rd ccc →
        HasHandles (bleDiscoverFunc s.find none) wr rd ccc := by
    simp only [bleDiscoverFunc]
    split
    · exact ⟨rfl, fun hh => hh⟩
    · exact ⟨rfl, fun hh => hh⟩
  have hother (hnone : s.answers = none) : False := by
    rw [hnone] at ha
    cases ha
  cases h with
  | connected _ hnone => exact (hother hnone).elim
  | discoveredChar _ hnone => exact (hother hnone).elim
  | discoveredDes _ hnone => exact (hother hnone).elim
  | stalled _ hnone => exact (hother hnone).elim
  | ended ho => exact absurd ho hover
  | lost hc hr => exact .lost ((congrArg _ hsame.1).trans hc) hr
  | chars seen rest hdb ho hrest hr hh =>
    obtain rfl : rest = [] := Option.some.inj (hrest.symm.trans ha)
    rw [List.append_nil] at hdb
    have honly := ho.complete
    rw [hh.2.2, if_neg (by simp)] at honly
    exact .discoveredChar honly rfl hr (hdb ▸ hsame.2 hh)
  | descriptors seen rest hdb ho hrest hr hh hwr hrd =>
    obtain rfl : rest = [] := Option.some.inj (hrest.symm.trans ha)
    rw [List.append_nil] at hdb
    have honly := ho.complete
    rw [hh.2.2, ← hdb, if_pos (hfits.ccc hwr hrd).1] at honly
    exact .discoveredDes honly rfl hr (hdb ▸ hsame.2 hh) hwr hrd

/-- **The step lemma.** -/
theorem discoveryStep_inv {db : Database} (hfits : Fits db) (s : Discovery) (e : DiscoveryEvent)
    (s' : Discovery) (h : DiscoveryInv db s) (hs : discoveryStep db s e = some s') :
    DiscoveryInv db s' := by
  unfold discoveryStep at hs
  split at hs
  · cases hs
  rename_i hover
  cases e with
  | task res =>
    obtain ⟨find, htask, rfl⟩ := Option.map_eq_some_iff.1 hs
    exact h.task hfits hover htask
  | timeout =>
    obtain ⟨find, hfind, rfl⟩ := Option.map_eq_some_iff.1 hs
    simp only [findStep, Option.ite_none_right_eq_some, Option.some.injEq] at hfind
    obtain ⟨⟨hpc, -, -⟩, rfl⟩ := hfind
    exact ⟨h.progress.quiet hover (fun _ ho => ho.giveUp hpc) rfl (fun _ _ _ hh => hh) rfl rfl,
      h.right⟩
  | btPress =>
    cases hs
    exact ⟨h.progress.quiet hover (fun _ ho => ho.btPress) rfl (fun _ _ _ hh => hh) rfl rfl,
      h.right⟩
  | deliver =>
    simp only at hs
    split at hs
    · rename_i ha
      cases hs
      exact ⟨h.progress.found hover ha, h.right⟩
    · rename_i ha
      cases hs
      exact ⟨h.progress.complete hfits hover ha, h.right⟩
    · cases hs
  | disconnected conn =>
    obtain ⟨find, hfind, rfl⟩ := Option.map_eq_some_iff.1 hs
    simp only [findStep, Option.ite_none_right_eq_some, Option.some.injEq] at hfind
    obtain ⟨-, rfl⟩ := hfind
    exact ⟨.lost rfl h.progress.requests_le, h.right⟩

/-- **The discovery of a database that fits** takes two requests at most, and picks the right
descriptor. -/
theorem Fits.endsRight {db : Database} (hfits : Fits db) : EndsRight db := by
  have hinv {s₀ : FindDevice} {es : List DiscoveryEvent} {s : Discovery} (hs₀ : JustConnected s₀)
      (hrun : run (discoveryStep db) (.start s₀) es = some s) : DiscoveryInv db s := by
    refine run_inv' (discoveryStep_inv hfits) ⟨.connected hs₀.only rfl rfl, ?_⟩ hrun
    intro rd ccc hsub
    cases hsub
  exact ⟨⟨2, fun _ _ _ hs₀ hrun => (hinv hs₀ hrun).progress.requests_le⟩,
    fun _ _ _ _ _ hs₀ hrun hsub => (hinv hs₀ hrun).right _ _ hsub⟩

/-! ## The databases that do not fit -/

/-- The notification of one step. -/
def Stage.status : Stage → FindStatus
  | .connected => { FindStatus.zero with connected := true }
  | .discoveredChar => { FindStatus.zero with discoveredChar := true }
  | .discoveredDes => { FindStatus.zero with discoveredDes := true }

/-- The task with a connection, at `xTaskNotifyWait`. -/
def waiting (notification : Option Stage) (last : FindStatus) (wr rd ccc : ℕ) : FindDevice :=
  ⟨.wait, notification.map Stage.status, last, false, false, wr, rd, ccc, false,
    ⟨some 0, .empty, false, false, [], [0]⟩⟩

/-- One turn of the loop in which nothing fails. -/
def turn : List DiscoveryEvent := List.replicate 8 (.task ⟨none, false⟩)

/-- The stack answers. -/
def answer (as : List Attr) : List DiscoveryEvent := List.replicate (as.length + 1) .deliver

theorem justConnected_waiting : JustConnected (waiting (some .connected) .zero 0 0 0) := by
  refine ⟨by simp [waiting], ?_⟩
  intro b
  cases b <;> rfl

section Runs

variable (db : Database) (last : FindStatus) (wr rd ccc n : ℕ)

/-- The step that the end of a discovery leads to. -/
def stageOf (ccc : ℕ) : Stage := if ccc ≠ 0 then .discoveredDes else .discoveredChar

theorem run_connected :
    run (discoveryStep db) ⟨waiting (some .connected) last wr rd ccc, none, n, none, false⟩ turn
      = some ⟨waiting none Stage.connected.status 0 0 0, some db.characteristics, n + 1, none,
          false⟩ := rfl

theorem run_discoveredChar (hwr : wr ≠ 0) (hrd : rd ≠ 0) :
    run (discoveryStep db) ⟨waiting (some .discoveredChar) last wr rd ccc, none, n, none, false⟩
        turn
      = some ⟨waiting none Stage.discoveredChar.status wr rd ccc, some db.descriptors, n + 1, none,
          false⟩ := by
  obtain ⟨w, rfl⟩ := Nat.exists_eq_succ_of_ne_zero hwr
  obtain ⟨r, rfl⟩ := Nat.exists_eq_succ_of_ne_zero hrd
  rfl

theorem run_discoveredDes (hccc : ccc ≠ 0) :
    ∃ s, run (discoveryStep db)
        ⟨waiting (some (stageOf ccc)) last wr rd ccc, none, n, none, false⟩
        (List.replicate 5 (.task ⟨none, false⟩)) = some s ∧ s.subscribed = some (rd, ccc) := by
  obtain ⟨c, rfl⟩ := Nat.exists_eq_succ_of_ne_zero hccc
  exact ⟨_, rfl, rfl⟩

theorem run_answer (as : List Attr) :
    run (discoveryStep db) ⟨waiting none last wr rd ccc, some as, n, none, false⟩ (answer as)
      = some ⟨waiting (some (stageOf (handleAfter Attr.cccHandle ccc as))) last
          (handleAfter Attr.writeHandle wr as) (handleAfter Attr.readHandle rd as)
          (handleAfter Attr.cccHandle ccc as), none, n, none, false⟩ := by
  induction as generalizing wr rd ccc with
  | nil =>
    by_cases hccc : ccc ≠ 0
    · simp [answer, run, discoveryStep, Discovery.Over, bleDiscoverFunc, handleAfter, stageOf, hccc,
        waiting, FindDevice.notify, Stage.status]
    · simp [answer, run, discoveryStep, Discovery.Over, bleDiscoverFunc, handleAfter, stageOf, hccc,
        waiting, FindDevice.notify, Stage.status]
  | cons a as ih =>
    refine run_cons_eq_some.2 ⟨_, ?_, ih _ _ _⟩
    rw [discoveryStep, if_neg (by simp [Discovery.Over])]
    simp only [bleDiscoverFunc_some]
    rfl

/-- A discovery of descriptors. -/
theorem run_descriptors (hwr : wr ≠ 0) (hrd : rd ≠ 0) :
    run (discoveryStep db) ⟨waiting (some .discoveredChar) last wr rd 0, none, n, none, false⟩
        (turn ++ answer db.descriptors)
      = some ⟨waiting (some (stageOf (cccAfter db.descriptors))) Stage.discoveredChar.status wr rd
          (cccAfter db.descriptors), none, n + 1, none, false⟩ := by
  have hanswer := run_answer db Stage.discoveredChar.status wr rd 0 (n + 1) db.descriptors
  rw [handleAfter_of_none Database.writeHandle_descriptors,
    handleAfter_of_none Database.readHandle_descriptors] at hanswer
  exact run_trans (run_discoveredChar db last wr rd 0 n hwr hrd) hanswer

/-- The discovery of characteristics. -/
theorem run_characteristics :
    run (discoveryStep db) (.start (waiting (some .connected) .zero 0 0 0))
        (turn ++ answer db.characteristics)
      = some ⟨waiting (some .discoveredChar) Stage.connected.status (wrAfter db.characteristics)
          (rdAfter db.characteristics) 0, none, 1, none, false⟩ := by
  have hanswer := run_answer db Stage.connected.status 0 0 0 1 db.characteristics
  rw [handleAfter_of_none db.cccHandle_characteristics] at hanswer
  exact run_trans (run_connected db .zero 0 0 0 0) hanswer

variable {db}

/-- When no descriptor is found, there is one request after the other. -/
theorem run_endless (hccc : cccAfter db.descriptors = 0) (hwr : wr ≠ 0) (hrd : rd ≠ 0) (k : ℕ) :
    ∃ es last', run (discoveryStep db)
        ⟨waiting (some .discoveredChar) last wr rd 0, none, n, none, false⟩ es
      = some ⟨waiting (some .discoveredChar) last' wr rd 0, none, n + k, none, false⟩ := by
  induction k with
  | zero => exact ⟨[], last, rfl⟩
  | succ k ih =>
    obtain ⟨es, last', hrun⟩ := ih
    have hagain := run_descriptors db last' wr rd (n + k) hwr hrd
    rw [hccc] at hagain
    exact ⟨_, _, run_trans hrun hagain⟩

end Runs

section NoFit

variable {db : Database} {wr rd : ℕ}

theorem wrAfter_characteristics (h : db.lastWrite = some wr) :
    wrAfter db.characteristics = wr := by
  rw [wrAfter, handleAfter_eq, ← Database.lastWrite, h, Option.getD_some]

theorem rdAfter_characteristics (h : db.lastRead = some rd) :
    rdAfter db.characteristics = rd := by
  rw [rdAfter, handleAfter_eq, ← Database.lastRead, h, Option.getD_some]

/-- Without a CCC descriptor the requests do not end. -/
theorem endless_of_noCcc (hwrite : db.lastWrite = some wr) (hread : db.lastRead = some rd)
    (hccc : db.lastCcc = none) (k : ℕ) :
    ∃ es s, run (discoveryStep db) (.start (waiting (some .connected) .zero 0 0 0)) es = some s ∧
      s.requests = 1 + k := by
  have hnone : cccAfter db.descriptors = 0 := by
    rw [cccAfter, handleAfter_eq, ← Database.lastCcc, hccc, Option.getD_none]
  obtain ⟨es, last, hrun⟩ := run_endless Stage.connected.status wr rd 1 hnone
    (Database.lastWrite_pos hwrite) (Database.lastRead_pos hread) k
  have hchars := run_characteristics db
  rw [wrAfter_characteristics hwrite, rdAfter_characteristics hread] at hchars
  exact ⟨_, _, run_trans hchars hrun, rfl⟩

/-- With one, the last is subscribed to. -/
theorem subscribes_last (hwrite : db.lastWrite = some wr) (hread : db.lastRead = some rd) {ccc : ℕ}
    (hccc : db.lastCcc = some ccc) :
    ∃ es s, run (discoveryStep db) (.start (waiting (some .connected) .zero 0 0 0)) es = some s ∧
      s.subscribed = some (rd, ccc) := by
  have hsome : cccAfter db.descriptors = ccc := by
    rw [cccAfter, handleAfter_eq, ← Database.lastCcc, hccc, Option.getD_some]
  have hchars := run_characteristics db
  rw [wrAfter_characteristics hwrite, rdAfter_characteristics hread] at hchars
  have hdes := run_descriptors db Stage.connected.status wr rd 1 (Database.lastWrite_pos hwrite)
    (Database.lastRead_pos hread)
  rw [hsome] at hdes
  obtain ⟨s, hlast, hsub⟩ := run_discoveredDes db Stage.discoveredChar.status wr rd ccc 2
    (Database.lastCcc_pos hccc)
  exact ⟨_, s, run_trans hchars (run_trans hdes hlast), hsub⟩

end NoFit

/-- **Which databases the discovery ends with, and picks the right descriptor of.** -/
theorem discovery_iff (db : Database) : EndsRight db ↔ Fits db := by
  refine ⟨fun h rd hwrite hread => ?_, Fits.endsRight⟩
  obtain ⟨wr, hwrite⟩ := Option.ne_none_iff_exists'.1 hwrite
  cases hccc : db.lastCcc with
  | none =>
    obtain ⟨n, hn⟩ := h.finite
    obtain ⟨es, s, hrun, hrequests⟩ := endless_of_noCcc hwrite hread hccc n
    have hle := hn _ es s justConnected_waiting hrun
    omega
  | some ccc =>
    obtain ⟨es, s, hrun, hsub⟩ := subscribes_last hwrite hread hccc
    exact ⟨ccc, rfl, h.descriptor _ es s rd ccc justConnected_waiting hrun hsub⟩

/-- A train whose read characteristic has no CCC descriptor. -/
def noCcc : Database where
  pdus := [[⟨1, .service⟩, ⟨2, .characteristic .deviceRead 3⟩], [⟨3, .other⟩],
    [⟨4, .characteristic .deviceWrite 5⟩], [⟨5, .other⟩]]
  sorted := by decide
  inRange := by decide
  valued := by
    intro a ha uuid v htype
    simp at ha
    rcases ha with rfl | rfl | rfl | rfl | rfl
    · cases htype
    · cases htype
      exact ⟨⟨3, .other⟩, by decide⟩
    · cases htype
    · cases htype
      exact ⟨⟨5, .other⟩, by decide⟩
    · cases htype

/-- Its descriptors are asked for without end. -/
theorem endless_discovery : ¬ ∀ db : Database, EndsRight db := by
  intro h
  obtain ⟨n, hn⟩ := (h noCcc).finite
  have hwrite : noCcc.lastWrite = some 5 := by decide
  have hread : noCcc.lastRead = some 3 := by decide
  obtain ⟨es, s, hrun, hrequests⟩ := endless_of_noCcc hwrite hread (by decide) n
  have hle := hn _ es s justConnected_waiting hrun
  omega

end Controller
