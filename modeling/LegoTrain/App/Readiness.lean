import LegoTrain.App.LeSystem

/-!
# When the app takes a train for connected

`IsConnected` reads four flags, and `closeGattConnection` and `disconnectDevice` clear all of
them.  `retry_connect` closes a connection too, but clears the two handles only.

* `ReadyOnLink` : what `IsConnected` is meant to say;
* `ReadyGuard` : the condition on the events;
* `ready_on_link` : under it, `IsConnected` says it after every run;
* `ready_without_subscription` : a connection that drops and comes back.
-/

namespace App

open BluetoothLeService Transition

/-- When `IsConnected` says so, the services of the connection in use were discovered, the
handles are its, and its CCC descriptor was written. -/
def ReadyOnLink (s : LeSystem) : Prop :=
  s.service.isConnected = true →
    ∃ g ∈ s.service.bluetoothGatt, g.id ∈ s.discovered ∧ g.id ∈ s.subscribed ∧
      (∃ c ∈ s.service.readHandle, c.gatt = g.id) ∧ ∃ c ∈ s.service.writeHandle, c.gatt = g.id

/-- The flags are clear when another connection is taken, `retry_connect` finds no notification
set up, and the handles and the notification that are taken are those of the connection in
use. -/
structure ReadyGuard (s : LeSystem) (e : LeEvent) : Prop where
  takes : linkChange s.service e = .takes → s.service.Clean
  retries : linkChange s.service e = .retries → s.service.notificationReady = false
  finds : linkChange s.service e = .finds → ∀ c ∈ e.finds, s.service.link = some c.gatt
  subscribes : ∀ n ∈ e.subscribes, s.service.link = some n ∨ s.service.notificationReady = true

instance (s : LeSystem) (e : LeEvent) : Decidable (ReadyGuard s e) :=
  decidable_of_iff
    ((linkChange s.service e = .takes → s.service.Clean) ∧
      (linkChange s.service e = .retries → s.service.notificationReady = false) ∧
      (linkChange s.service e = .finds → ∀ c ∈ e.finds, s.service.link = some c.gatt) ∧
      ∀ n ∈ e.subscribes, s.service.link = some n ∨ s.service.notificationReady = true)
    ⟨fun h => ⟨h.1, h.2.1, h.2.2.1, h.2.2.2⟩, fun h => ⟨h.1, h.2, h.3, h.4⟩⟩

/-- The flags are about the connection in use. -/
structure Linked (s : LeSystem) : Prop where
  notification : s.service.notificationReady = true → ∃ n ∈ s.subscribed, s.service.link = some n
  handle : ∀ c, s.service.readHandle = some c ∨ s.service.writeHandle = some c →
    s.service.link = some c.gatt ∧ c.gatt ∈ s.discovered

theorem Linked.ready {s : LeSystem} (h : Linked s) : ReadyOnLink s := by
  intro hconn
  simp only [isConnected, Bool.and_eq_true, Option.isSome_iff_exists] at hconn
  obtain ⟨⟨⟨-, hnotify⟩, r, hr⟩, w, hw⟩ := hconn
  obtain ⟨n, hn, hlink⟩ := h.notification hnotify
  obtain ⟨g, hg, rfl⟩ := Option.map_eq_some_iff.1 hlink
  obtain ⟨hrlink, hrfound⟩ := h.handle r (.inl hr)
  obtain ⟨hwlink, -⟩ := h.handle w (.inr hw)
  have hrgatt : r.gatt = g.id := by
    simpa [hlink] using hrlink.symm
  have hwgatt : w.gatt = g.id := by
    simpa [hlink] using hwlink.symm
  rw [hrgatt] at hrfound
  exact ⟨g, hg, hrfound, hn, ⟨r, hr, hrgatt⟩, w, hw, hwgatt⟩

/-! ## One step -/

/-- The handles there are, when the connection stays. -/
theorem Linked.kept {s : LeSystem} (h : Linked s) (e : LeEvent) {service : BluetoothLeService}
    (hlink : service.link = s.service.link) {c : Characteristic}
    (hc : s.service.readHandle = some c ∨ s.service.writeHandle = some c) :
    service.link = some c.gatt ∧ c.gatt ∈ (s.advance e service).discovered := by
  obtain ⟨hs, hfound⟩ := h.handle c hc
  exact ⟨hlink.trans hs, List.mem_append_left _ hfound⟩

/-- The flags and the connection stay. -/
theorem Linked.same {s : LeSystem} (h : Linked s) {e : LeEvent} {service : BluetoothLeService}
    (hhandles : SameHandles s.service service) (hlink : service.link = s.service.link) :
    Linked (s.advance e service) := by
  refine ⟨?_, ?_⟩
  · intro hnotify
    obtain ⟨n, hn, hs⟩ := h.notification (hhandles.notificationReady.symm.trans hnotify)
    exact ⟨n, List.mem_append_left _ hn, hlink.trans hs⟩
  · intro c hc
    refine h.kept e hlink ?_
    rwa [← hhandles.readHandle, ← hhandles.writeHandle]

/-- The flags are clear. -/
theorem linked_of_clean {s : LeSystem} {e : LeEvent} {service : BluetoothLeService}
    (h : service.Clean) : Linked (s.advance e service) := by
  obtain ⟨hnotify, hread, hwrite⟩ := h
  refine ⟨?_, ?_⟩
  · intro hready
    exact absurd (hnotify.symm.trans hready) (by simp)
  · intro c hc
    simp [LeSystem.advance, hread, hwrite] at hc

/-- The characteristics that a discovery takes belong to the connection it is for. -/
theorem finds_discovers {s : BluetoothLeService} {e : LeEvent} (he : linkChange s e = .finds)
    {c : Characteristic} (hc : c ∈ e.finds) : c.gatt ∈ e.discovers := by
  cases e with
  | servicesDiscovered gatt services status answer =>
    have hstatus : status = gattSuccess := by
      by_contra hne
      rw [linkChange, if_pos (.inl hne)] at he
      split at he <;> cases he
    cases gatt with
    | none => simp [LeEvent.finds, servicesOf] at hc
    | some g =>
      simp only [LeEvent.finds, servicesOf, List.mem_flatMap, List.mem_map] at hc
      obtain ⟨service, ⟨offered, -, rfl⟩, hgrab⟩ := hc
      have hmem : c ∈ offered.characteristics.map ({ · with gatt := g.id }) := by
        simp only [grabbed, GattService.getCharacteristic, List.mem_append, Option.mem_toList,
          Option.filter_eq_some_iff] at hgrab
        rcases hgrab with ⟨hfind, -⟩ | ⟨hfind, -⟩
        · exact List.mem_of_find?_eq_some hfind
        · exact List.mem_of_find?_eq_some hfind
      obtain ⟨c', -, rfl⟩ := List.mem_map.1 hmem
      simp [LeEvent.discovers, hstatus]
  | _ => cases hc

/-- The callbacks of the queue change the notification only. -/
theorem after_queue_flags {s s' : BluetoothLeService} {n : ℕ} {e : LeEvent}
    (he : ¬ e.OffQueue) (h : s.after n e = some s') :
    s'.link = s.link ∧ s'.readHandle = s.readHandle ∧ s'.writeHandle = s.writeHandle ∧
      (s'.notificationReady = s.notificationReady ∨
        s'.notificationReady = true ∧ e.subscribes ≠ []) := by
  cases e with
  | descriptorWrite c status =>
    cases h
    by_cases hstatus : status = gattSuccess
    · simp [onDescriptorWrite, hstatus, link, LeEvent.subscribes]
    · simp [onDescriptorWrite, hstatus, link]
  | characteristicRead c =>
    cases h
    exact ⟨rfl, rfl, rfl, .inl rfl⟩
  | addRuns i =>
    simp only [after] at h
    split at h
    · cases h
      exact ⟨rfl, rfl, rfl, .inl rfl⟩
    · cases h
  | _ => exact absurd trivial he

/-- The handles are those of a discovery. -/
theorem Linked.finds {s : LeSystem} (h : Linked s) {e : LeEvent} {service : BluetoothLeService}
    (hguard : ReadyGuard s e) (he : linkChange s.service e = .finds)
    (hgrabs : Grabs e.finds s.service service)
    (hnotify : service.notificationReady = s.service.notificationReady)
    (hlink : service.link = s.service.link) : Linked (s.advance e service) := by
  have hnew (c : Characteristic) (hc : c ∈ e.finds) :
      service.link = some c.gatt ∧ c.gatt ∈ (s.advance e service).discovered :=
    ⟨hlink.trans (hguard.finds he c hc), List.mem_append_right _ (finds_discovers he hc)⟩
  refine ⟨?_, ?_⟩
  · intro hready
    obtain ⟨n, hn, hs⟩ := h.notification (hnotify.symm.trans hready)
    exact ⟨n, List.mem_append_left _ hn, hlink.trans hs⟩
  · rintro c (hc | hc)
    · rcases hgrabs.readHandle c hc with hc | hc
      · exact h.kept e hlink (.inl hc)
      · exact hnew c hc
    · rcases hgrabs.writeHandle c hc with hc | hc
      · exact h.kept e hlink (.inr hc)
      · exact hnew c hc

/-- A descriptor was written: of the connection in use, or one was written before. -/
theorem Linked.written {s : LeSystem} (h : Linked s) {e : LeEvent} {service : BluetoothLeService}
    (hguard : ReadyGuard s e) (hlink : service.link = s.service.link)
    (hread : service.readHandle = s.service.readHandle)
    (hwrite : service.writeHandle = s.service.writeHandle) (hwritten : e.subscribes ≠ []) :
    Linked (s.advance e service) := by
  obtain ⟨n, hn⟩ := List.exists_mem_of_ne_nil _ hwritten
  refine ⟨?_, ?_⟩
  · intro _
    rcases hguard.subscribes n hn with hcurrent | hready
    · exact ⟨n, List.mem_append_right _ hn, hlink.trans hcurrent⟩
    · obtain ⟨m, hm, hs⟩ := h.notification hready
      exact ⟨m, List.mem_append_left _ hm, hlink.trans hs⟩
  · intro c hc
    refine h.kept e hlink ?_
    rwa [← hread, ← hwrite]

/-- **The step lemma.** -/
theorem leStep_linked (s : LeSystem) (e : LeEvent) (s' : LeSystem) (h : Linked s)
    (hguard : ReadyGuard s e) (hstep : leStep s e = some s') : Linked s' := by
  obtain ⟨-, service, hafter, rfl⟩ := leStep_eq_some.1 hstep
  by_cases he : e.OffQueue
  · have heffect := after_effect he hafter
    cases hchange : linkChange s.service e with
    | keeps =>
      rw [hchange] at heffect
      exact h.same heffect.2.1 heffect.2.2
    | finds =>
      rw [hchange] at heffect
      obtain ⟨hgrabs, hnotify, hlink⟩ := heffect
      exact h.finds hguard hchange hgrabs hnotify hlink
    | takes =>
      rw [hchange] at heffect
      exact linked_of_clean (heffect.2.clean (hguard.takes hchange))
    | retries =>
      rw [hchange] at heffect
      obtain ⟨-, hnotify, hread, hwrite⟩ := heffect
      exact linked_of_clean ⟨hnotify.trans (hguard.retries hchange), hread, hwrite⟩
    | closes =>
      rw [hchange] at heffect
      exact linked_of_clean heffect.2.2
  · obtain ⟨hlink, hread, hwrite, hnotify | ⟨-, hwritten⟩⟩ := after_queue_flags he hafter
    · exact h.same ⟨hnotify, hread, hwrite⟩ hlink
    · exact h.written hguard hlink hread hwrite hwritten

/-! ## Every run -/

theorem linked_init : Linked LeSystem.init := by
  refine ⟨?_, ?_⟩
  · intro h
    cases h
  · rintro c (hc | hc)
    · cases hc
    · cases hc

/-- **When `IsConnected` can be trusted**: after every run of the system in which the events
meet `ReadyGuard`. -/
theorem ready_on_link {es : List LeEvent} {s : LeSystem}
    (hguard : Along leStep ReadyGuard LeSystem.init es)
    (hrun : run leStep LeSystem.init es = some s) : ReadyOnLink s :=
  (run_inv leStep_linked linked_init hguard hrun).ready

/-- `trainNotifies`, and the descriptor is written. -/
def trainSetup : List LeEvent :=
  trainNotifies ++ [.descriptorWrite ⟨0, .robotRead, 0x22, true⟩ gattSuccess]

theorem ready_on_link_train :
    ∃ s, run leStep LeSystem.init trainSetup = some s ∧ s.service.isConnected = true ∧
      ReadyOnLink s := by
  have hguard : Along leStep ReadyGuard LeSystem.init trainSetup :=
    alongb_sound (g := fun s e => decide (ReadyGuard s e)) (fun _ _ => of_decide_eq_true)
      (by decide)
  have hrun : ∃ s, run leStep LeSystem.init trainSetup = some s ∧
      s.service.isConnected = true :=
    ⟨_, (Option.some_get (by decide)).symm, by decide⟩
  obtain ⟨s, hs, hconn⟩ := hrun
  exact ⟨s, hs, hconn, ready_on_link hguard hs⟩

/-- The connection drops and comes back, and its services are discovered. -/
def trainReturns : List LeEvent :=
  trainSetup ++
    [.connectionStateChange trainGatt gattSuccess stateDisconnected .gatt,
      .connectionStateChange (some ⟨5, trainGatt.address⟩) gattSuccess stateConnected .null,
      .servicesDiscovered (some ⟨5, trainGatt.address⟩) [trainService] gattSuccess .null]

/-- The app then takes the train for connected, and the descriptor of the new connection was
not written. -/
theorem ready_without_subscription :
    ∃ s, run leStep LeSystem.init trainReturns = some s ∧ s.service.isConnected = true ∧
      s.service.link = some 5 ∧ s.subscribed = [0] ∧ ¬ ReadyOnLink s := by
  have hrun : ∃ s, run leStep LeSystem.init trainReturns = some s ∧
      s.service.isConnected = true ∧ s.service.link = some 5 ∧ s.subscribed = [0] :=
    ⟨_, (Option.some_get (by decide)).symm, by decide, by decide, by decide⟩
  obtain ⟨s, hs, hconn, hlink, hsub⟩ := hrun
  refine ⟨s, hs, hconn, hlink, hsub, ?_⟩
  intro h
  obtain ⟨g, hg, -, hmem, -⟩ := h hconn
  have hid : g.id = 5 := by
    simpa [link, Option.mem_def.1 hg] using hlink
  simp [hsub, hid] at hmem

end App
