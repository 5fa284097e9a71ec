import LegoTrain.App.LeSystem

/-!
# The discipline of the command queue

`GattCommandQueue` executes one work at a time, in the order in which they were put in, and
takes the head out at every completion, whatever work it is for.  `closeGattConnection` clears
it and `retry_connect` does not; neither holds back a call of `add` that has been launched.

* `GattCommandQueue.InStep` : the queue and what is outstanding;
* `Disciplined` : order, one at a time, nothing left of an earlier connection;
* `QueueGuard` : the condition on the events;
* `disciplined_along` : under it, the discipline holds after every run;
* `queue_blocked_by_retry` : a work that is lost with its connection.
-/

namespace App

/-! ## The queue -/

namespace GattCommandQueue

variable {Work : Type} {q q' : GattCommandQueue Work} {enqueued outstanding : List Work}

/-- The queue is idle and nothing is outstanding, or its head is. -/
def InFlight (q : GattCommandQueue Work) (outstanding : List Work) : Prop :=
  (q.busy = false ∧ q.queue = [] ∧ outstanding = []) ∨
    ∃ work rest, q.busy = true ∧ q.queue = work :: rest ∧ outstanding = [work]

/-- The queue, after the works of `enqueued` were put in: what has not been executed and not
been cleared comes last. -/
structure InStep (q : GattCommandQueue Work) (enqueued outstanding : List Work) : Prop where
  inFlight : q.InFlight outstanding
  order : ∃ before, enqueued = before ++ q.queue.tail ∧ q.executing.Sublist before

theorem inStep_empty : (empty : GattCommandQueue Work).InStep [] [] :=
  ⟨.inl ⟨rfl, rfl, rfl⟩, [], rfl, .refl []⟩

theorem InStep.sublist (h : q.InStep enqueued outstanding) : q.executing.Sublist enqueued := by
  obtain ⟨before, rfl, hsub⟩ := h.order
  exact hsub.trans (List.sublist_append_left before q.queue.tail)

/-- The calls of `add` that have not run do not matter. -/
theorem InStep.same (h : q.InStep enqueued outstanding) (hqueue : q'.queue = q.queue)
    (hbusy : q'.busy = q.busy) (hexecuting : q'.executing = q.executing) :
    q'.InStep enqueued outstanding := by
  obtain ⟨hflight, horder⟩ := h
  unfold InFlight at hflight
  rw [← hbusy, ← hqueue] at hflight
  rw [← hqueue, ← hexecuting] at horder
  exact ⟨hflight, horder⟩

/-- A queue that is cleared; what it had executed is lost. -/
theorem InStep.cleared (h : q.InStep enqueued outstanding) (hqueue : q'.queue = [])
    (hbusy : q'.busy = false) (hexecuting : q'.executing = q.executing) :
    q'.InStep enqueued [] := by
  refine ⟨.inl ⟨hbusy, hqueue, rfl⟩, enqueued, ?_, ?_⟩
  · simp [hqueue]
  · rw [hexecuting]
    exact h.sublist

theorem InStep.outstanding_of_idle (h : q.InStep enqueued outstanding) (hbusy : q.busy = false) :
    outstanding = [] := by
  rcases h.inFlight with ⟨-, -, hout⟩ | ⟨work, rest, hbusy', -, -⟩
  · exact hout
  · exact absurd (hbusy.symm.trans hbusy') (by simp)

/-- The body of `add`: it executes the work when the queue is idle. -/
theorem InStep.addBody (h : q.InStep enqueued outstanding) (work : Work) :
    ∃ launched, (q.addBody work).executing = q.executing ++ launched ∧
      (q.addBody work).queue = q.queue ++ [work] ∧
      (q.addBody work).InStep (enqueued ++ [work]) (outstanding ++ launched) := by
  obtain ⟨before, rfl, hsub⟩ := h.order
  rcases h.inFlight with ⟨hbusy, hqueue, rfl⟩ | ⟨head, rest, hbusy, hqueue, rfl⟩
  · have hbody : q.addBody work =
        { q with busy := true, queue := [work], executing := q.executing ++ [work] } := by
      simp [GattCommandQueue.addBody, processNextInQueue, hbusy, hqueue]
    rw [hbody]
    refine ⟨[work], rfl, by simp [hqueue], .inr ⟨work, [], rfl, rfl, rfl⟩, before ++ [work], ?_,
      ?_⟩
    · simp [hqueue]
    · exact hsub.append_right [work]
  · have hbody : q.addBody work = { q with queue := q.queue ++ [work] } := by
      simp [GattCommandQueue.addBody, processNextInQueue, hbusy]
    rw [hbody]
    refine ⟨[], by simp, rfl, .inr ⟨head, rest ++ [work], hbusy, ?_, rfl⟩, before, ?_, hsub⟩
    · simp [hqueue]
    · simp [hqueue]

/-- `completeCommand`, for the work that is outstanding or while the queue is idle. -/
theorem InStep.completeCommand [DecidableEq Work] (h : q.InStep enqueued outstanding) {work : Work}
    (hwork : work ∈ outstanding ∨ q.queue = [] ∧ q.busy = false) :
    ∃ launched, q.completeCommand.executing = q.executing ++ launched ∧
      q.completeCommand.queue = q.queue.tail ∧
      q.completeCommand.InStep enqueued (outstanding.erase work ++ launched) ∧
      q.queue.head? = if work ∈ outstanding then some work else none := by
  obtain ⟨before, rfl, hsub⟩ := h.order
  rcases h.inFlight with ⟨hbusy, hqueue, rfl⟩ | ⟨head, rest, hbusy, hqueue, rfl⟩
  · have hbody : q.completeCommand = { q with busy := false } := by
      simp [GattCommandQueue.completeCommand, hqueue]
    rw [hbody]
    have hsame : InStep { q with busy := false } (before ++ q.queue.tail) [] :=
      h.same rfl hbusy.symm rfl
    exact ⟨[], by simp, by simp [hqueue], by simpa using hsame, by simp [hqueue]⟩
  · have hhead : work = head := by
      simpa [hqueue] using hwork
    subst hhead
    have hbody : q.completeCommand =
        { q with busy := false, queue := rest }.processNextInQueue := by
      simp [GattCommandQueue.completeCommand, hqueue]
    rw [hbody]
    cases rest with
    | nil =>
      refine ⟨[], by simp [processNextInQueue], by simp [processNextInQueue, hqueue], ?_,
        by simp [hqueue]⟩
      refine ⟨.inl ⟨rfl, rfl, by simp⟩, before, ?_, hsub⟩
      simp [processNextInQueue, hqueue]
    | cons next rest =>
      -- the next work is executed
      refine ⟨[next], by simp [processNextInQueue], by simp [processNextInQueue, hqueue], ?_,
        by simp [hqueue]⟩
      refine ⟨.inr ⟨next, rest, rfl, rfl, by simp⟩, before ++ [next], ?_, ?_⟩
      · simp [processNextInQueue, hqueue]
      · exact hsub.append_right [next]

end GattCommandQueue

open BluetoothLeService Transition

/-! ## The service -/

/-- The works are executed in the order in which they were put in, each at most once and one at
a time; every completion takes out the work that it completes; and what is queued or in flight
is of the connection in use. -/
structure Disciplined (s : LeSystem) : Prop where
  order : s.service.commandsQueue.executing.Sublist s.enqueued
  one : s.outstanding.length ≤ 1
  removes : ∀ p ∈ s.completions, p.2 = p.1
  queued : ∀ work ∈ s.service.commandsQueue.queue, s.service.link = some work.gatt
  inFlight : s.service.commandsQueue.busy = true →
    ∃ work ∈ s.outstanding, s.service.link = some work.gatt

/-- The queue is idle when another connection is taken or `retry_connect` tries again, a
callback is for the work that is outstanding or finds the queue idle, and a call of `add` runs
while the connection of its work is in use. -/
structure QueueGuard (s : LeSystem) (e : LeEvent) : Prop where
  takes : linkChange s.service e = .takes → s.service.QueueIdle
  retries : linkChange s.service e = .retries → s.service.QueueIdle
  completes : ∀ work ∈ e.completes, work ∈ s.outstanding ∨ s.service.QueueIdle
  enqueues : ∀ work ∈ s.enqueues e, s.service.link = some work.gatt

instance (s : LeSystem) (e : LeEvent) : Decidable (QueueGuard s e) :=
  decidable_of_iff
    ((linkChange s.service e = .takes → s.service.QueueIdle) ∧
      (linkChange s.service e = .retries → s.service.QueueIdle) ∧
      (∀ work ∈ e.completes, work ∈ s.outstanding ∨ s.service.QueueIdle) ∧
      ∀ work ∈ s.enqueues e, s.service.link = some work.gatt)
    ⟨fun h => ⟨h.1, h.2.1, h.2.2.1, h.2.2.2⟩, fun h => ⟨h.1, h.2, h.3, h.4⟩⟩

/-- The queue is in step with what has happened, and of the connection in use. -/
structure InOrder (s : LeSystem) : Prop where
  inStep : s.service.commandsQueue.InStep s.enqueued s.outstanding
  queued : ∀ work ∈ s.service.commandsQueue.queue, s.service.link = some work.gatt
  removes : ∀ p ∈ s.completions, p.2 = p.1

theorem InOrder.disciplined {s : LeSystem} (h : InOrder s) : Disciplined s := by
  refine ⟨h.inStep.sublist, ?_, h.removes, h.queued, ?_⟩
  · rcases h.inStep.inFlight with ⟨-, -, hout⟩ | ⟨work, rest, -, -, hout⟩
    · simp [hout]
    · simp [hout]
  · intro hbusy
    rcases h.inStep.inFlight with ⟨hidle, -, -⟩ | ⟨work, rest, -, hqueue, hout⟩
    · exact absurd (hidle.symm.trans hbusy) (by simp)
    · have hlink := h.queued work (by simp [hqueue])
      exact ⟨work, by simp [hout], hlink⟩

/-! ### One step -/

/-- Nothing is executed. -/
theorem launched_nil {s : LeSystem} {service : BluetoothLeService}
    (h : service.commandsQueue.executing = s.service.commandsQueue.executing) :
    s.launched service = [] := by
  simp [LeSystem.launched, h]

theorem launched_append {s : LeSystem} {service : BluetoothLeService} {works : List PieceOfWork}
    (h : service.commandsQueue.executing = s.service.commandsQueue.executing ++ works) :
    s.launched service = works := by
  simp [LeSystem.launched, h]

/-- An event that is not about the queue puts nothing in, and completes nothing. -/
theorem advance_offQueue (s : LeSystem) (service : BluetoothLeService) {e : LeEvent}
    (he : e.OffQueue) :
    (s.advance e service).enqueued = s.enqueued ∧
      (s.advance e service).completions = s.completions ∧ e.completes = none := by
  cases e with
  | descriptorWrite c status => exact he.elim
  | characteristicRead c => exact he.elim
  | addRuns i => exact he.elim
  | _ => simp [LeSystem.advance, LeSystem.enqueues, LeSystem.completion, LeEvent.completes]

/-- What is outstanding after such an event. -/
theorem outstanding_offQueue {s : LeSystem} {e : LeEvent} {service : BluetoothLeService}
    (he : e.OffQueue)
    (h : service.commandsQueue.executing = s.service.commandsQueue.executing) :
    (s.advance e service).outstanding =
      if linkChange s.service e = .retries ∨ linkChange s.service e = .closes then []
      else s.outstanding := by
  have hnone : e.completes = none := (advance_offQueue s service he).2.2
  simp only [LeSystem.advance, LeSystem.staysOutstanding, launched_nil h, hnone, List.append_nil]
  cases linkChange s.service e <;> simp

/-- The queue and the connection stay. -/
theorem InOrder.same {s : LeSystem} (h : InOrder s) {e : LeEvent} {service : BluetoothLeService}
    (he : e.OffQueue) (hqueue : SameQueue s.service service)
    (hout : (s.advance e service).outstanding = s.outstanding)
    (hlink : ∀ work ∈ s.service.commandsQueue.queue, service.link = some work.gatt) :
    InOrder (s.advance e service) := by
  obtain ⟨henq, hcompletions, -⟩ := advance_offQueue s service he
  refine ⟨?_, ?_, ?_⟩
  · rw [henq, hout]
    exact h.inStep.same hqueue.queue hqueue.busy hqueue.executing
  · intro work hwork
    have hold : work ∈ s.service.commandsQueue.queue := by
      rw [← hqueue.queue]
      exact hwork
    exact hlink work hold
  · rw [hcompletions]
    exact h.removes

/-- An idle queue, so that it does not matter what becomes of the connection. -/
theorem InOrder.idle {s : LeSystem} (h : InOrder s) {e : LeEvent} {service : BluetoothLeService}
    (he : e.OffQueue) (hqueue : SameQueue s.service service) (hidle : s.service.QueueIdle) :
    InOrder (s.advance e service) := by
  have hnone : s.outstanding = [] := h.inStep.outstanding_of_idle hidle.2
  refine h.same he hqueue ?_ ?_
  · simp [outstanding_offQueue he hqueue.executing, hnone]
  · intro work hwork
    simp [hidle.1] at hwork

theorem leStep_offQueue {s : LeSystem} {e : LeEvent} {service : BluetoothLeService}
    (h : InOrder s) (hguard : QueueGuard s e) (he : e.OffQueue)
    (hafter : s.service.after s.next e = some service) : InOrder (s.advance e service) := by
  have heffect := after_effect he hafter
  cases hchange : linkChange s.service e with
  | keeps =>
    rw [hchange] at heffect
    obtain ⟨hqueue, -, hlink⟩ := heffect
    refine h.same he hqueue ?_ ?_
    · simp [outstanding_offQueue he hqueue.executing, hchange]
    · intro work hwork
      exact hlink.trans (h.queued work hwork)
  | finds =>
    rw [hchange] at heffect
    obtain ⟨hgrabs, -, hlink⟩ := heffect
    refine h.same he hgrabs.sameQueue ?_ ?_
    · simp [outstanding_offQueue he hgrabs.sameQueue.executing, hchange]
    · intro work hwork
      exact hlink.trans (h.queued work hwork)
  | takes =>
    rw [hchange] at heffect
    exact h.idle he heffect.1 (hguard.takes hchange)
  | retries =>
    rw [hchange] at heffect
    exact h.idle he heffect.1 (hguard.retries hchange)
  | closes =>
    rw [hchange] at heffect
    obtain ⟨hexecuting, hidle, -⟩ := heffect
    obtain ⟨henq, hcompletions, -⟩ := advance_offQueue s service he
    refine ⟨?_, ?_, ?_⟩
    · rw [henq, outstanding_offQueue he hexecuting, hchange]
      exact h.inStep.cleared hidle.1 hidle.2 hexecuting
    · intro work hwork
      simp [LeSystem.advance, hidle.1] at hwork
    · rw [hcompletions]
      exact h.removes

/-- A callback of the queue. -/
theorem leStep_completes {s : LeSystem} {e : LeEvent} {service : BluetoothLeService}
    {work : PieceOfWork} (h : InOrder s) (hguard : QueueGuard s e)
    (hwork : e.completes = some work) (hkeeps : linkChange s.service e = .keeps)
    (henqueues : s.enqueues e = [])
    (hqueue : service.commandsQueue = s.service.commandsQueue.completeCommand)
    (hlink : service.link = s.service.link) : InOrder (s.advance e service) := by
  obtain ⟨works, hexecuting, htail, hstep, hhead⟩ :=
    h.inStep.completeCommand (hguard.completes work hwork)
  have hlaunched : s.launched service = works := by
    refine launched_append ?_
    rw [hqueue, hexecuting]
  refine ⟨?_, ?_, ?_⟩
  · simpa [LeSystem.advance, LeSystem.staysOutstanding, hkeeps, hwork, henqueues, hlaunched,
      hqueue] using hstep
  · intro w hw
    have hold : w ∈ s.service.commandsQueue.queue := by
      refine List.mem_of_mem_tail ?_
      rw [← htail, ← hqueue]
      exact hw
    exact hlink.trans (h.queued w hold)
  · intro p hp
    simp only [LeSystem.advance, LeSystem.completion, hwork, List.mem_append,
      List.mem_singleton] at hp
    rcases hp with hp | rfl
    · exact h.removes p hp
    · exact hhead

/-- The body of a call of `add`. -/
theorem leStep_addRuns {s : LeSystem} {i : ℕ} {service : BluetoothLeService} (h : InOrder s)
    (hguard : QueueGuard s (.addRuns i))
    (hafter : s.service.after s.next (.addRuns i) = some service) :
    InOrder (s.advance (.addRuns i) service) := by
  simp only [after] at hafter
  split at hafter
  · rename_i work hget
    cases hafter
    have hcurrent : s.service.link = some work.gatt :=
      hguard.enqueues work (by simp [LeSystem.enqueues, hget])
    have hsame : GattCommandQueue.InStep { s.service.commandsQueue with
        adding := s.service.commandsQueue.adding.eraseIdx i } s.enqueued s.outstanding :=
      h.inStep.same rfl rfl rfl
    obtain ⟨works, hexecuting, hqueue, hstep⟩ := hsame.addBody work
    have hlaunched : s.launched { s.service with
        commandsQueue := { s.service.commandsQueue with
          adding := s.service.commandsQueue.adding.eraseIdx i }.addBody work } = works :=
      launched_append hexecuting
    refine ⟨?_, ?_, ?_⟩
    · simpa [LeSystem.advance, LeSystem.staysOutstanding, linkChange, LeEvent.completes,
        LeSystem.enqueues, hget, hlaunched] using hstep
    · intro w hw
      simp only [LeSystem.advance, hqueue, List.mem_append, List.mem_singleton] at hw
      rcases hw with hw | rfl
      · exact h.queued w hw
      · exact hcurrent
    · simpa [LeSystem.advance, LeSystem.completion, LeEvent.completes] using h.removes
  · cases hafter

/-- **The step lemma.** -/
theorem leStep_inOrder (s : LeSystem) (e : LeEvent) (s' : LeSystem) (h : InOrder s)
    (hguard : QueueGuard s e) (hstep : leStep s e = some s') : InOrder s' := by
  obtain ⟨-, service, hafter, rfl⟩ := leStep_eq_some.1 hstep
  cases e with
  | descriptorWrite c status =>
    cases hafter
    refine leStep_completes h hguard rfl rfl rfl ?_ ?_
    · by_cases hstatus : status = gattSuccess <;> simp [onDescriptorWrite, hstatus]
    · by_cases hstatus : status = gattSuccess <;> simp [onDescriptorWrite, hstatus, link]
  | characteristicRead c =>
    cases hafter
    exact leStep_completes h hguard rfl rfl rfl rfl rfl
  | addRuns i => exact leStep_addRuns h hguard hafter
  | _ => exact leStep_offQueue h hguard trivial hafter

/-! ### Every run -/

theorem inOrder_init : InOrder LeSystem.init := by
  refine ⟨GattCommandQueue.inStep_empty, ?_, ?_⟩
  · intro work hwork
    cases hwork
  · intro p hp
    cases hp

/-- **When the queue keeps its discipline**: after every run of the system in which the events
meet `QueueGuard`. -/
theorem disciplined_along {es : List LeEvent} {s : LeSystem}
    (hguard : Along leStep QueueGuard LeSystem.init es)
    (hrun : run leStep LeSystem.init es = some s) : Disciplined s :=
  (run_inv leStep_inOrder inOrder_init hguard hrun).disciplined

theorem disciplined_along_train :
    ∃ s, run leStep LeSystem.init (trainNotifies ++
        [.descriptorWrite ⟨0, .robotRead, 0x22, true⟩ gattSuccess]) = some s ∧
      s.completions.length = 1 ∧ Disciplined s := by
  have hguard : Along leStep QueueGuard LeSystem.init (trainNotifies ++
      [.descriptorWrite ⟨0, .robotRead, 0x22, true⟩ gattSuccess]) :=
    alongb_sound (g := fun s e => decide (QueueGuard s e)) (fun _ _ => of_decide_eq_true)
      (by decide)
  have hrun : ∃ s, run leStep LeSystem.init (trainNotifies ++
      [.descriptorWrite ⟨0, .robotRead, 0x22, true⟩ gattSuccess]) = some s ∧
      s.completions.length = 1 :=
    ⟨_, (Option.some_get (by decide)).symm, by decide⟩
  obtain ⟨s, hs, hlength⟩ := hrun
  exact ⟨s, hs, hlength, disciplined_along hguard hs⟩

/-- The connection drops while the notification is being set up, and comes back: when the
services are discovered, the work of the old connection is at the head of the queue and taken
for in flight, and the one of the new connection waits behind it. -/
theorem queue_blocked_by_retry :
    ∃ s, run leStep LeSystem.init (trainNotifies ++
        [.connectionStateChange trainGatt gattSuccess stateDisconnected .gatt,
          .connectionStateChange (some ⟨4, trainGatt.address⟩) gattSuccess stateConnected .null,
          .servicesDiscovered (some ⟨4, trainGatt.address⟩) [trainService] gattSuccess .null,
          .addRuns 0]) = some s ∧
      s.service.link = some 4 ∧ s.service.commandsQueue.busy = true ∧ s.outstanding = [] ∧
      s.service.commandsQueue.queue =
        [.setupNotify ⟨0, .robotRead, 0x22, true⟩, .setupNotify ⟨4, .robotRead, 0x22, true⟩] ∧
      ¬ Disciplined s := by
  have hrun : ∃ s, run leStep LeSystem.init (trainNotifies ++
      [.connectionStateChange trainGatt gattSuccess stateDisconnected .gatt,
        .connectionStateChange (some ⟨4, trainGatt.address⟩) gattSuccess stateConnected .null,
        .servicesDiscovered (some ⟨4, trainGatt.address⟩) [trainService] gattSuccess .null,
        .addRuns 0]) = some s ∧
      s.service.link = some 4 ∧ s.service.commandsQueue.busy = true ∧ s.outstanding = [] ∧
      s.service.commandsQueue.queue =
        [.setupNotify ⟨0, .robotRead, 0x22, true⟩, .setupNotify ⟨4, .robotRead, 0x22, true⟩] :=
    ⟨_, (Option.some_get (by decide)).symm, by decide, by decide, by decide, by decide⟩
  obtain ⟨s, hs, hlink, hbusy, hout, hqueue⟩ := hrun
  refine ⟨s, hs, hlink, hbusy, hout, hqueue, ?_⟩
  intro h
  obtain ⟨work, hwork, -⟩ := h.inFlight hbusy
  simp [hout] at hwork

end App
