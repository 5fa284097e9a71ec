import LegoTrain.Lib.Transition

/-!
# The advertising of the train

The train's `ble_app.c` advertises at a slow interval, and at twice that interval once
nothing has happened for a while.  The system is the application between `bt_enable_cb` and
a reset, with the advertising that the Bluetooth stack has running and the connections
that are up.

* `advStep` : the callbacks of a connection and a timeout of `ble_app_process`;
* `Consistent` : the flag tells the interval, and every switch came in its time;
* `advInv_step`, `adv_consistent` : both hold as long as no wait runs out during a
  connection.
-/

namespace Train

open Transition

/-- `BT_GAP_ADV_SLOW_INT_MIN` and `_MAX`, or twice that. -/
inductive AdvInterval
  | slow
  | doubled
  deriving DecidableEq, Repr

/-- A switch to the doubled interval: the timeouts since advertising was started, and the
connections that were up. -/
structure AdvSwitch where
  timeouts : ℕ
  conns : ℕ
  deriving DecidableEq, Repr

structure BleApp where
  /-- `is_adv_2s` -/
  isAdv2s : Bool
  /-- `adv_duration` -/
  advDuration : ℕ
  /-- the advertising that is running -/
  adv : Option AdvInterval
  /-- the connections that are up -/
  conns : ℕ
  /-- the timeouts since the application last started advertising -/
  sinceRestart : ℕ
  switches : List AdvSwitch
  deriving DecidableEq, Repr

/-- `ADV_1S_DURATION`. -/
def adv1sDuration : ℕ := 30

/-- `bt_le_adv_stop` and `bt_le_adv_start`. -/
def BleApp.restart (s : BleApp) (interval : AdvInterval) : BleApp :=
  { s with adv := some interval, sinceRestart := 0 }

/-- `bl_connected`.  The controller stops advertising when it is connected to; the stack lets
it go on when the controller can do both (`BT_LE_STATES_SLAVE_CONN_ADV`). -/
def blConnected (advBesideConn : Bool) (s : BleApp) (err : Bool) : BleApp :=
  if err then s
  else
    { s with
      isAdv2s := false, advDuration := 0, conns := s.conns + 1
      adv := if advBesideConn then s.adv else none }

/-- `bl_disconnected`. -/
def blDisconnected (s : BleApp) : BleApp :=
  { s with conns := s.conns - 1 }.restart .slow

/-- `ble_app_process` when its wait runs out. -/
def bleAppProcess (s : BleApp) : BleApp :=
  if s.isAdv2s then { s with sinceRestart := s.sinceRestart + 1 }
  else if s.advDuration + 1 ≥ adv1sDuration then
    { s with
      advDuration := 0, isAdv2s := true
      switches := ⟨s.sinceRestart + 1, s.conns⟩ :: s.switches }.restart .doubled
  else { s with advDuration := s.advDuration + 1, sinceRestart := s.sinceRestart + 1 }

inductive AdvEvent
  | connected (err : Bool)
  | disconnected
  | timeout
  deriving DecidableEq, Repr

/-- One event. -/
def advStep (advBesideConn : Bool) (s : BleApp) : AdvEvent → Option BleApp
  | .connected err => some (blConnected advBesideConn s err)
  | .disconnected => if s.conns = 0 then none else some (blDisconnected s)
  | .timeout => some (bleAppProcess s)

/-- Behind `bt_enable_cb`. -/
def BleApp.init : BleApp := ⟨false, 0, some .slow, 0, 0, []⟩

/-- `is_adv_2s` tells whether advertising runs at the doubled interval, which it does from
the timeout number `ADV_1S_DURATION` after a restart on, without a connection. -/
structure Consistent (s : BleApp) : Prop where
  flag : s.isAdv2s = true ↔ s.adv = some .doubled
  switched : ∀ sw ∈ s.switches, sw.timeouts = adv1sDuration ∧ sw.conns = 0
  due : s.conns = 0 → s.isAdv2s = false → s.sinceRestart < adv1sDuration

/-- A wait does not run out during a connection, and nobody connects to the doubled
advertising if the stack lets it go on. -/
def Undisturbed (advBesideConn : Bool) (s : BleApp) : AdvEvent → Prop
  | .connected err => err = true ∨ advBesideConn = false ∨ s.adv ≠ some .doubled
  | .disconnected => True
  | .timeout => s.conns = 0

instance (advBesideConn : Bool) (s : BleApp) :
    ∀ e, Decidable (Undisturbed advBesideConn s e)
  | .connected err =>
    inferInstanceAs (Decidable (err = true ∨ advBesideConn = false ∨ s.adv ≠ some .doubled))
  | .disconnected => inferInstanceAs (Decidable True)
  | .timeout => inferInstanceAs (Decidable (s.conns = 0))

/-! ## The invariant -/

/-- Without a connection the counter counts the timeouts since advertising was started;
with one it is zero. -/
structure AdvInv (s : BleApp) : Prop where
  doubled : s.isAdv2s = true → s.adv = some .doubled ∧ s.conns = 0
  slow : s.isAdv2s = false → s.conns = 0 →
    s.adv = some .slow ∧ s.advDuration = s.sinceRestart ∧ s.sinceRestart < adv1sDuration
  connected : s.conns ≠ 0 → s.advDuration = 0 ∧ s.adv ≠ some .doubled
  switched : ∀ sw ∈ s.switches, sw.timeouts = adv1sDuration ∧ sw.conns = 0

variable {advBesideConn : Bool} {s s' : BleApp}

theorem AdvInv.isAdv2s_of_conns (h : AdvInv s) (hconns : s.conns ≠ 0) : s.isAdv2s = false := by
  by_contra hflag
  exact hconns (h.doubled (by simpa using hflag)).2

theorem AdvInv.blConnected (h : AdvInv s) {err : Bool}
    (hG : Undisturbed advBesideConn s (.connected err)) :
    AdvInv (blConnected advBesideConn s err) := by
  unfold Train.blConnected
  split
  · exact h
  · rename_i herr
    refine ⟨by simp, fun _ hconns => by simp at hconns, fun _ => ⟨rfl, ?_⟩, h.switched⟩
    rcases hG with rfl | rfl | hadv
    · exact absurd rfl herr
    · simp
    · cases advBesideConn
      · simp
      · exact hadv

theorem AdvInv.blDisconnected (h : AdvInv s) (hconns : s.conns ≠ 0) :
    AdvInv (blDisconnected s) := by
  have hflag := h.isAdv2s_of_conns hconns
  have hcount := (h.connected hconns).1
  refine ⟨fun hdoubled => ?_, fun _ _ => ⟨rfl, hcount, Nat.zero_lt_succ 29⟩,
    fun _ => ⟨hcount, ?_⟩, h.switched⟩
  · exact absurd (hflag.symm.trans hdoubled) (by decide)
  · simp [Train.blDisconnected, BleApp.restart]

theorem AdvInv.bleAppProcess (h : AdvInv s) (hconns : s.conns = 0) : AdvInv (bleAppProcess s) := by
  unfold Train.bleAppProcess
  split
  · rename_i hflag
    refine ⟨h.doubled, fun hslow => ?_, fun hne => absurd hconns hne, h.switched⟩
    exact absurd (hflag.symm.trans hslow) (by decide)
  · rename_i hflag
    obtain ⟨hadv, hcount, hlt⟩ := h.slow (by simpa using hflag) hconns
    split
    · rename_i hlast
      refine ⟨fun _ => ⟨rfl, hconns⟩, fun hslow => ?_, fun hne => absurd hconns hne,
        fun sw hsw => ?_⟩
      · simp [BleApp.restart] at hslow
      rcases List.mem_cons.1 hsw with rfl | hsw
      · refine ⟨?_, hconns⟩
        simp only
        omega
      · exact h.switched sw hsw
    · rename_i hmore
      refine ⟨fun hdoubled => absurd hdoubled hflag, fun _ _ => ⟨hadv, ?_, ?_⟩,
        fun hne => absurd hconns hne, h.switched⟩
      · simp only [hcount]
      · simp only
        omega

theorem advInv_init : AdvInv .init :=
  ⟨by decide, fun _ _ => ⟨rfl, rfl, by decide⟩, fun hne => absurd rfl hne, by simp [BleApp.init]⟩

/-- Every undisturbed event keeps the invariant. -/
theorem advInv_step {e : AdvEvent} (h : AdvInv s) (hG : Undisturbed advBesideConn s e)
    (hs : advStep advBesideConn s e = some s') : AdvInv s' := by
  cases e with
  | connected err =>
    obtain rfl := Option.some.inj hs
    exact h.blConnected hG
  | disconnected =>
    rw [advStep] at hs
    split at hs
    · cases hs
    · rename_i hconns
      obtain rfl := Option.some.inj hs
      exact h.blDisconnected hconns
  | timeout =>
    obtain rfl := Option.some.inj hs
    exact h.bleAppProcess hG

theorem AdvInv.consistent (h : AdvInv s) : Consistent s := by
  refine ⟨⟨fun hflag => (h.doubled hflag).1, fun hadv => ?_⟩, h.switched,
    fun hconns hflag => (h.slow hflag hconns).2.2⟩
  by_contra hflag
  by_cases hconns : s.conns = 0
  · have hslow := (h.slow (by simpa using hflag) hconns).1
    rw [hslow] at hadv
    cases hadv
  · exact (h.connected hconns).2 hadv

/-- In every run without a timeout during a connection the flag, the counter and the
advertising agree. -/
theorem adv_consistent {es : List AdvEvent}
    (hrun : run (advStep advBesideConn) .init es = some s)
    (hG : Along (advStep advBesideConn) (Undisturbed advBesideConn) .init es) : Consistent s :=
  (run_inv (fun _ _ _ h hG hs => advInv_step h hG hs) advInv_init hG hrun).consistent

/-- Thirty timeouts, a connection and a disconnection, where the stack does not advertise
beside a connection. -/
def idleThenConnection : List AdvEvent :=
  List.replicate 30 .timeout ++ [.connected false, .disconnected]

theorem adv_consistent_idle : ∃ s,
    run (advStep false) .init idleThenConnection = some s ∧ Consistent s := by
  have hrun := (Option.some_get (show (run (advStep false) .init idleThenConnection).isSome by
    decide)).symm
  refine ⟨_, hrun, adv_consistent hrun ?_⟩
  exact alongb_sound (g := fun s e => decide (Undisturbed false s e))
    (fun _ _ => of_decide_eq_true) (by decide)

/-- A connection of thirty timeouts and its end. -/
def longConnection : List AdvEvent :=
  .connected false :: List.replicate 30 .timeout ++ [.disconnected]

/-- Behind it the flag is set and advertising is slow, for good unless somebody connects. -/
theorem adv_inconsistent :
    ¬ ∀ (advBesideConn : Bool) (es : List AdvEvent) (s : BleApp),
      run (advStep advBesideConn) .init es = some s → Consistent s := by
  intro h
  have hrun : run (advStep false) .init longConnection
      = some ⟨true, 0, some .slow, 0, 0, [⟨30, 1⟩]⟩ := by decide
  have hflag := (h false longConnection _ hrun).flag.1 rfl
  exact absurd hflag (by decide)

end Train
