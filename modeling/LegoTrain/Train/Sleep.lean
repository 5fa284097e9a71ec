import Mathlib.Algebra.Order.Ring.Int

/-!
# The sleep of the idle train

`vApplicationSleep` of the train's `main.c`: FreeRTOS calls it with the time for which
nothing is to be done, and it sleeps for that time or until the Bluetooth controller has
to wake up, whichever comes first, in cycles of a 32768 Hz clock.

* `vApplicationSleep` : the argument of `enter_sleep`, if it is called;
* `idleCycles_toInt` : the conversion to cycles is right up to `maxExactMs` and too small
  beyond;
* `sleepsRight_iff` : for which inputs the device sleeps as long as it should.
-/

namespace Train

/-- `eSleepModeStatus`. -/
inductive ESleepModeStatus
  | eAbortSleep
  | eStandardSleep
  | eNoTasksWaitingTimeout
  deriving DecidableEq, Repr

/-- `portMAX_DELAY`. -/
def portMaxDelay : UInt32 := 0xFFFFFFFF

/-- `TIME_5MS_IN_32768CYCLE`. -/
def time5MsIn32768Cycle : Int32 := 164

/-- What `vApplicationSleep` asks for. -/
structure SleepEnv where
  /-- `ble_app_is_connected()` -/
  isConnected : Bool
  /-- `xTaskGetTickCount()` -/
  tickCount : UInt32
  /-- `eTaskConfirmSleepModeStatus()` -/
  eSleepStatus : ESleepModeStatus
  /-- `ble_controller_sleep_is_ongoing()` -/
  sleepIsOngoing : Bool
  /-- `ble_controller_sleep()` -/
  bleSleepDuration : Int32
  /-- `flashCfg->ioMode & 0xF` -/
  ioMode : UInt8
  /-- `flashCfg->cReadSupport` -/
  contRead : UInt8
  /-- `GLB_Get_Root_CLK_Sel() == GLB_ROOT_CLK_XTAL` -/
  rootClkXtal : Bool
  deriving DecidableEq, Repr

/-- `freertos_max_idle`. -/
def maxIdle (env : SleepEnv) (xExpectedIdleTime : UInt32) : Bool :=
  xExpectedIdleTime + env.tickCount == portMaxDelay

/-- `expectedIdleTime_32768cycles`. -/
def idleCycles (xExpectedIdleTime : UInt32) : Int32 :=
  (32768 * (xExpectedIdleTime - 1) / 1000).toInt32

/-- `reduceSleepTime`. -/
def reduceSleepTime (env : SleepEnv) : UInt32 :=
  if env.ioMode = 4 ∧ env.contRead = 1 ∧ env.rootClkXtal then 100
  else if env.ioMode = 1 ∧ env.contRead = 0 ∧ env.rootClkXtal then 130
  else 130

/-- `vApplicationSleep`: the argument of `enter_sleep`, if it gets there. -/
def vApplicationSleep (env : SleepEnv) (xExpectedIdleTime : UInt32) : Option UInt32 :=
  if env.isConnected then none
  else
    let freertosMaxIdle := maxIdle env xExpectedIdleTime
    let expectedIdleTime := if freertosMaxIdle then 0 else idleCycles xExpectedIdleTime
    if !freertosMaxIdle ∧ expectedIdleTime < time5MsIn32768Cycle then none
    else if env.eSleepStatus = .eAbortSleep ∨ env.sleepIsOngoing then none
    else if env.bleSleepDuration < time5MsIn32768Cycle then none
    else if env.eSleepStatus = .eStandardSleep ∧ !freertosMaxIdle
        ∧ expectedIdleTime < env.bleSleepDuration then
      some (expectedIdleTime.toUInt32 - reduceSleepTime env)
    else some (env.bleSleepDuration.toUInt32 - reduceSleepTime env)

/-! ## The conversion -/

/-- The cycles of the 32768 Hz clock in the idle time but its last millisecond. -/
def exactCycles (ms : ℕ) : ℕ := 32768 * (ms - 1) / 1000

/-- The last idle time whose conversion does not overflow. -/
def maxExactMs : ℕ := 131072

theorem toInt_toInt32 {a : UInt32} (h : a.toNat < 2 ^ 31) : a.toInt32.toInt = a.toNat := by
  have hlt : 2 * a.toBitVec.toNat < 2 ^ 32 := by
    have heq : a.toBitVec.toNat = a.toNat := rfl
    omega
  exact BitVec.toInt_eq_toNat_of_lt hlt

theorem toNat_toUInt32 {a : Int32} (h : 0 ≤ a.toInt) : (a.toUInt32.toNat : ℤ) = a.toInt := by
  have heq : a.toInt = a.toBitVec.toInt := rfl
  rw [heq, BitVec.toInt_eq_toNat_cond] at h ⊢
  have hto : a.toUInt32.toNat = a.toBitVec.toNat := rfl
  rw [hto]
  by_cases hlt : 2 * a.toBitVec.toNat < 2 ^ 32
  · rw [if_pos hlt]
  · rw [if_neg hlt] at h
    have := a.toBitVec.isLt
    omega

/-- The product is taken modulo `2 ^ 32`, so the cycles are never negative. -/
theorem idleCycles_eq {ms : UInt32} (h : 1 ≤ ms.toNat) :
    (idleCycles ms).toInt = (32768 * (ms.toNat - 1) % 2 ^ 32 / 1000 : ℕ) := by
  have hsub : (ms - 1).toNat = ms.toNat - 1 := by
    rw [UInt32.toNat_sub_of_le]
    · rfl
    · rw [UInt32.le_iff_toNat_le]
      exact h
  have hval : (32768 * (ms - 1) / 1000 : UInt32).toNat
      = 32768 * (ms.toNat - 1) % 2 ^ 32 / 1000 := by
    rw [UInt32.toNat_div, UInt32.toNat_mul, hsub]
    rfl
  rw [idleCycles, toInt_toInt32, hval]
  rw [hval]
  omega

/-- Up to `maxExactMs` the conversion is right. -/
theorem idleCycles_of_le {ms : UInt32} (h : 1 ≤ ms.toNat) (hle : ms.toNat ≤ maxExactMs) :
    (idleCycles ms).toInt = exactCycles ms.toNat := by
  unfold maxExactMs at hle
  rw [idleCycles_eq h, exactCycles, Nat.mod_eq_of_lt (by omega)]

/-- Beyond it is too small. -/
theorem idleCycles_of_gt {ms : UInt32} (hgt : maxExactMs < ms.toNat) :
    (idleCycles ms).toInt < exactCycles ms.toNat := by
  unfold maxExactMs at hgt
  rw [idleCycles_eq (by omega), exactCycles]
  omega

/-! ## When the device sleeps -/

/-- Nothing but the idle time can keep the device from sleeping: it has no connection,
FreeRTOS and the Bluetooth controller let it sleep, the latter long enough. -/
structure MaySleep (env : SleepEnv) : Prop where
  isConnected : env.isConnected = false
  eSleepStatus : env.eSleepStatus ≠ .eAbortSleep
  sleepIsOngoing : env.sleepIsOngoing = false
  bleSleepDuration : time5MsIn32768Cycle.toInt ≤ env.bleSleepDuration.toInt

variable {env : SleepEnv} {ms : UInt32}

theorem maySleep_of_isSome (h : (vApplicationSleep env ms).isSome) : MaySleep env := by
  have hconn : ¬ env.isConnected = true := by
    intro hconn
    simp [vApplicationSleep, hconn] at h
  have hstatus : ¬ (env.eSleepStatus = .eAbortSleep ∨ env.sleepIsOngoing = true) := by
    intro hstatus
    simp [vApplicationSleep, hstatus] at h
  have hble : ¬ env.bleSleepDuration < time5MsIn32768Cycle := by
    intro hble
    simp [vApplicationSleep, hble] at h
  rw [not_or, Bool.not_eq_true] at hstatus
  rw [Int32.lt_iff_toInt_lt, Int.not_lt] at hble
  exact ⟨by simpa using hconn, hstatus.1, hstatus.2, hble⟩

/-- What the function does then, when there is an end to the idle time. -/
theorem vApplicationSleep_of_maySleep (h : MaySleep env) (hidle : maxIdle env ms = false) :
    vApplicationSleep env ms
      = if (idleCycles ms).toInt < time5MsIn32768Cycle.toInt then none
        else if env.eSleepStatus = .eStandardSleep
            ∧ (idleCycles ms).toInt < env.bleSleepDuration.toInt then
          some ((idleCycles ms).toUInt32 - reduceSleepTime env)
        else some (env.bleSleepDuration.toUInt32 - reduceSleepTime env) := by
  obtain ⟨hconn, hstatus, hongoing, hble⟩ := h
  have hble' : ¬ env.bleSleepDuration < time5MsIn32768Cycle := by
    rw [Int32.lt_iff_toInt_lt]
    exact Int.not_lt.2 hble
  simp [vApplicationSleep, hconn, hidle, hstatus, hongoing, hble', Int32.lt_iff_toInt_lt]

theorem reduceSleepTime_le (env : SleepEnv) : (reduceSleepTime env).toNat ≤ 130 := by
  unfold reduceSleepTime
  split
  · decide
  split <;> decide

/-- The argument of `enter_sleep` does not wrap. -/
theorem toNat_sub_reduceSleepTime (env : SleepEnv) {cycles : Int32}
    (h : time5MsIn32768Cycle.toInt ≤ cycles.toInt) :
    ((cycles.toUInt32 - reduceSleepTime env).toNat : ℤ)
        = cycles.toInt - (reduceSleepTime env).toNat ∧
      0 < (cycles.toUInt32 - reduceSleepTime env).toNat := by
  have hthreshold : time5MsIn32768Cycle.toInt = 164 := rfl
  rw [hthreshold] at h
  have hcycles := toNat_toUInt32 (a := cycles) (by omega)
  have hreduce := reduceSleepTime_le env
  rw [UInt32.toNat_sub_of_le]
  · omega
  · rw [UInt32.le_iff_toNat_le]
    omega

/-- The device sleeps when both durations are long enough, for the shorter of them less the
time it takes to wake up, and the idle time was converted exactly. -/
structure SleepsRight (env : SleepEnv) (ms : UInt32) : Prop where
  exactly : ∀ pdsSleepCycles, vApplicationSleep env ms = some pdsSleepCycles →
    (idleCycles ms).toInt = exactCycles ms.toNat ∧
      (pdsSleepCycles.toNat : ℤ) = min (exactCycles ms.toNat : ℤ) env.bleSleepDuration.toInt
        - (reduceSleepTime env).toNat ∧
      0 < pdsSleepCycles.toNat
  sleeps : MaySleep env → time5MsIn32768Cycle.toInt ≤ exactCycles ms.toNat →
    (vApplicationSleep env ms).isSome

/-- The idle time is at most `maxExactMs`, and it is too short to sleep or not the longer
duration, unless FreeRTOS has said that the idle time counts. -/
structure SleepConvertible (env : SleepEnv) (ms : UInt32) : Prop where
  le : ms.toNat ≤ maxExactMs
  shorter : exactCycles ms.toNat < time5MsIn32768Cycle.toInt ∨
    env.eSleepStatus = .eStandardSleep ∨ env.bleSleepDuration.toInt ≤ exactCycles ms.toNat

theorem sleepsRight_of_convertible (hms : 1 ≤ ms.toNat) (hidle : maxIdle env ms = false)
    (h : MaySleep env) (hconv : SleepConvertible env ms) : SleepsRight env ms := by
  have hcycles := idleCycles_of_le hms hconv.le
  have heq := vApplicationSleep_of_maySleep h hidle
  refine ⟨fun pdsSleepCycles hsome => ?_, fun _ hlong => ?_⟩
  · rw [heq] at hsome
    split at hsome
    · cases hsome
    rename_i hlong
    split at hsome
    · rename_i hshort
      have hthreshold : time5MsIn32768Cycle.toInt ≤ (idleCycles ms).toInt := by omega
      obtain ⟨harg, hpos⟩ := toNat_sub_reduceSleepTime env hthreshold
      obtain rfl := Option.some.inj hsome
      exact ⟨hcycles, by omega, hpos⟩
    · rename_i hshort
      obtain ⟨harg, hpos⟩ := toNat_sub_reduceSleepTime env h.bleSleepDuration
      obtain rfl := Option.some.inj hsome
      refine ⟨hcycles, ?_, hpos⟩
      have hmin : env.bleSleepDuration.toInt ≤ exactCycles ms.toNat := by
        rcases hconv.shorter with hs | hs | hs
        · omega
        · rw [not_and] at hshort
          have := hshort hs
          omega
        · exact hs
      omega
  · rw [heq, if_neg (by omega)]
    split <;> rfl

theorem convertible_of_sleepsRight (hms : 1 ≤ ms.toNat) (hidle : maxIdle env ms = false)
    (h : MaySleep env) (hright : SleepsRight env ms) : SleepConvertible env ms := by
  have heq := vApplicationSleep_of_maySleep h hidle
  have hble := h.bleSleepDuration
  have hthreshold : time5MsIn32768Cycle.toInt = 164 := rfl
  have hle : ms.toNat ≤ maxExactMs := by
    by_contra hgt
    have hsmall := idleCycles_of_gt (Nat.lt_of_not_le hgt)
    have hlong : time5MsIn32768Cycle.toInt ≤ exactCycles ms.toNat := by
      unfold maxExactMs at hgt
      unfold exactCycles
      omega
    obtain ⟨pdsSleepCycles, hsome⟩ := Option.isSome_iff_exists.1 (hright.sleeps h hlong)
    have := (hright.exactly pdsSleepCycles hsome).1
    omega
  refine ⟨hle, ?_⟩
  have hcycles := idleCycles_of_le hms hle
  by_contra hno
  rw [not_or, not_or] at hno
  obtain ⟨hlong, hstatus, hmin⟩ := hno
  -- the longer duration is slept for
  rw [if_neg (by omega), if_neg (by simp [hstatus])] at heq
  have harg := (hright.exactly _ heq).2.1
  have := (toNat_sub_reduceSleepTime env hble).1
  omega

/-- The device sleeps as long as it should if and only if something other than the idle time
keeps it awake or the idle time converts. -/
theorem sleepsRight_iff (env : SleepEnv) (ms : UInt32) (hms : 2 ≤ ms.toNat)
    (hidle : maxIdle env ms = false) :
    SleepsRight env ms ↔ (MaySleep env → SleepConvertible env ms) := by
  constructor
  · intro hright h
    exact convertible_of_sleepsRight (by omega) hidle h hright
  · intro hconv
    by_cases h : MaySleep env
    · exact sleepsRight_of_convertible (by omega) hidle h (hconv h)
    · refine ⟨fun pdsSleepCycles hsome => ?_, fun hmay => absurd hmay h⟩
      exact absurd (maySleep_of_isSome (by rw [hsome]; rfl)) h

/-- Alone, with 4000 cycles until the Bluetooth controller has to wake up. -/
def quietEnv : SleepEnv where
  isConnected := false
  tickCount := 0
  eSleepStatus := .eStandardSleep
  sleepIsOngoing := false
  bleSleepDuration := 4000
  ioMode := 4
  contRead := 1
  rootClkXtal := true

theorem sleepsRight_second : SleepsRight quietEnv 1000 :=
  (sleepsRight_iff quietEnv 1000 (by decide) (by decide)).2 fun _ =>
    ⟨by decide, .inr (.inl rfl)⟩

/-- With 131074 ms to go the device does not sleep at all. -/
theorem stays_awake :
    ¬ ∀ (env : SleepEnv) (ms : UInt32), 2 ≤ ms.toNat → maxIdle env ms = false →
      SleepsRight env ms := by
  intro h
  have hright := h quietEnv 131074 (by decide) (by decide)
  have hsome := hright.sleeps ⟨rfl, by decide, rfl, by decide⟩ (by decide)
  exact absurd hsome (by decide)

end Train
