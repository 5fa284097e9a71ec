import Mathlib.Data.Nat.Notation
import Mathlib.Tactic.Common

/-!
# Loops that wait with a budget

Two shapes of a loop that waits for an event until its budget is used up.  `waitLoop` pays
for a wait before it waits and leaves the loop when the wait succeeds; `pollLoop` looks
first and waits then.  Both hand back what is left of the budget.

* `takesAt` : which wait is the first to succeed;
* `waitLoop_of_takesAt` : what is left when the wait number `k` succeeds, which is nothing
  for the last one;
* `pollLoop_of_ready`, `pollLoop_of_never` : the same for `pollLoop`.
-/

namespace WaitLoop

variable {σ : Type*}

/-! ## Paying before the wait -/

section Wait

variable (step : ℕ) (wait : ℕ → σ → Bool × σ)

/-- `while (timeout) { timeout -= step; if (wait()) break; }` with a budget of `n` waits,
the next of which has number `i`. -/
def waitLoop : ℕ → ℕ → σ → ℕ × σ
  | 0, _, s => (0, s)
  | n + 1, i, s =>
    if (wait i s).1 then (step * n, (wait i s).2) else waitLoop n (i + 1) (wait i s).2

/-- The state behind the wait that is `k` waits away, if that is the first to succeed. -/
def takesAt : ℕ → ℕ → σ → Option σ
  | 0, i, s => if (wait i s).1 then some (wait i s).2 else none
  | k + 1, i, s => if (wait i s).1 then none else takesAt k (i + 1) (wait i s).2

variable {step wait} {n k i : ℕ} {s s' : σ}

/-- A wait that succeeds leaves the budget of the waits behind it. -/
theorem waitLoop_of_takesAt (hk : takesAt wait k i s = some s') (hn : k < n) :
    waitLoop step wait n i s = (step * (n - 1 - k), s') := by
  induction k generalizing n i s with
  | zero =>
    obtain ⟨n, rfl⟩ := Nat.exists_eq_succ_of_ne_zero (Nat.ne_of_gt hn)
    unfold takesAt at hk
    split at hk
    · rename_i htaken
      rw [waitLoop, if_pos htaken, Option.some.inj hk]
      simp
    · simp at hk
  | succ k ih =>
    obtain ⟨n, rfl⟩ := Nat.exists_eq_succ_of_ne_zero (Nat.ne_of_gt (Nat.zero_lt_of_lt hn))
    unfold takesAt at hk
    split at hk
    · simp at hk
    · rename_i hmissed
      rw [waitLoop, if_neg hmissed, ih hk (Nat.lt_of_succ_lt_succ hn)]
      congr 2
      omega

end Wait

/-! ## Looking before the wait -/

section Poll

variable (ready : σ → Bool) (delay : ℕ → σ → σ)

/-- `while (!ready && timeout > 0) { timeout -= 1; delay(1) }`, the next delay of which has
number `i`. -/
def pollLoop : ℕ → ℕ → σ → ℕ × σ
  | 0, _, s => (0, s)
  | n + 1, i, s => if ready s then (n + 1, s) else pollLoop n (i + 1) (delay i s)

/-- The state behind the first `k` delays from number `i` on. -/
def delayed : ℕ → ℕ → σ → σ
  | 0, _, s => s
  | k + 1, i, s => delayed k (i + 1) (delay i s)

variable {ready delay} {n i : ℕ} {s : σ}

/-- When the state is ready within the budget, the loop stops there with budget left. -/
theorem pollLoop_of_ready {k : ℕ} (hk : k < n) (hready : ready (delayed delay k i s) = true) :
    0 < (pollLoop ready delay n i s).1 ∧ ready (pollLoop ready delay n i s).2 = true := by
  induction n generalizing k i s with
  | zero => exact absurd hk (Nat.not_lt_zero k)
  | succ n ih =>
    rw [pollLoop]
    split
    · rename_i hnow
      exact ⟨Nat.succ_pos n, hnow⟩
    · rename_i hnot
      cases k with
      | zero => exact absurd hready hnot
      | succ k => exact ih (Nat.lt_of_succ_lt_succ hk) hready

/-- When it never is, the loop uses the budget up. -/
theorem pollLoop_of_never (h : ∀ k < n, ready (delayed delay k i s) = false) :
    pollLoop ready delay n i s = (0, delayed delay n i s) := by
  induction n generalizing i s with
  | zero => rfl
  | succ n ih =>
    have hnow : ready s = false := h 0 (Nat.succ_pos n)
    rw [pollLoop, if_neg (by simp [hnow])]
    exact ih fun k hk => h (k + 1) (Nat.succ_lt_succ hk)

end Poll

end WaitLoop
