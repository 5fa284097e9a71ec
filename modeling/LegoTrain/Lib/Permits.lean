import Mathlib.Data.Nat.Notation

/-!
# A semaphore whose permits stand for events

A counting semaphore that is released once for each event.  Whoever takes a permit learns that
an event has happened, but not which one: the permits of the events that are not meant any more
are `stale`.  The stale permits are taken first.

* `release`, `releaseStale`, `take`, `drain`, `age` : the operations, `age` makes all permits
  stale;
* `total` : the count of the semaphore;
* `fresh_pos` : who finds a permit, and none is stale, finds a fresh one.
-/

/-- The permits of a semaphore. -/
structure Permits where
  stale : ℕ
  fresh : ℕ
  deriving DecidableEq, Repr

namespace Permits

/-- The count of the semaphore. -/
def total (p : Permits) : ℕ := p.stale + p.fresh

def release (p : Permits) : Permits := { p with fresh := p.fresh + 1 }

def releaseStale (p : Permits) : Permits := { p with stale := p.stale + 1 }

/-- One permit is taken, if there is one. -/
def take (p : Permits) : Permits :=
  if 0 < p.stale then { p with stale := p.stale - 1 } else { p with fresh := p.fresh - 1 }

def drain : Permits := ⟨0, 0⟩

/-- All permits become stale. -/
def age (p : Permits) : Permits := ⟨p.total, 0⟩

variable (p : Permits)

@[simp] theorem total_release : p.release.total = p.total + 1 := rfl

@[simp] theorem total_releaseStale : p.releaseStale.total = p.total + 1 := by
  simp only [total, releaseStale]
  omega

@[simp] theorem total_take : p.take.total = p.total - 1 := by
  unfold take total
  split
  · simp only
    omega
  · simp only
    omega

@[simp] theorem total_drain : drain.total = 0 := rfl

@[simp] theorem total_age : p.age.total = p.total := rfl

@[simp] theorem fresh_release : p.release.fresh = p.fresh + 1 := rfl

@[simp] theorem fresh_releaseStale : p.releaseStale.fresh = p.fresh := rfl

@[simp] theorem fresh_drain : drain.fresh = 0 := rfl

@[simp] theorem fresh_age : p.age.fresh = 0 := rfl

theorem fresh_take_le : p.take.fresh ≤ p.fresh := by
  unfold take
  split
  · exact Nat.le_refl _
  · exact Nat.sub_le _ _

variable {p}

/-- A permit that is there is fresh when none is stale. -/
theorem fresh_pos (hstale : p.stale = 0) (hpos : 0 < p.total) : 0 < p.fresh := by
  rw [total, hstale, Nat.zero_add] at hpos
  exact hpos

end Permits
