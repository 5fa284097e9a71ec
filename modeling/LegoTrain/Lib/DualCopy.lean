import Mathlib.Logic.Function.Basic
import Mathlib.Algebra.Order.Ring.Int

/-!
# Two-copy stores with ages

A record is kept in two copies so that it can be replaced without ever being without
a good copy.  Each copy is either invalid or carries an age and a value; the copy with
the larger age is the current one and an update writes the *other* copy, with the next
age.  An interrupted update leaves the written copy as it was, invalid, or complete.

* `Sound` : one copy is valid, and two valid copies have ages at most one apart;
* `current_put` : after any outcome of an update the current record is the old one or
  the new one, and the new one when the update was completed;
* `Sound.put` : every outcome keeps the store sound.
-/

namespace DualCopy

variable {V : Type*}

/-- The two copies: `none` is an invalid copy, otherwise its age and its value. -/
abbrev Store (V : Type*) := Bool → Option (ℕ × V)

/-- The copy in force: the only valid one, or the one with the larger age, the first
copy when the ages are equal. -/
def active (s : Store V) : Option Bool :=
  match s false, s true with
  | some x, some y => if y.1 ≤ x.1 then some false else some true
  | some _, none => some false
  | none, some _ => some true
  | none, none => none

/-- The record in force. -/
def current (s : Store V) : Option (ℕ × V) := (active s).bind s

/-- What an update left in the copy it writes. -/
inductive Outcome
  /-- the copy has not been touched -/
  | kept
  /-- the copy is not valid -/
  | torn
  /-- the copy holds the new record -/
  | done
  deriving DecidableEq, Repr

/-- Write the record `v` to copy `b`, with the given outcome. -/
def put (s : Store V) (b : Bool) (o : Outcome) (v : ℕ × V) : Store V :=
  match o with
  | .kept => s
  | .torn => Function.update s b none
  | .done => Function.update s b (some v)

/-- One copy is valid, and the ages of two valid copies are at most one apart. -/
structure Sound (s : Store V) : Prop where
  active_isSome : (active s).isSome
  close : ∀ x y, s false = some x → s true = some y → x.1 ≤ y.1 + 1 ∧ y.1 ≤ x.1 + 1

/-! ## The active copy -/

theorem active_eq_some_iff {s : Store V} {b : Bool} :
    active s = some b ↔ ∃ x, s b = some x ∧ ∀ y, s (!b) = some y →
      y.1 ≤ x.1 ∧ (b = true → y.1 < x.1) := by
  rcases hf : s false with _ | x <;> rcases ht : s true with _ | y <;>
    cases b <;> simp [active, hf, ht]
  exact Nat.le_of_lt

theorem current_of_active {s : Store V} {b : Bool} (h : active s = some b) : current s = s b := by
  rw [current, h, Option.bind_some]

/-- When one copy is out, the other decides. -/
theorem current_of_none {s : Store V} {b : Bool} (h : s b = none) : current s = s (!b) := by
  rcases ho : s (!b) with _ | x <;> cases b <;> simp_all [current, active]

/-- The current record is valid in the active copy. -/
theorem exists_of_active {s : Store V} {b : Bool} (h : active s = some b) :
    ∃ x, s b = some x ∧ current s = some x := by
  obtain ⟨x, hx, -⟩ := active_eq_some_iff.1 h
  exact ⟨x, hx, (current_of_active h).trans hx⟩

theorem active_isSome {s : Store V} {b : Bool} {x : ℕ × V} (h : s b = some x) :
    (active s).isSome := by
  rcases hf : s false with _ | x <;> rcases ht : s true with _ | y <;>
    cases b <;> simp_all [active]
  all_goals split <;> rfl

/-- The copy in force is at least as old as any valid copy. -/
theorem exists_active_of_some {s : Store V} {b : Bool} {x : ℕ × V} (h : s b = some x) :
    ∃ c y, active s = some c ∧ s c = some y ∧ x.1 ≤ y.1 := by
  obtain ⟨c, hc⟩ := Option.isSome_iff_exists.1 (active_isSome h)
  obtain ⟨y, hy, hmax⟩ := active_eq_some_iff.1 hc
  refine ⟨c, y, hc, hy, ?_⟩
  by_cases hcb : c = b
  · rw [hcb, h] at hy
    exact Nat.le_of_eq (congrArg Prod.fst (Option.some.inj hy))
  · have hother : (!c) = b := by cases b <;> cases c <;> simp_all
    exact (hmax x (by rw [hother, h])).1

@[simp] theorem put_self_ne {s : Store V} {b : Bool} {o : Outcome} {v : ℕ × V} :
    put s (!b) o v b = s b := by
  cases o <;> cases b <;> simp [put, Function.update]

theorem put_torn {s : Store V} {b : Bool} {v : ℕ × V} : put s b .torn v b = none := by
  simp [put]

theorem put_done {s : Store V} {b : Bool} {v : ℕ × V} : put s b .done v b = some v := by
  simp [put]

/-! ## Updates of the other copy -/

section Update

variable {s : Store V} {b : Bool} {x v : ℕ × V} (hx : s b = some x)
include hx

/-- An interrupted update leaves the active copy active. -/
theorem active_put_torn : active (put s (!b) .torn v) = some b := by
  refine active_eq_some_iff.2 ⟨x, by rw [put_self_ne, hx], fun y hy => ?_⟩
  rw [put_torn] at hy
  cases hy

/-- A completed update activates the copy it wrote. -/
theorem active_put_done (hv : x.1 < v.1) : active (put s (!b) .done v) = some (!b) := by
  refine active_eq_some_iff.2 ⟨v, put_done, fun y hy => ?_⟩
  rw [Bool.not_not, put_self_ne, hx] at hy
  cases hy
  exact ⟨by omega, fun _ => hv⟩

/-- A completed update with a smaller age is not seen. -/
theorem active_put_stale (hv : v.1 < x.1) : active (put s (!b) .done v) = some b := by
  refine active_eq_some_iff.2 ⟨x, by rw [put_self_ne, hx], fun y hy => ?_⟩
  rw [put_done] at hy
  cases hy
  exact ⟨Nat.le_of_lt hv, fun _ => hv⟩

/-- The record in force after an update: the new one exactly when it was completed. -/
theorem current_put (hb : active s = some b) (hv : x.1 < v.1) (o : Outcome) :
    current (put s (!b) o v) = if o = .done then some v else some x := by
  cases o with
  | kept => exact (current_of_active hb).trans hx
  | torn => rw [current_of_active (active_put_torn hx), put_self_ne, hx]; rfl
  | done => rw [current_of_active (active_put_done hx hv), put_done]; rfl

end Update

/-- Every outcome of an update with the next age keeps the store sound. -/
theorem Sound.put {s : Store V} {b : Bool} {x v : ℕ × V} (hs : Sound s)
    (hb : active s = some b) (hx : s b = some x) (hv : v.1 = x.1 + 1) (o : Outcome) :
    Sound (put s (!b) o v) := by
  cases o with
  | kept => exact hs
  | torn =>
    refine ⟨by rw [active_put_torn hx]; rfl, fun y z hy hz => ?_⟩
    cases b with
    | false =>
      rw [Bool.not_false, put_torn] at hz
      cases hz
    | true =>
      rw [Bool.not_true, put_torn] at hy
      cases hy
  | done =>
    refine ⟨by rw [active_put_done hx (by omega)]; rfl, fun y z hy hz => ?_⟩
    cases b with
    | false =>
      rw [put_self_ne, hx] at hy
      rw [Bool.not_false, put_done] at hz
      cases hy; cases hz
      omega
    | true =>
      rw [put_self_ne, hx] at hz
      rw [Bool.not_true, put_done] at hy
      cases hy; cases hz
      omega

end DualCopy
