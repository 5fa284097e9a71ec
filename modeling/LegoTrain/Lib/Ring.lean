import Mathlib.Algebra.Order.Ring.Int
import Mathlib.Data.List.Basic

/-!
# Windows on a ring

A ring is a memory whose first `size` cells are taken to follow each other around.

* `window` : some cells in a row, around the end of the ring if need be;
* `window_add`, `take_window`, `drop_window` : a window is cut into windows;
* `window_flat`, `window_around` : a window that does not reach the end, and one that does;
* `window_store` : storing behind a window makes it longer.
-/

namespace Ring

variable {α : Type*} {m m' : ℕ → α} {size start n k i j x : ℕ}

/-- The `n` cells from `start` on. -/
def window (m : ℕ → α) (size start n : ℕ) : List α :=
  (List.range n).map fun i => m ((start + i) % size)

@[simp] theorem length_window : (window m size start n).length = n := by
  simp [window]

@[simp] theorem window_zero : window m size start 0 = [] := rfl

theorem window_add :
    window m size start (n + k) = window m size start n ++ window m size (start + n) k := by
  simp only [window, List.range_add, List.map_append, List.map_map, Function.comp_def,
    Nat.add_assoc]

theorem window_mod : window m size (start % size) n = window m size start n := by
  simp only [window, Nat.mod_add_mod]

theorem take_window (h : k ≤ n) : (window m size start n).take k = window m size start k := by
  obtain ⟨l, rfl⟩ := Nat.exists_eq_add_of_le h
  rw [window_add, List.take_left' length_window]

theorem drop_window (h : k ≤ n) :
    (window m size start n).drop k = window m size (start + k) (n - k) := by
  obtain ⟨l, rfl⟩ := Nat.exists_eq_add_of_le h
  rw [window_add, List.drop_left' length_window, Nat.add_sub_cancel_left]

theorem window_congr (h : ∀ i < n, m' ((start + i) % size) = m ((start + i) % size)) :
    window m' size start n = window m size start n :=
  List.map_congr_left fun i hi => h i (List.mem_range.1 hi)

/-- A window that does not reach the end of the ring. -/
theorem window_flat (h : start + n ≤ size) :
    window m size start n = (List.range n).map fun i => m (start + i) := by
  refine List.map_congr_left fun i hi => ?_
  have hi := List.mem_range.1 hi
  rw [Nat.mod_eq_of_lt (by omega)]

/-- A window that reaches the end, and goes on from the beginning. -/
theorem window_around (hn : start + n = size) (hk : k ≤ size) :
    window m size start (n + k) =
      ((List.range n).map fun i => m (start + i)) ++ (List.range k).map m := by
  rw [window_add, window_flat (by omega), hn, ← window_mod, Nat.mod_self, window_flat (by omega)]
  simp only [Nat.zero_add]

/-- Two cells less than a ring apart are not the same. -/
theorem mod_ne (hij : i < j) (hj : j < i + size) : i % size ≠ j % size := by
  intro h
  obtain ⟨d, hd⟩ := Nat.exists_eq_add_of_lt hij
  have hdvd : size ∣ j - i := Nat.dvd_of_mod_eq_zero (Nat.sub_mod_eq_zero_of_mod_eq h.symm)
  have hle := Nat.le_of_dvd (by omega) hdvd
  omega

/-- What is stored behind a window does not touch it. -/
theorem window_store {bs : List α} (hroom : n + k ≤ size)
    (hold : ∀ x, (∀ i < k, x ≠ (start + n + i) % size) → m' x = m x)
    (hnew : window m' size (start + n) k = bs) :
    window m' size start (n + k) = window m size start n ++ bs := by
  rw [window_add, hnew, window_congr]
  intro i hi
  refine hold _ fun j _ => mod_ne ?_ ?_ <;> omega

end Ring
