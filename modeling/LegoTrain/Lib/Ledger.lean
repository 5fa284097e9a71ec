import Mathlib.Data.List.Nodup

/-!
# Ledgers of what is taken and given back

Things (blocks of memory, references to an object) are taken one after another and given back
by their number.

* `Ledger.Live` : taken and not given back;
* `Ledger.Sound` : nothing has been given back twice, or without having been taken;
* `Ledger.Settled` : everything has been given back.
-/

/-- What has been taken, the oldest first, and the numbers of what has been given back. -/
structure Ledger (α : Type*) where
  taken : List α
  released : List ℕ
  deriving DecidableEq, Repr

namespace Ledger

variable {α : Type*} {l : Ledger α} {i j : ℕ} {a b : α}

/-- The ledger before anything is taken. -/
def empty : Ledger α := ⟨[], []⟩

/-- The number of the next thing that is taken. -/
def next (l : Ledger α) : ℕ := l.taken.length

/-- Take `a`. -/
def take (l : Ledger α) (a : α) : Ledger α := { l with taken := l.taken ++ [a] }

/-- Give back what has the number `i`. -/
def release (l : Ledger α) (i : ℕ) : Ledger α := { l with released := i :: l.released }

@[simp] theorem released_take : (l.take a).released = l.released := rfl

@[simp] theorem taken_release : (l.release i).taken = l.taken := rfl

@[simp] theorem released_release : (l.release i).released = i :: l.released := rfl

@[simp] theorem next_take : (l.take a).next = l.next + 1 := by
  simp [next, take]

/-- Number `i` is an `a` that has not been given back. -/
def Live (l : Ledger α) (i : ℕ) (a : α) : Prop := l.taken[i]? = some a ∧ i ∉ l.released

/-- Only what was taken has been given back, and once at most. -/
structure Sound (l : Ledger α) : Prop where
  once : l.released.Nodup
  bound : ∀ i ∈ l.released, i < l.next

/-- Everything has been given back. -/
def Settled (l : Ledger α) : Prop := ∀ i < l.next, i ∈ l.released

theorem sound_empty : (empty : Ledger α).Sound := ⟨List.nodup_nil, by simp [empty]⟩

theorem Live.lt (h : l.Live i a) : i < l.next := (List.getElem?_eq_some_iff.1 h.1).1

theorem Sound.take (h : l.Sound) (a : α) : (l.take a).Sound := by
  refine ⟨h.once, ?_⟩
  intro i hi
  have hlt := h.bound i hi
  rw [next_take]
  omega

theorem Sound.release (h : l.Sound) (hi : l.Live i a) : (l.release i).Sound := by
  refine ⟨List.nodup_cons.2 ⟨hi.2, h.once⟩, ?_⟩
  intro j hj
  rcases List.mem_cons.1 hj with rfl | hj
  · exact hi.lt
  · exact h.bound j hj

/-- What is taken is live, since its number is new. -/
theorem Sound.live_take (h : l.Sound) (a : α) : (l.take a).Live l.next a := by
  refine ⟨by simp [Ledger.take, next], ?_⟩
  intro hmem
  exact Nat.lt_irrefl _ (h.bound _ hmem)

theorem Live.take (h : l.Live i a) (b : α) : (l.take b).Live i a := by
  refine ⟨?_, h.2⟩
  rw [Ledger.take, List.getElem?_append_left h.lt]
  exact h.1

theorem Live.release (h : l.Live i a) (hne : i ≠ j) : (l.release j).Live i a := by
  refine ⟨h.1, ?_⟩
  rw [released_release, List.mem_cons, not_or]
  exact ⟨hne, h.2⟩

/-! ## Giving back by the thing -/

/-- Number `r` is an `a`, and all the others have been given back. -/
def OnlyLive (l : Ledger α) (r : ℕ) (a : α) : Prop :=
  l.Live r a ∧ ∀ i < l.next, i ≠ r → i ∈ l.released

theorem Settled.onlyLive_take (h : l.Settled) (hs : l.Sound) (a : α) :
    (l.take a).OnlyLive l.next a := by
  refine ⟨hs.live_take a, ?_⟩
  intro i hi hne
  rw [next_take] at hi
  exact h i (by omega)

theorem OnlyLive.settled_release (h : l.OnlyLive i a) : (l.release i).Settled := by
  intro j hj
  rw [released_release, List.mem_cons]
  by_cases heq : j = i
  · exact .inl heq
  · exact .inr (h.2 j hj heq)

variable [DecidableEq α]

/-- The number that stands for an `a`: that of the last one that is live, or of the last one. -/
def numberOf (l : Ledger α) (a : α) : Option ℕ :=
  let numbers := (List.range l.next).reverse.filter fun i => l.taken[i]? = some a
  (numbers.find? fun i => i ∉ l.released).or numbers.head?

/-- Give back an `a`, if one has ever been taken. -/
def releaseOf (l : Ledger α) (a : α) : Ledger α :=
  match l.numberOf a with
  | some i => l.release i
  | none => l

theorem OnlyLive.numberOf_eq (h : l.OnlyLive i a) : l.numberOf a = some i := by
  have hmem : i ∈ (List.range l.next).reverse.filter fun i => l.taken[i]? = some a := by
    simpa using ⟨h.1.lt, h.1.1⟩
  rw [numberOf]
  cases hfind : ((List.range l.next).reverse.filter fun i => l.taken[i]? = some a).find?
      fun i => i ∉ l.released with
  | none => exact absurd h.1.2 (by simpa using List.find?_eq_none.1 hfind i hmem)
  | some j =>
    have hj : j ∉ l.released := by simpa using List.find?_some hfind
    have hlt : j < l.next := by
      have hjmem := List.mem_of_find?_eq_some hfind
      simp only [List.mem_filter, List.mem_reverse, List.mem_range] at hjmem
      exact hjmem.1
    have hji : j = i := by
      by_contra hne
      exact hj (h.2 j hlt hne)
    rw [hji]
    rfl

/-- Giving back the only thing that is out. -/
theorem OnlyLive.releaseOf_eq (h : l.OnlyLive i a) : l.releaseOf a = l.release i := by
  rw [releaseOf, h.numberOf_eq]

end Ledger
