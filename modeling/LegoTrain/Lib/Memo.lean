import Mathlib.Algebra.Order.Ring.Int
import Mathlib.Logic.Function.Basic

/-!
# Caches in front of a source

A source is asked for a key in a context, and a cache keeps the last answer for every key
but not the context it was given in.

* `newest` : the last answer for a key, in a log of the answers with the newest first;
* `Reflects` : the cache holds the value of the newest answer for every key;
* `Reflects.answer` : what is found in the cache was answered, and in which context.
-/

namespace Memo

variable {γ κ ν : Type*}

/-- One answer of the source. -/
structure Answer (γ κ ν : Type*) where
  /-- the context in which the source was asked -/
  ctx : γ
  key : κ
  value : ν
  deriving DecidableEq, Repr

variable [DecidableEq κ]

/-- The last answer for a key, the newest answer first in the log. -/
def newest (log : List (Answer γ κ ν)) (k : κ) : Option (Answer γ κ ν) :=
  log.find? fun a => a.key = k

@[simp] theorem newest_nil (k : κ) : newest ([] : List (Answer γ κ ν)) k = none := rfl

@[simp] theorem newest_cons_self (a : Answer γ κ ν) (log : List (Answer γ κ ν)) :
    newest (a :: log) a.key = some a := by
  simp [newest]

@[simp] theorem newest_cons_ne {a : Answer γ κ ν} {log : List (Answer γ κ ν)} {k : κ}
    (h : a.key ≠ k) : newest (a :: log) k = newest log k := by
  simp [newest, h]

theorem newest_mem {log : List (Answer γ κ ν)} {k : κ} {a : Answer γ κ ν}
    (h : newest log k = some a) : a ∈ log ∧ a.key = k := by
  refine ⟨List.mem_of_find?_eq_some h, ?_⟩
  simpa using List.find?_some h

/-- A key that was answered has a newest answer. -/
theorem newest_ne_none {log : List (Answer γ κ ν)} {k : κ} {a : Answer γ κ ν} (ha : a ∈ log)
    (hk : a.key = k) : newest log k ≠ none := by
  intro h
  exact List.find?_eq_none.1 h a ha (by simpa using hk)

/-- The cache holds the value of the newest answer for every key. -/
def Reflects (cache : κ → Option ν) (log : List (Answer γ κ ν)) : Prop :=
  ∀ k, cache k = (newest log k).map Answer.value

theorem reflects_nil : Reflects (fun _ => none) ([] : List (Answer γ κ ν)) := by
  intro k
  rfl

/-- Storing an answer under its key. -/
theorem Reflects.insert {cache : κ → Option ν} {log : List (Answer γ κ ν)}
    (h : Reflects cache log) (a : Answer γ κ ν) :
    Reflects (Function.update cache a.key (some a.value)) (a :: log) := by
  intro k
  by_cases hk : a.key = k
  · subst hk
    simp
  · rw [Function.update_of_ne (Ne.symm hk), newest_cons_ne hk, h k]

/-- What is found in the cache is the newest answer for its key. -/
theorem Reflects.answer {cache : κ → Option ν} {log : List (Answer γ κ ν)}
    (h : Reflects cache log) {k : κ} {v : ν} (hk : cache k = some v) :
    ∃ a, newest log k = some a ∧ a ∈ log ∧ a.key = k ∧ a.value = v := by
  rw [h k] at hk
  obtain ⟨a, ha, hv⟩ := Option.map_eq_some_iff.1 hk
  obtain ⟨hmem, hkey⟩ := newest_mem ha
  exact ⟨a, ha, hmem, hkey, hv⟩

/-- What is not found in the cache has not been answered. -/
theorem Reflects.newest_eq_none {cache : κ → Option ν} {log : List (Answer γ κ ν)}
    (h : Reflects cache log) {k : κ} (hk : cache k = none) : newest log k = none := by
  rw [h k] at hk
  exact Option.map_eq_none_iff.1 hk

end Memo
