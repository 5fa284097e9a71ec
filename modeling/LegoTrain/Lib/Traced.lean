import LegoTrain.Lib.Checked

/-!
# Programs that leave a trace

A program of `EStateM` that notes what it does beside its state.  What it computes is what the
program without the notes computes, so that a property of the trace is a property of that
program.

* `lift` : a program that notes nothing;
* `note` : a note;
* `Erases` : without its trace, a program is another one, with one rule for each construct;
* `post_lift`, `post_lift_trace`, `post_note` : the rules of `Checked.Post` for the
  two.
-/

namespace Traced

open Checked

variable {ε σ τ α β : Type}

/-- A program on `σ` that notes entries of `τ`. -/
abbrev TraceM (ε σ τ : Type) := EStateM ε (σ × List τ)

/-- A program that notes nothing. -/
def lift (x : EStateM ε σ α) : TraceM ε σ τ α := fun s =>
  match x s.1 with
  | .ok a s' => .ok a (s', s.2)
  | .error e s' => .error e (s', s.2)

/-- A note. -/
def note (t : τ) : TraceM ε σ τ Unit := modify fun s => (s.1, s.2 ++ [t])

/-- An outcome without its trace. -/
def forget : EStateM.Result ε (σ × List τ) α → EStateM.Result ε σ α
  | .ok a s => .ok a s.1
  | .error e s => .error e s.1

/-- Without its trace, `y` is `x`. -/
def Erases (y : TraceM ε σ τ α) (x : EStateM ε σ α) : Prop := ∀ s, forget (y s) = x s.1

/-! ## Erasure -/

section Erasure

variable {x : EStateM ε σ α} {y : TraceM ε σ τ α} {f : α → EStateM ε σ β}
  {g : α → TraceM ε σ τ β}

theorem erases_lift (x : EStateM ε σ α) : Erases (lift x : TraceM ε σ τ α) x := by
  intro s
  unfold lift
  cases x s.1 <;> rfl

theorem erases_pure (a : α) : Erases (pure a : TraceM ε σ τ α) (pure a) := fun _ => rfl

/-- A note is not seen. -/
theorem erases_note {t : τ} (h : Erases y x) : Erases (note t >>= fun _ => y) x := by
  intro s
  exact h (s.1, s.2 ++ [t])

theorem erases_bind (h : Erases y x) (hf : ∀ a, Erases (g a) (f a)) :
    Erases (y >>= g) (x >>= f) := by
  intro s
  have hs := h s
  show forget (EStateM.bind y g s) = EStateM.bind x f s.1
  unfold EStateM.bind
  rw [← hs]
  cases hy : y s with
  | ok a s' => exact hf a s'
  | error e s' => rfl

theorem erases_ite {c : Prop} [Decidable c] {x' : EStateM ε σ α} {y' : TraceM ε σ τ α}
    (h : c → Erases y x) (h' : ¬ c → Erases y' x') :
    Erases (if c then y else y') (if c then x else x') := by
  by_cases hc : c
  · rw [if_pos hc, if_pos hc]
    exact h hc
  · rw [if_neg hc, if_neg hc]
    exact h' hc

theorem erases_dropError {a : α} (h : Erases y x) : Erases (dropError a y) (dropError a x) := by
  intro s
  have hs := h s
  unfold dropError
  rw [← hs]
  cases hy : y s <;> rfl

end Erasure

/-! ## Postconditions -/

section Post

variable {s : σ × List τ} {Q : α → σ × List τ → Prop} {E : ε → σ × List τ → Prop}

theorem post_lift {x : EStateM ε σ α}
    (h : Post x s.1 (fun a s' => Q a (s', s.2)) fun e s' => E e (s', s.2)) :
    Post (lift x) s Q E := by
  cases hx : x s.1 with
  | ok a s' => exact post_ok (by rw [lift, hx]) (h.of_ok hx)
  | error e s' => exact post_error (by rw [lift, hx]) (h.of_error hx)

/-- A program that notes nothing leaves the trace alone. -/
theorem post_lift_trace {P : List τ → Prop} (x : EStateM ε σ α) (h : P s.2) :
    Post (lift x) s (fun _ t => P t.2) fun _ t => P t.2 := by
  apply post_lift
  cases hx : x s.1 with
  | ok a s' => exact post_ok hx h
  | error e s' => exact post_error hx h

theorem post_note {t : τ} {Q : Unit → σ × List τ → Prop} (h : Q () (s.1, s.2 ++ [t])) :
    Post (note t) s Q E :=
  post_modify h

end Post

end Traced
