import Mathlib.Algebra.Order.Ring.Int

/-!
# Programs with error codes

A function that works on a shared state and returns an error code is a program of
`EStateM`: what it has written before an error stays written.

* `failIf` : a check that ends the program with its code;
* `dropError` : a call whose error code the caller drops;
* `Post` : every outcome of a program meets its postcondition, with one rule for each
  construct, so that the postcondition of a function is put together from those of the
  functions it calls.
-/

namespace Checked

variable {ε σ α β : Type}

/-- `if (c) return e;` -/
def failIf (c : Prop) [Decidable c] (e : ε) : EStateM ε σ Unit := if c then throw e else pure ()

/-- A call whose error code is dropped; `a` is its result then. -/
def dropError (a : α) (x : EStateM ε σ α) : EStateM ε σ α := fun s =>
  match x s with
  | .ok b s' => .ok b s'
  | .error _ s' => .ok a s'

/-- The state that a run leaves behind. -/
def finalState (r : EStateM.Result ε σ α) : σ :=
  match r with
  | .ok _ s => s
  | .error _ s => s

/-- From `s`, the program `x` succeeds with `Q` or ends with an error and `E`.  It is
irreducible: the rules below take a program apart, not its evaluation. -/
@[irreducible] def Post (x : EStateM ε σ α) (s : σ) (Q : α → σ → Prop) (E : ε → σ → Prop) : Prop :=
  match x s with
  | .ok a s' => Q a s'
  | .error e s' => E e s'

variable {x : EStateM ε σ α} {f : α → EStateM ε σ β} {s : σ}
  {Q : α → σ → Prop} {E : ε → σ → Prop}

theorem post_ok {a : α} {s' : σ} (h : x s = .ok a s') (hQ : Q a s') : Post x s Q E := by
  rw [Post, h]
  exact hQ

theorem post_error {e : ε} {s' : σ} (h : x s = .error e s') (hE : E e s') : Post x s Q E := by
  rw [Post, h]
  exact hE

theorem Post.of_ok (h : Post x s Q E) {a : α} {s' : σ} (hx : x s = .ok a s') : Q a s' := by
  rw [Post, hx] at h
  exact h

theorem Post.of_error (h : Post x s Q E) {e : ε} {s' : σ} (hx : x s = .error e s') : E e s' := by
  rw [Post, hx] at h
  exact h

theorem post_pure {a : α} (h : Q a s) : Post (pure a) s Q E := by
  unfold Post
  exact h

theorem post_throw {e : ε} (h : E e s) : Post (throw e) s Q E := by
  unfold Post
  exact h

theorem post_modify {g : σ → σ} {Q : PUnit → σ → Prop} (h : Q ⟨⟩ (g s)) :
    Post (modify g) s Q E := by
  unfold Post
  exact h

theorem post_get {Q : σ → σ → Prop} (h : Q s s) : Post get s Q E := by
  unfold Post
  exact h

/-- The rule of sequencing. -/
theorem post_bind {Q : β → σ → Prop} (h : Post x s (fun a s' => Post (f a) s' Q E) E) :
    Post (x >>= f) s Q E := by
  have hbind : (x >>= f) s = match x s with
      | .ok a s' => f a s'
      | .error e s' => .error e s' := rfl
  unfold Post at *
  rw [hbind]
  cases hx : x s with
  | ok a s' =>
    rw [hx] at h
    exact h
  | error e s' =>
    rw [hx] at h
    exact h

theorem post_failIf {c : Prop} [Decidable c] {e : ε} {Q : Unit → σ → Prop}
    (he : c → E e s) (hq : ¬ c → Q () s) : Post (failIf c e) s Q E := by
  unfold failIf
  split
  · rename_i hc
    exact post_throw (he hc)
  · rename_i hc
    exact post_pure (hq hc)

/-- A dropped error is no error. -/
theorem post_dropError {a : α} (h : Post x s Q (fun _ s' => Q a s')) :
    Post (dropError a x) s Q E := by
  unfold Post dropError at *
  cases hx : x s with
  | ok b s' =>
    rw [hx] at h
    exact h
  | error e s' =>
    rw [hx] at h
    exact h

/-- The rule of consequence. -/
theorem Post.mono {Q' : α → σ → Prop} {E' : ε → σ → Prop} (h : Post x s Q E)
    (hQ : ∀ a s', Q a s' → Q' a s') (hE : ∀ e s', E e s' → E' e s') : Post x s Q' E' := by
  unfold Post at *
  cases hx : x s with
  | ok a s' =>
    rw [hx] at h
    exact hQ a s' h
  | error e s' =>
    rw [hx] at h
    exact hE e s' h

/-- What both outcomes have, the final state has. -/
theorem Post.finalState {P : σ → Prop} (h : Post x s (fun _ s' => P s') (fun _ s' => P s')) :
    P (finalState (x s)) := by
  unfold Post at h
  unfold Checked.finalState
  cases hx : x s with
  | ok a s' =>
    rw [hx] at h
    exact h
  | error e s' =>
    rw [hx] at h
    exact h

end Checked
