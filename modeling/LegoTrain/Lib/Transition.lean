import Mathlib.Algebra.Order.Ring.Int

/-!
# Runs of a transition function

A system is a function `step : σ → ε → Option σ`: the event `ε` names what happens
next (a choice of the environment or of the scheduler) and `none` means that it
cannot happen in that state.

* `run` : the state after a list of events, if they can all happen;
* `Along G` : the events of a run all meet a condition on the state they occur in;
* `run_inv` : the invariant rule, an invariant kept by every step that meets the
  condition holds after every run along it;
* `exists_end_of_measure` : the progress rule, for a run that repeats one event;
* `answers_eq` : the simulation rule for two machines that answer each call.
-/

namespace Transition

variable {σ ε : Type*}

/-- The state after the events `es`, when each of them can happen in its turn. -/
def run (step : σ → ε → Option σ) : σ → List ε → Option σ
  | s, [] => some s
  | s, e :: es => (step s e).bind fun s' => run step s' es

/-- Each event of `es` meets `G` in the state it occurs in. -/
def Along (step : σ → ε → Option σ) (G : σ → ε → Prop) : σ → List ε → Prop
  | _, [] => True
  | s, e :: es => G s e ∧ ∀ s', step s e = some s' → Along step G s' es

variable {step : σ → ε → Option σ} {G : σ → ε → Prop}

@[simp] theorem run_nil (s : σ) : run step s [] = some s := rfl

theorem run_cons_eq_some {s t : σ} {e : ε} {es : List ε} :
    run step s (e :: es) = some t ↔ ∃ s', step s e = some s' ∧ run step s' es = some t :=
  Option.bind_eq_some_iff

theorem run_append (s : σ) (es fs : List ε) :
    run step s (es ++ fs) = (run step s es).bind fun s' => run step s' fs := by
  induction es generalizing s with
  | nil => rfl
  | cons e es ih =>
    simp only [List.cons_append, run, Option.bind_assoc]
    cases step s e with
    | none => rfl
    | some s' => exact ih s'

/-- A run that goes on where another one ends. -/
theorem run_trans {s t u : σ} {es fs : List ε} (h : run step s es = some t)
    (h' : run step t fs = some u) : run step s (es ++ fs) = some u := by
  rw [run_append, h, Option.bind_some, h']

/-- A run that ends with one more event. -/
theorem run_concat_eq_some {s t : σ} {e : ε} {es : List ε} :
    run step s (es ++ [e]) = some t ↔ ∃ s', run step s es = some s' ∧ step s' e = some t := by
  simp only [run_append, Option.bind_eq_some_iff, run_cons_eq_some, run_nil, Option.some.injEq]
  constructor
  · rintro ⟨s', hs, _, ht, rfl⟩
    exact ⟨s', hs, ht⟩
  · rintro ⟨s', hs, ht⟩
    exact ⟨s', hs, t, ht, rfl⟩

theorem along_append {s : σ} {es fs : List ε} :
    Along step G s (es ++ fs) ↔
      Along step G s es ∧ ∀ s', run step s es = some s' → Along step G s' fs := by
  induction es generalizing s with
  | nil => simp [Along]
  | cons e es ih =>
    simp only [List.cons_append, Along, ih, run_cons_eq_some]
    constructor
    · rintro ⟨hG, h⟩
      refine ⟨⟨hG, fun s' hs' => (h s' hs').1⟩, ?_⟩
      rintro t ⟨s', hs', ht⟩
      exact (h s' hs').2 t ht
    · rintro ⟨⟨hG, h⟩, h'⟩
      exact ⟨hG, fun s' hs' => ⟨h s' hs', fun t ht => h' t ⟨s', hs', ht⟩⟩⟩

theorem Along.mono {G' : σ → ε → Prop} (hG : ∀ s e, G s e → G' s e) {s : σ} {es : List ε}
    (h : Along step G s es) : Along step G' s es := by
  induction es generalizing s with
  | nil => trivial
  | cons e es ih => exact ⟨hG s e h.1, fun s' hs' => ih (h.2 s' hs')⟩

theorem Along.and {G' : σ → ε → Prop} {s : σ} {es : List ε} (h : Along step G s es)
    (h' : Along step G' s es) : Along step (fun s e => G s e ∧ G' s e) s es := by
  induction es generalizing s with
  | nil => trivial
  | cons e es ih => exact ⟨⟨h.1, h'.1⟩, fun s' hs' => ih (h.2 s' hs') (h'.2 s' hs')⟩

/-- A condition that the events meet in every state. -/
theorem along_of_forall {s : σ} {es : List ε} (h : ∀ e ∈ es, ∀ s, G s e) : Along step G s es := by
  induction es generalizing s with
  | nil => trivial
  | cons e es ih =>
    exact ⟨h e List.mem_cons_self s, fun s' _ => ih fun e' he' => h e' (List.mem_cons_of_mem _ he')⟩

/-- A decision procedure for `Along`, from one for the condition. -/
def alongb (step : σ → ε → Option σ) (g : σ → ε → Bool) : σ → List ε → Bool
  | _, [] => true
  | s, e :: es => g s e && (step s e).all fun s' => alongb step g s' es

/-- The checker is sound. -/
theorem alongb_sound {g : σ → ε → Bool} (hg : ∀ s e, g s e = true → G s e) {s : σ} {es : List ε}
    (h : alongb step g s es = true) : Along step G s es := by
  induction es generalizing s with
  | nil => trivial
  | cons e es ih =>
    rw [alongb, Bool.and_eq_true] at h
    refine ⟨hg s e h.1, fun s' hs' => ih ?_⟩
    rw [hs'] at h
    exact h.2

/-- **The invariant rule.**  What every step that meets `G` keeps, every run along `G`
keeps. -/
theorem run_inv {P : σ → Prop} (hstep : ∀ s e s', P s → G s e → step s e = some s' → P s')
    {s t : σ} {es : List ε} (hs : P s) (hG : Along step G s es) (hrun : run step s es = some t) :
    P t := by
  induction es generalizing s with
  | nil =>
    cases hrun
    exact hs
  | cons e es ih =>
    obtain ⟨s', hs', hrun⟩ := run_cons_eq_some.1 hrun
    exact ih (hstep s e s' hs hG.1 hs') (hG.2 s' hs') hrun

/-- The invariant rule without a condition on the events. -/
theorem run_inv' {P : σ → Prop} (hstep : ∀ s e s', P s → step s e = some s' → P s')
    {s t : σ} {es : List ε} (hs : P s) (hrun : run step s es = some t) : P t := by
  induction es generalizing s with
  | nil =>
    cases hrun
    exact hs
  | cons e es ih =>
    obtain ⟨s', hs', hrun⟩ := run_cons_eq_some.1 hrun
    exact ih (hstep s e s' hs hs') hrun

/-! ## Runs that repeat one event -/

/-- **The progress rule.**  When every step along `G` ends the run or decreases a measure, the
run comes to an end. -/
theorem exists_end_of_measure {e : ε} {Inv done : σ → Prop} {μ : σ → ℕ}
    (hstep : ∀ s, Inv s → ¬ done s → G s e →
      ∃ s', step s e = some s' ∧ (done s' ∨ Inv s' ∧ μ s' < μ s))
    {s : σ} (hs : Inv s) (hG : ∀ n, Along step G s (List.replicate n e)) :
    ∃ n t, run step s (List.replicate n e) = some t ∧ done t := by
  induction hn : μ s using Nat.strongRecOn generalizing s with
  | ind m ih =>
    by_cases hdone : done s
    · exact ⟨0, s, rfl, hdone⟩
    obtain ⟨s', hs', hcases⟩ := hstep s hs hdone (hG 1).1
    rcases hcases with hdone' | ⟨hinv, hlt⟩
    · exact ⟨1, s', run_cons_eq_some.2 ⟨s', hs', rfl⟩, hdone'⟩
    · obtain ⟨n, t, ht, hdone'⟩ := ih (μ s') (hn ▸ hlt) hinv (fun n => (hG (n + 1)).2 s' hs') rfl
      exact ⟨n + 1, t, run_cons_eq_some.2 ⟨s', hs', ht⟩, hdone'⟩

/-- A run that an invariant keeps going never ends. -/
theorem run_replicate_of_inv {e : ε} {Inv : σ → Prop}
    (hstep : ∀ s, Inv s → ∃ s', step s e = some s' ∧ Inv s') {s : σ} (hs : Inv s) (n : ℕ) :
    ∃ t, run step s (List.replicate n e) = some t ∧ Inv t := by
  induction n generalizing s with
  | zero => exact ⟨s, rfl, hs⟩
  | succ n ih =>
    obtain ⟨s', hs', hinv⟩ := hstep s hs
    obtain ⟨t, ht, hinv'⟩ := ih hinv
    exact ⟨t, run_cons_eq_some.2 ⟨s', hs', ht⟩, hinv'⟩

/-- A run that stops after two steps meets a condition as soon as its three states do. -/
theorem along_replicate_two {e : ε} {s : σ} (hs : G s e)
    (h : ∀ s', step s e = some s' → G s' e ∧
      ∀ t, step s' e = some t → G t e ∧ step t e = none) (n : ℕ) :
    Along step G s (List.replicate n e) := by
  rcases n with _ | _ | _ | n
  · trivial
  · exact ⟨hs, fun _ _ => trivial⟩
  · exact ⟨hs, fun s' hs' => ⟨(h s' hs').1, fun _ _ => trivial⟩⟩
  · refine ⟨hs, fun s' hs' => ⟨(h s' hs').1, fun t ht => ⟨((h s' hs').2 t ht).1, fun u hu => ?_⟩⟩⟩
    rw [((h s' hs').2 t ht).2] at hu
    cases hu

/-! ## Machines that answer -/

section Answers

variable {τ ρ : Type*}

/-- The answers to the calls `es`, one after the other. -/
def answers (call : σ → ε → σ × ρ) : σ → List ε → List ρ
  | _, [] => []
  | s, e :: es => (call s e).2 :: answers call (call s e).1 es

/-- Two machines in related states answer alike, when each call keeps them so. -/
theorem answers_eq {call : σ → ε → σ × ρ} {call' : τ → ε → τ × ρ} {R : σ → τ → Prop}
    (hcall : ∀ s t e, R s t →
      R (call s e).1 (call' t e).1 ∧ (call s e).2 = (call' t e).2)
    {s : σ} {t : τ} (h : R s t) (es : List ε) : answers call s es = answers call' t es := by
  induction es generalizing s t with
  | nil => rfl
  | cons e es ih =>
    obtain ⟨hnext, hsame⟩ := hcall s t e h
    show (call s e).2 :: _ = (call' t e).2 :: _
    rw [hsame, ih hnext]

end Answers

end Transition
