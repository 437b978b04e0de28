import Mathlib

/-!
# Machines that answer, and simulation

A machine takes an operation in a state, answers it and goes to a new state. `answers` and `after`
are what a sequence of operations gives and where it leads.

* `simulation`: when two machines give the same answer in states related by `R` and stay related,
  every sequence of operations gives the same answers and ends in related states.
-/

namespace KS3.Machine

variable {σ τ ο α : Type*}

/-- The answers to a sequence of operations. -/
def answers (step : σ → ο → α × σ) : σ → List ο → List α
  | _, [] => []
  | s, op :: ops => (step s op).1 :: answers step (step s op).2 ops

/-- The state after a sequence of operations. -/
def after (step : σ → ο → α × σ) : σ → List ο → σ
  | s, [] => s
  | s, op :: ops => after step (step s op).2 ops

/-- **Simulation**: answers that agree in related states agree over whole sequences of operations,
and the states stay related. -/
theorem simulation {step : σ → ο → α × σ} {step' : τ → ο → α × τ} {R : σ → τ → Prop}
    (hstep : ∀ s t op, R s t → (step s op).1 = (step' t op).1 ∧ R (step s op).2 (step' t op).2)
    {s : σ} {t : τ} (h : R s t) (ops : List ο) :
    answers step s ops = answers step' t ops ∧ R (after step s ops) (after step' t ops) := by
  induction ops generalizing s t with
  | nil => exact ⟨rfl, h⟩
  | cons op ops ih =>
    obtain ⟨hanswer, hnext⟩ := hstep s t op h
    obtain ⟨hanswers, hafter⟩ := ih hnext
    exact ⟨by rw [answers, answers, hanswer, hanswers], hafter⟩

end KS3.Machine
