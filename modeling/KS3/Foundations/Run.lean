import Mathlib

/-!
# Runs of a deterministic machine

A machine is a step function `step : σ → ε → σ` on states `σ` and events `ε`; a run is a list of
events. `final` is the state a run ends in and `steps` the list of its steps, each event with the
state it meets. The rules below are how every statement about whole runs is proved:

* `invariant_final`, `invariant_steps`: a property kept by each admissible step holds at the end,
  and at every step, of a run of admissible steps;
* `invariant_trail`, `invariant_history`: the same for a property of the state and of the steps, or
  the events, so far;
* `countdown_final`: a bound that every admissible step lowers falls with the length of the run;
* `exists_of_cost`: if every admissible step that does not reach the goal takes its cost off a
  budget that is never zero, a run that costs as much reaches it;
* `always_final`, `always_steps`, `always_trail`: the same where every step is admissible;
* `final_iff`, `final_iff_of_invariant`: a property that a step leads to exactly from itself by an
  admissible step holds at the end of a run exactly when all its steps are admissible;
* `forall_prefix_iff`: a property that a step leads to exactly when it is admissible holds after
  every prefix of a run exactly when all its steps are admissible;
* `forall_steps_iff`: the same for a property of the steps;
* `steps_map`: the runs of a machine that is seen through a function of its states;
* `trace_eq_append_cons`: a mark in the trace of a run is left by one of its steps, and what
  follows it is the trace of the rest of the run.
-/

namespace KS3.Run

variable {σ ε : Type*} (step : σ → ε → σ)

/-- The state a run ends in. -/
def final (s : σ) (es : List ε) : σ := es.foldl step s

/-- The steps of a run: each event with the state it meets. -/
def steps (s : σ) : List ε → List (σ × ε)
  | [] => []
  | e :: es => (s, e) :: steps (step s e) es

@[simp] theorem final_nil (s : σ) : final step s [] = s := rfl

@[simp] theorem final_cons (s : σ) (e : ε) (es : List ε) :
    final step s (e :: es) = final step (step s e) es := rfl

theorem final_append (s : σ) (es fs : List ε) :
    final step s (es ++ fs) = final step (final step s es) fs := List.foldl_append

@[simp] theorem steps_nil (s : σ) : steps step s [] = [] := rfl

@[simp] theorem steps_cons (s : σ) (e : ε) (es : List ε) :
    steps step s (e :: es) = (s, e) :: steps step (step s e) es := rfl

theorem steps_append (s : σ) (es fs : List ε) :
    steps step s (es ++ fs) = steps step s es ++ steps step (final step s es) fs := by
  induction es generalizing s with
  | nil => rfl
  | cons e es ih => simp only [List.cons_append, steps_cons, final_cons, ih]

/-- An event in the middle of a run is a step of it. -/
theorem mem_steps_append_cons (s : σ) (es : List ε) (e : ε) (fs : List ε) :
    (final step s es, e) ∈ steps step s (es ++ e :: fs) := by
  simp [steps_append]

variable {step}

theorem map_snd_steps (s : σ) (es : List ε) : (steps step s es).map Prod.snd = es := by
  induction es generalizing s with
  | nil => rfl
  | cons e es ih => rw [steps_cons, List.map_cons, ih]

/-- The event of a step is an event of the run. -/
theorem mem_of_mem_steps {s : σ} {es : List ε} {m : σ × ε} (h : m ∈ steps step s es) :
    m.2 ∈ es := by
  have hmap := List.mem_map_of_mem (f := Prod.snd) h
  rwa [map_snd_steps] at hmap

/-- A machine seen through `f` is the machine `step'`: so are its runs. -/
theorem steps_map {τ : Type*} {step' : τ → ε → τ} (f : σ → τ)
    (h : ∀ s e, f (step s e) = step' (f s) e) (s : σ) (es : List ε) :
    steps step' (f s) es = (steps step s es).map (Prod.map f id) := by
  induction es generalizing s with
  | nil => rfl
  | cons e es ih =>
    rw [steps_cons, steps_cons, List.map_cons, ← h, ih]
    rfl

/-! ## Traces -/

section Trace

variable {μ : Type*} (mark : σ × ε → Option μ)

/-- The trace of a run: the marks its steps leave. -/
def trace (step : σ → ε → σ) (s : σ) (es : List ε) : List μ := (steps step s es).filterMap mark

@[simp] theorem trace_nil (s : σ) : trace mark step s [] = [] := rfl

theorem trace_cons (s : σ) (e : ε) (es : List ε) :
    trace mark step s (e :: es) = (mark (s, e)).toList ++ trace mark step (step s e) es := by
  rw [trace, steps_cons, List.filterMap_cons]
  cases mark (s, e) <;> rfl

variable {mark}

/-- A mark in a trace is left by one step; what follows it is left by the rest of the run. -/
theorem trace_eq_append_cons {s : σ} {es : List ε} {pre post : List μ} {x : μ}
    (h : trace mark step s es = pre ++ x :: post) :
    ∃ es₁ e es₂, es = es₁ ++ e :: es₂ ∧ mark (final step s es₁, e) = some x ∧
      trace mark step (step (final step s es₁) e) es₂ = post := by
  induction es generalizing s pre with
  | nil => simp at h
  | cons e es ih =>
    rw [trace_cons] at h
    rcases hm : mark (s, e) with _ | y
    · rw [hm, Option.toList_none, List.nil_append] at h
      obtain ⟨es₁, e', es₂, rfl, hmark, hpost⟩ := ih h
      exact ⟨e :: es₁, e', es₂, rfl, hmark, hpost⟩
    · rw [hm, Option.toList_some, List.singleton_append] at h
      rcases pre with _ | ⟨y', pre⟩
      · obtain ⟨rfl, hpost⟩ := List.cons.inj h
        exact ⟨[], e, es, rfl, hm, hpost⟩
      · obtain ⟨es₁, e', es₂, rfl, hmark, hpost⟩ := ih (List.cons.inj h).2
        exact ⟨e :: es₁, e', es₂, rfl, hmark, hpost⟩

end Trace

/-! ## Invariants -/

variable {I : σ → Prop} {A : σ → ε → Prop}

/-- A property kept by every admissible step holds at the end of a run of admissible steps. -/
theorem invariant_final (hstep : ∀ s e, I s → A s e → I (step s e)) {s : σ} {es : List ε}
    (h₀ : I s) (hok : ∀ m ∈ steps step s es, A m.1 m.2) : I (final step s es) := by
  induction es generalizing s with
  | nil => exact h₀
  | cons e es ih =>
    simp only [steps_cons, List.forall_mem_cons] at hok
    exact ih (hstep s e h₀ hok.1) hok.2

/-- A property kept by every admissible step holds at every step of a run of admissible steps. -/
theorem invariant_steps (hstep : ∀ s e, I s → A s e → I (step s e)) {s : σ} {es : List ε}
    (h₀ : I s) (hok : ∀ m ∈ steps step s es, A m.1 m.2) : ∀ m ∈ steps step s es, I m.1 := by
  induction es generalizing s with
  | nil => simp
  | cons e es ih =>
    simp only [steps_cons, List.forall_mem_cons] at hok ⊢
    exact ⟨h₀, ih (hstep s e h₀ hok.1) hok.2⟩

/-- The invariant rule for a property of the state and of the steps so far. -/
theorem invariant_trail {J : List (σ × ε) → σ → Prop}
    (hstep : ∀ ms s e, J ms s → A s e → J (ms ++ [(s, e)]) (step s e)) {s : σ} {es : List ε}
    (h₀ : J [] s) (hok : ∀ m ∈ steps step s es, A m.1 m.2) :
    J (steps step s es) (final step s es) := by
  induction es using List.reverseRecOn with
  | nil => exact h₀
  | append_singleton es e ih =>
    rw [steps_append] at hok ⊢
    simp only [steps_cons, steps_nil, List.forall_mem_append, List.forall_mem_singleton] at hok
    rw [final_append]
    exact hstep _ _ _ (ih hok.1) hok.2

/-- The invariant rule for a property of the state and of the events so far. -/
theorem invariant_history {J : List ε → σ → Prop}
    (hstep : ∀ es s e, J es s → A s e → J (es ++ [e]) (step s e)) {s : σ} {es : List ε}
    (h₀ : J [] s) (hok : ∀ m ∈ steps step s es, A m.1 m.2) : J es (final step s es) := by
  have htrail := invariant_trail (J := fun ms s => J (ms.map Prod.snd) s)
    (fun ms s e h hA => by
      rw [List.map_append]
      exact hstep _ s e h hA)
    h₀ hok
  rwa [map_snd_steps] at htrail

/-- A property kept by every step holds at the end of every run. -/
theorem always_final (hstep : ∀ s e, I s → I (step s e)) {s : σ} (h₀ : I s) (es : List ε) :
    I (final step s es) :=
  invariant_final (A := fun _ _ => True) (fun s e h _ => hstep s e h) h₀ fun _ _ => trivial

/-- A property kept by every step holds at every step of every run. -/
theorem always_steps (hstep : ∀ s e, I s → I (step s e)) {s : σ} (h₀ : I s) (es : List ε) :
    ∀ m ∈ steps step s es, I m.1 :=
  invariant_steps (A := fun _ _ => True) (fun s e h _ => hstep s e h) h₀ fun _ _ => trivial

/-- The same for a property of the state and of the steps so far. -/
theorem always_trail {J : List (σ × ε) → σ → Prop}
    (hstep : ∀ ms s e, J ms s → J (ms ++ [(s, e)]) (step s e)) {s : σ} (h₀ : J [] s)
    (es : List ε) : J (steps step s es) (final step s es) :=
  invariant_trail (A := fun _ _ => True) (fun ms s e h _ => hstep ms s e h) h₀ fun _ _ => trivial

/-- A bound that every admissible step lowers by one falls with the length of a run of admissible
steps. -/
theorem countdown_final {P : ℕ → σ → Prop}
    (hstep : ∀ n s e, P n s → A s e → P (n - 1) (step s e)) {n : ℕ} {s : σ} {es : List ε}
    (h₀ : P n s) (hok : ∀ m ∈ steps step s es, A m.1 m.2) :
    P (n - es.length) (final step s es) := by
  induction es generalizing n s with
  | nil => exact h₀
  | cons e es ih =>
    simp only [steps_cons, List.forall_mem_cons] at hok
    rw [List.length_cons, Nat.add_comm, ← Nat.sub_sub]
    exact ih (hstep n s e h₀ hok.1) hok.2

/-- Every admissible step reaches the goal or takes at least its cost off a budget that is never
zero. Then the goal is reached in a run whose steps cost as much as the budget is. -/
theorem exists_of_cost {P : ℕ → σ → Prop} {goal : σ → ε → Prop} {cost : ε → ℕ}
    (hpos : ∀ s, ¬ P 0 s)
    (hstep : ∀ n s e, P n s → A s e → goal s e ∨ ∃ n', n' + cost e ≤ n ∧ P n' (step s e))
    {n : ℕ} {s : σ} {es : List ε} (h₀ : P n s) (hok : ∀ m ∈ steps step s es, A m.1 m.2)
    (hcost : n ≤ (es.map cost).sum) : ∃ m ∈ steps step s es, goal m.1 m.2 := by
  induction es generalizing n s with
  | nil =>
    obtain rfl : n = 0 := Nat.le_zero.1 hcost
    exact absurd h₀ (hpos s)
  | cons e es ih =>
    simp only [steps_cons, List.forall_mem_cons] at hok
    rw [List.map_cons, List.sum_cons] at hcost
    rcases hstep n s e h₀ hok.1 with hgoal | ⟨n', hn', h⟩
    · exact ⟨(s, e), List.mem_cons_self, hgoal⟩
    · obtain ⟨m, hm, hgoal⟩ := ih h hok.2 (by omega)
      exact ⟨m, List.mem_cons_of_mem _ hm, hgoal⟩

/-- Let `J` be a property that every step keeps, and let a step from a state with `J` lead to a
state with `I` exactly when it is admissible and comes from a state with `I`. Then `I` holds at the
end of a run exactly when it holds at the beginning and all steps of the run are admissible. -/
theorem final_iff_of_invariant {J : σ → Prop} (hJ : ∀ s e, J s → J (step s e))
    (hstep : ∀ s e, J s → (I (step s e) ↔ I s ∧ A s e)) {s : σ} (h₀ : J s) (es : List ε) :
    I (final step s es) ↔ I s ∧ ∀ m ∈ steps step s es, A m.1 m.2 := by
  induction es generalizing s with
  | nil => simp
  | cons e es ih =>
    rw [final_cons, ih (hJ s e h₀), hstep s e h₀]
    simp only [steps_cons, List.forall_mem_cons, and_assoc]

/-- The same with no invariant. -/
theorem final_iff (hstep : ∀ s e, I (step s e) ↔ I s ∧ A s e) (s : σ) (es : List ε) :
    I (final step s es) ↔ I s ∧ ∀ m ∈ steps step s es, A m.1 m.2 :=
  final_iff_of_invariant (J := fun _ => True) (fun _ _ _ => trivial) (fun s e _ => hstep s e)
    trivial es

/-- Let `Q` be a property that admissible steps keep, and let a step from a state with `Q` lead to a
state with `P` exactly when it is admissible. Then `P` holds after every prefix of a run exactly
when all steps of the run are admissible. -/
theorem forall_prefix_iff {P Q : σ → Prop} (hPQ : ∀ s, Q s → P s)
    (hstep : ∀ s e, Q s → (P (step s e) ↔ A s e)) (hQ : ∀ s e, Q s → A s e → Q (step s e))
    {s : σ} {es : List ε} (h₀ : Q s) :
    (∀ pre, pre <+: es → P (final step s pre)) ↔ ∀ m ∈ steps step s es, A m.1 m.2 := by
  induction es generalizing s with
  | nil => simpa using hPQ s h₀
  | cons e es ih =>
    simp only [steps_cons, List.forall_mem_cons]
    constructor
    · intro h
      have hA : A s e := (hstep s e h₀).1 (h [e] (by simp))
      refine ⟨hA, (ih (hQ s e h₀ hA)).1 fun pre hpre => ?_⟩
      exact h (e :: pre) (by simpa using hpre)
    · rintro ⟨hA, hAs⟩ pre hpre
      rcases pre with _ | ⟨e', pre⟩
      · exact hPQ s h₀
      · obtain ⟨rfl, htail⟩ := List.cons_prefix_cons.1 hpre
        exact (ih (hQ s e' h₀ hA)).2 hAs pre htail

/-- Let `Q` be a property that admissible steps keep, and let a step from a state with `Q` have the
property `R` exactly when it is admissible. Then all steps of a run have it exactly when all of
them are admissible. -/
theorem forall_steps_iff {R : σ → ε → Prop} {Q : σ → Prop}
    (hstep : ∀ s e, Q s → (R s e ↔ A s e)) (hQ : ∀ s e, Q s → A s e → Q (step s e))
    {s : σ} (h₀ : Q s) (es : List ε) :
    (∀ m ∈ steps step s es, R m.1 m.2) ↔ ∀ m ∈ steps step s es, A m.1 m.2 := by
  induction es generalizing s with
  | nil => simp
  | cons e es ih =>
    simp only [steps_cons, List.forall_mem_cons]
    rw [hstep s e h₀]
    exact and_congr_right fun hA => ih (hQ s e h₀ hA)

end KS3.Run
