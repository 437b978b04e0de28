import KS3.Supervisor.TSupervisor

/-!
# What all tasks keep

A property of the state of the tasks that every method of every task keeps, whatever `sendMessage`
answers, holds after `processTasks` and after `processMessages`.

* `processTasks_keeps`, `processMessages_keeps`: the two halves of a pass of the main loop;
* `foldlM_keeps`: a run of passes.
-/

namespace KS3.Supervisor

open Comm

/-! ## Methods -/

/-- A property holds of what a method returns, whatever `sendMessage` answers it. -/
def Code.All {α : Type*} (P : α → Prop) : Code α → Prop
  | .ret a => P a
  | .sendMessage _ _ _ _ next => ∀ rc, (next rc).All P

variable {α β : Type*} {P : α → Prop}

theorem Code.All.run {c : Code α} (h : c.All P) (q : TQueue TCMessage) : P (c.run q).value := by
  induction c generalizing q with
  | ret a => exact h
  | sendMessage g no p1 p2 next ih => exact ih _ (h _) _

theorem Code.All.map {Q : β → Prop} {c : Code α} {f : α → β} (hf : ∀ a, P a → Q (f a))
    (h : c.All P) : (c.map f).All Q := by
  induction c with
  | ret a => exact hf a h
  | sendMessage g no p1 p2 next ih => exact fun rc => ih rc (h rc)

/-- Every method returns something. -/
theorem Code.all_true (c : Code α) : c.All fun _ => True := by
  induction c with
  | ret a => trivial
  | sendMessage g no p1 p2 next ih => exact ih

/-! ## The supervisor -/

section Tasks

variable {σ : Type*} {t : Tasks σ} {I : σ → Prop}

/-- Every method of every task keeps a property. -/
structure Tasks.Keeps (t : Tasks σ) (I : σ → Prop) : Prop where
  process : ∀ i app, I app → (t.process i app).All I
  handleEvent : ∀ i msg app, I app → (t.handleEvent i msg app).All fun out => I out.2

theorem processTasksFrom_keeps (h : t.Keeps I) (i k : ℕ) {s : TSupervisor σ} (hs : I s.app) :
    I (s.processTasksFrom t i k).app := by
  induction k generalizing i s with
  | zero => exact hs
  | succ k ih =>
    rw [TSupervisor.processTasksFrom]
    split_ifs
    · exact ih _ ((h.process i s.app hs).run s.msgQueue)
    · exact ih _ hs

/-- **After `processTasks`.** -/
theorem processTasks_keeps (h : t.Keeps I) {s : TSupervisor σ} (hs : I s.app) :
    I (s.processTasks t).app := processTasksFrom_keeps h 0 t.numTasks hs

theorem turn_keeps (h : t.Keeps I) (i : ℕ) (msg : TCMessage) {app : σ} (happ : I app)
    (q : TQueue TCMessage) : I (t.turn i msg app q).1.after.2 := by
  rw [Tasks.turn]
  split_ifs
  · exact (h.handleEvent i msg app happ).run q
  · exact happ

theorem forTasks_keeps (h : t.Keeps I) (i k : ℕ) (msg : TCMessage) {app : σ} (happ : I app)
    (q : TQueue TCMessage) : I (t.forTasks i k msg app q).2.1 := by
  induction k generalizing i msg app q with
  | zero => exact happ
  | succ k ih =>
    rw [Tasks.forTasks]
    split_ifs
    · exact ih _ _ (turn_keeps h i msg happ q) _
    · exact happ

theorem round_keeps (h : t.Keeps I) {s : TSupervisor σ} (hs : I s.app) : I (s.round t).app := by
  rw [TSupervisor.round]
  split
  · exact hs
  · exact forTasks_keeps h 0 t.numTasks _ hs _

/-- **After `processMessages`**, if it ends. -/
theorem processMessages_keeps (h : t.Keeps I) {rounds : ℕ} {s s' : TSupervisor σ} (hs : I s.app)
    (hrun : s.processMessages t rounds = some s') : I s'.app := by
  induction rounds generalizing s with
  | zero =>
    rw [TSupervisor.processMessages] at hrun
    split_ifs at hrun
    rwa [← Option.some.inj hrun]
  | succ rounds ih =>
    rw [TSupervisor.processMessages] at hrun
    split_ifs at hrun
    · rwa [← Option.some.inj hrun]
    · exact ih (round_keeps h hs) hrun

end Tasks

/-- A property that every step keeps holds after a run that does not fail. -/
theorem foldlM_keeps {σ ε : Type*} {step : σ → ε → Option σ} {I : σ → Prop}
    (h : ∀ s e s', I s → step s e = some s' → I s') {es : List ε} {s s' : σ} (hs : I s)
    (hrun : es.foldlM step s = some s') : I s' := by
  induction es generalizing s with
  | nil => rwa [← Option.some.inj hrun]
  | cons e es ih =>
    rw [List.foldlM_cons] at hrun
    obtain ⟨s₁, hfirst, hrest⟩ := Option.bind_eq_some_iff.1 hrun
    exact ih (h s e s₁ hs hfirst) hrest

end KS3.Supervisor
