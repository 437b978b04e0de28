import Mathlib

/-!
# `TBuffersPool`: a pool of buffers

A pool lends its buffers out: `get` takes the first free one, `release` takes one back that is
known by its address alone. The count `freeN` is kept beside the states of the buffers.

`Lent p lent` says that the buffers lent out are those of the list `lent`, each of them once, and
that the count agrees with it. `Lent.get` and `Lent.release` are what the two operations do to it.
-/

namespace KS3.Udp

/-- `kStFree` and `kStBusy`. -/
inductive BufferState
  | kStFree
  | kStBusy
  deriving DecidableEq

/-- The data members of `TBuffersPool`, with addresses in `α`. -/
structure TBuffersPool (α : Type*) where
  buffers : ℕ → α
  state : ℕ → BufferState
  size : ℕ
  freeN : ℕ

namespace TBuffersPool

variable {α : Type*}

/-- The pool after construction (`reset`). -/
def init (buffers : ℕ → α) (size : ℕ) : TBuffersPool α where
  buffers := buffers
  state _ := .kStFree
  size := size
  freeN := size

/-- `get`; no buffer is `none`. -/
def get (p : TBuffersPool α) : Option α × TBuffersPool α :=
  if p.freeN = 0 then (none, p)
  else
    match (List.range p.size).find? fun i => p.state i = .kStFree with
    | some i =>
      (some (p.buffers i),
        { p with state := Function.update p.state i .kStBusy, freeN := p.freeN - 1 })
    | none => (none, { p with freeN := 0 })

/-- `release`. -/
def release [DecidableEq α] (p : TBuffersPool α) (b : α) : TBuffersPool α :=
  match (List.range p.size).find? fun i => p.buffers i = b with
  | some i =>
    { p with
      state := Function.update p.state i .kStFree
      freeN := if p.freeN < p.size then p.freeN + 1 else p.freeN }
  | none => p

/-- The indices of the buffers in a given state. -/
def inState (p : TBuffersPool α) (st : BufferState) : List ℕ :=
  (List.range p.size).filter fun i => p.state i = st

theorem mem_inState {p : TBuffersPool α} {st : BufferState} {i : ℕ} :
    i ∈ p.inState st ↔ i < p.size ∧ p.state i = st := by simp [inState]

/-- The buffers lent out are those of a list, each of them once, and `freeN` counts the others. -/
structure Lent (p : TBuffersPool α) (lent : List α) : Prop where
  inj : ∀ i < p.size, ∀ j < p.size, p.buffers i = p.buffers j → i = j
  nodup : lent.Nodup
  busy_iff : ∀ b, b ∈ lent ↔ ∃ i < p.size, p.buffers i = b ∧ p.state i = .kStBusy
  freeN_add : p.freeN + lent.length = p.size

theorem lent_init {buffers : ℕ → α} {size : ℕ}
    (h : ∀ i < size, ∀ j < size, buffers i = buffers j → i = j) : (init buffers size).Lent [] where
  inj := h
  nodup := List.nodup_nil
  busy_iff b := by simp [init]
  freeN_add := rfl

variable {p : TBuffersPool α} {lent : List α}

theorem Lent.perm (h : p.Lent lent) : ((p.inState .kStBusy).map p.buffers).Perm lent := by
  have hnodup : ((p.inState .kStBusy).map p.buffers).Nodup := by
    refine List.Nodup.map_on (fun i hi j hj => ?_) (List.nodup_range.filter _)
    exact h.inj i (mem_inState.1 hi).1 j (mem_inState.1 hj).1
  refine (List.perm_ext_iff_of_nodup hnodup h.nodup).2 fun b => ?_
  rw [h.busy_iff, List.mem_map]
  simp only [mem_inState, and_comm, and_left_comm]

/-- The count is that of the free buffers. -/
theorem Lent.freeN_eq (h : p.Lent lent) : p.freeN = (p.inState .kStFree).length := by
  have hbusy : (p.inState .kStBusy).length = lent.length := by
    rw [← h.perm.length_eq, List.length_map]
  have hsplit := List.length_eq_length_filter_add (l := List.range p.size)
    fun i => decide (p.state i = .kStBusy)
  have hrest : ((List.range p.size).filter fun i => !decide (p.state i = .kStBusy)) =
      p.inState .kStFree := by
    refine List.filter_congr fun i _ => ?_
    cases p.state i <;> rfl
  rw [hrest, List.length_range] at hsplit
  have hadd := h.freeN_add
  change p.size = (p.inState .kStBusy).length + _ at hsplit
  omega

/-- **`get`** lends out a buffer of the pool that is not lent out, if there is one. -/
theorem Lent.get (h : p.Lent lent) (hlt : lent.length < p.size) :
    ∃ i < p.size, p.get.1 = some (p.buffers i) ∧ p.buffers i ∉ lent ∧
      p.get.2.Lent (lent ++ [p.buffers i]) ∧ p.get.2.buffers = p.buffers ∧
      p.get.2.size = p.size := by
  have hadd := h.freeN_add
  have hne : p.freeN ≠ 0 := by omega
  obtain ⟨j, hj⟩ : ∃ j, j ∈ p.inState .kStFree :=
    List.exists_mem_of_length_pos (by rw [← h.freeN_eq]; omega)
  rcases hfind : (List.range p.size).find? fun i => p.state i = .kStFree with _ | i
  · have hnone := List.find?_eq_none.1 hfind j (List.mem_range.2 (mem_inState.1 hj).1)
    simp [(mem_inState.1 hj).2] at hnone
  have hi : i < p.size := List.mem_range.1 (List.mem_of_find?_eq_some hfind)
  have hfree : p.state i = .kStFree := by simpa using List.find?_some hfind
  have hget : p.get = (some (p.buffers i),
      { p with state := Function.update p.state i .kStBusy, freeN := p.freeN - 1 }) := by
    rw [TBuffersPool.get, if_neg hne, hfind]
  have hnot : p.buffers i ∉ lent := fun hmem => by
    obtain ⟨k, hk, heq, hbusy⟩ := (h.busy_iff _).1 hmem
    rw [h.inj k hk i hi heq, hfree] at hbusy
    cases hbusy
  refine ⟨i, hi, by rw [hget], hnot, ?_, by rw [hget], by rw [hget]⟩
  rw [hget]
  refine ⟨h.inj, List.nodup_append.2 ⟨h.nodup, List.nodup_singleton _, ?_⟩, fun b => ?_, ?_⟩
  · rintro a ha b hb rfl
    exact hnot (List.mem_singleton.1 hb ▸ ha)
  · rw [List.mem_append, List.mem_singleton, h.busy_iff]
    constructor
    · rintro (⟨k, hk, rfl, hbusy⟩ | rfl)
      · refine ⟨k, hk, rfl, ?_⟩
        by_cases hki : k = i <;> simp [hki, hbusy]
      · exact ⟨i, hi, rfl, Function.update_self ..⟩
    · rintro ⟨k, hk, rfl, hbusy⟩
      by_cases hki : k = i
      · exact .inr (congrArg p.buffers hki)
      · exact .inl ⟨k, hk, rfl, (Function.update_of_ne hki ..).symm.trans hbusy⟩
  · simp only [List.length_append, List.length_singleton]
    omega

variable [DecidableEq α]

/-- **`release`** takes back a buffer that is lent out. -/
theorem Lent.release {b : α} (h : p.Lent (b :: lent)) :
    (p.release b).Lent lent ∧ (p.release b).buffers = p.buffers ∧ (p.release b).size = p.size := by
  obtain ⟨i, hi, rfl, -⟩ := (h.busy_iff b).1 List.mem_cons_self
  have hfind : (List.range p.size).find? (fun j => p.buffers j = p.buffers i) = some i := by
    rcases hf : (List.range p.size).find? fun j => p.buffers j = p.buffers i with _ | j
    · simpa using List.find?_eq_none.1 hf i (List.mem_range.2 hi)
    · rw [h.inj j (List.mem_range.1 (List.mem_of_find?_eq_some hf)) i hi
        (by simpa using List.find?_some hf)]
  have hadd := h.freeN_add
  rw [List.length_cons] at hadd
  have hrelease : p.release (p.buffers i) =
      { p with state := Function.update p.state i .kStFree, freeN := p.freeN + 1 } := by
    rw [TBuffersPool.release, hfind]
    simp only
    rw [if_pos (by omega)]
  rw [hrelease]
  refine ⟨⟨h.inj, (List.nodup_cons.1 h.nodup).2, fun b => ?_, ?_⟩, rfl, rfl⟩
  · constructor
    · intro hb
      obtain ⟨k, hk, rfl, hbusy⟩ := (h.busy_iff b).1 (List.mem_cons_of_mem _ hb)
      have hki : k ≠ i := by
        rintro rfl
        exact (List.nodup_cons.1 h.nodup).1 hb
      exact ⟨k, hk, rfl, (Function.update_of_ne hki ..).trans hbusy⟩
    · rintro ⟨k, hk, rfl, hbusy⟩
      have hki : k ≠ i := by
        rintro rfl
        exact absurd ((Function.update_self ..).symm.trans hbusy) (by simp)
      have hstate : p.state k = .kStBusy := (Function.update_of_ne hki ..).symm.trans hbusy
      rcases List.mem_cons.1 ((h.busy_iff _).2 ⟨k, hk, rfl, hstate⟩) with heq | hmem
      · exact absurd (h.inj k hk i hi heq) hki
      · exact hmem
  · change p.freeN + 1 + lent.length = p.size
    omega

/-- `release` ignores an address that is none of the pool. -/
theorem release_of_ne {b : α} (h : ∀ i < p.size, p.buffers i ≠ b) : p.release b = p := by
  have hfind : (List.range p.size).find? (fun i => p.buffers i = b) = none := by
    simpa [List.find?_eq_none] using h
  rw [release, hfind]

end TBuffersPool

end KS3.Udp
