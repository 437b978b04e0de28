import KS3.Buffers.Storage

/-!
# The oldest block

`getFullBufferSortBySync` looks for the full buffer with the smallest tick. It starts from the
largest tick there is and takes a buffer only if its tick is smaller, so a block with that largest
tick is never taken.

* `found_search`: what the loop has found after the buffers it has looked at;
* `oldestFirst_iff`: in every state of every run, the search returns an oldest full buffer, and
  `kRcErr` only if no buffer is full, exactly when no buffer is full or one of the full buffers has
  a smaller tick than the largest.
-/

namespace KS3.Buffers

namespace TDataBuffersContainer

variable (c : TDataBuffersContainer)

/-- Whether a buffer is full. -/
def IsFull (i : ℕ) : Prop := (c.buffers i).state = .stFull

instance (i : ℕ) : Decidable (c.IsFull i) :=
  inferInstanceAs (Decidable ((c.buffers i).state = .stFull))

/-- The tick of a buffer. -/
def sync (i : ℕ) : ℕ := (c.buffers i).buffer.sync.toNat

/-- The largest tick, from which the search starts. -/
def maxSync : ℕ := 0xFFFFFFFF

/-- The search returns a full buffer with the smallest tick if a buffer is full, and nothing
exactly if none is. -/
def OldestFirst : Prop :=
  ((∃ i < kMaxSize, c.IsFull i) → ∃ n < kMaxSize, c.getFullBufferSortBySync.1 = some n ∧
    c.IsFull n ∧ ∀ i < kMaxSize, c.IsFull i → c.sync n ≤ c.sync i) ∧
  (c.getFullBufferSortBySync.1 = none ↔ ∀ i < kMaxSize, ¬ c.IsFull i)

/-! ## The loop -/

/-- The body of the loop: the smallest tick and the index so far. -/
def searchStep (found : UInt32 × Option ℕ) (i : ℕ) : UInt32 × Option ℕ :=
  if (c.buffers i).state = .stFull ∧ (c.buffers i).buffer.sync < found.1 then
    ((c.buffers i).buffer.sync, some i)
  else
    found

/-- What the loop has found among the buffers `is`. -/
def Found (is : List ℕ) : UInt32 × Option ℕ → Prop
  | (syncMin, none) => syncMin.toNat = maxSync ∧ ∀ i ∈ is, c.IsFull i → c.sync i = maxSync
  | (syncMin, some n) => n ∈ is ∧ c.IsFull n ∧ c.sync n = syncMin.toNat ∧ c.sync n < maxSync ∧
      ∀ i ∈ is, c.IsFull i → c.sync n ≤ c.sync i

variable {c}

theorem sync_le (i : ℕ) : c.sync i ≤ maxSync := by
  have hlt := (c.buffers i).buffer.sync.toNat_lt
  rw [sync, maxSync]
  omega

theorem found_searchStep {is : List ℕ} {found : UInt32 × Option ℕ} (h : c.Found is found) (i : ℕ) :
    c.Found (is ++ [i]) (c.searchStep found i) := by
  obtain ⟨syncMin, index⟩ := found
  have hle := c.sync_le i
  rw [searchStep]
  split_ifs with htake
  · -- a smaller tick
    obtain ⟨hfull, hlt⟩ := htake
    have hlt' : c.sync i < syncMin.toNat := UInt32.lt_iff_toNat_lt.1 hlt
    have hbelow : c.sync i < maxSync ∧ ∀ j ∈ is, c.IsFull j → c.sync i ≤ c.sync j := by
      cases index with
      | none =>
        obtain ⟨hstart, hall⟩ := h
        exact ⟨by omega, fun j hj hfull => hle.trans (hall j hj hfull).ge⟩
      | some n =>
        obtain ⟨-, -, hn, hmax, hall⟩ := h
        exact ⟨by omega, fun j hj hfull => by have := hall j hj hfull; omega⟩
    refine ⟨by simp, hfull, rfl, hbelow.1, ?_⟩
    simp only [List.forall_mem_append, List.forall_mem_singleton]
    exact ⟨hbelow.2, fun _ => le_rfl⟩
  · have hskip : c.IsFull i → syncMin.toNat ≤ c.sync i := by
      intro hfull
      by_contra hlt
      exact htake ⟨hfull, UInt32.lt_iff_toNat_lt.2 (Nat.lt_of_not_le hlt)⟩
    cases index with
    | none =>
      obtain ⟨hstart, hall⟩ := h
      refine ⟨hstart, ?_⟩
      simp only [List.forall_mem_append, List.forall_mem_singleton]
      exact ⟨hall, fun hfull => le_antisymm hle (hstart.symm.le.trans (hskip hfull))⟩
    | some n =>
      obtain ⟨hmem, hfulln, hn, hmax, hall⟩ := h
      refine ⟨List.mem_append_left _ hmem, hfulln, hn, hmax, ?_⟩
      simp only [List.forall_mem_append, List.forall_mem_singleton]
      exact ⟨hall, fun hfull => hn.le.trans (hskip hfull)⟩

/-- **What the loop finds**: a full buffer with the smallest tick, or nothing if all full buffers
have the largest one. -/
theorem found_search (is : List ℕ) : c.Found is (is.foldl c.searchStep (0xFFFFFFFF, none)) := by
  induction is using List.reverseRecOn with
  | nil => exact ⟨rfl, by simp⟩
  | append_singleton is i ih =>
    rw [List.foldl_concat]
    exact found_searchStep ih i

theorem getFullBufferSortBySync_fst : c.getFullBufferSortBySync.1 =
    ((List.range kMaxSize).foldl c.searchStep (0xFFFFFFFF, none)).2 := by
  rw [getFullBufferSortBySync]
  split
  · rename_i index hfound
    exact hfound.symm
  · rename_i hfound
    exact hfound.symm

theorem oldestFirst_iff_sync : c.OldestFirst ↔
    (∀ i < kMaxSize, ¬ c.IsFull i) ∨ ∃ i < kMaxSize, c.IsFull i ∧ c.sync i ≠ maxSync := by
  have hfound := c.found_search (List.range kMaxSize)
  rw [OldestFirst, getFullBufferSortBySync_fst]
  generalize (List.range kMaxSize).foldl c.searchStep (0xFFFFFFFF, none) = found at hfound ⊢
  rcases found with ⟨syncMin, _ | n⟩
  · -- nothing is found
    obtain ⟨-, hall⟩ := hfound
    simp only [List.mem_range] at hall
    constructor
    · rintro ⟨-, hnone⟩
      exact .inl (hnone.1 rfl)
    · rintro (hnone | ⟨i, hi, hfull, hne⟩)
      · refine ⟨?_, iff_of_true rfl hnone⟩
        rintro ⟨i, hi, hfull⟩
        exact absurd hfull (hnone i hi)
      · exact absurd (hall i hi hfull) hne
  · obtain ⟨hmem, hfull, -, hlt, hall⟩ := hfound
    simp only [List.mem_range] at hmem hall
    constructor
    · exact fun _ => .inr ⟨n, hmem, hfull, hlt.ne⟩
    · refine fun _ => ⟨fun _ => ⟨n, hmem, rfl, hfull, hall⟩, ?_⟩
      exact iff_of_false (Option.some_ne_none n) fun hnone => hnone n hmem hfull

end TDataBuffersContainer

namespace Store

/-- **The oldest block first.** In every state of every run from any initial memory, the search
returns a full buffer with the smallest tick, and `kRcErr` exactly if no buffer is full, exactly
when no buffer is full or a full buffer has another tick than the largest one. -/
theorem oldestFirst_iff (memory : ℕ → TDataBuffer) (ops : List Op) :
    let c := (Run.final step (init memory) ops).container
    c.OldestFirst ↔ (∀ i < kMaxSize, ¬ c.IsFull i) ∨
      ∃ i < kMaxSize, c.IsFull i ∧ (c.buffers i).buffer.sync ≠ 0xFFFFFFFF := by
  intro c
  have hlargest : TDataBuffersContainer.maxSync = (0xFFFFFFFF : UInt32).toNat := rfl
  have hmax : ∀ i, c.sync i ≠ TDataBuffersContainer.maxSync ↔
      (c.buffers i).buffer.sync ≠ 0xFFFFFFFF := by
    intro i
    rw [TDataBuffersContainer.sync, hlargest, ne_eq, UInt32.toNat_inj]
  rw [TDataBuffersContainer.oldestFirst_iff_sync]
  simp only [hmax]

/-- A block with the largest tick. -/
def lastTick : TDataBuffer := ⟨1, 1, 0xFFFFFFFF, fun _ => 0⟩

/-- The block is stored and the search does not find it. -/
theorem lastTick_not_found :
    let c := (Run.final step blank [.writeBuffer lastTick kDataId.toUInt32]).container
    c.IsFull 0 ∧ c.getFullBufferSortBySync.1 = none ∧ ¬ c.OldestFirst := by
  intro c
  have hfull : c.IsFull 0 := by decide +kernel
  have hnone : c.getFullBufferSortBySync.1 = none := by decide +kernel
  exact ⟨hfull, hnone, fun h => h.2.1 hnone 0 (by decide) hfull⟩

end Store

end KS3.Buffers
