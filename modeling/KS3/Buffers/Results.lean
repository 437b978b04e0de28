import KS3.Buffers.Storage

/-!
# What the results of the container promise

`releaseBufferByPacketNumber` returns whether it has released a block with the given number, and a
negative result of `writeBuffer` says that nothing was stored.

The scan for a packet number looks at every buffer. A free buffer has the number zero, or after a
`reset` the one it had before, and stops the scan as a full one does. `writeBuffer` claims a buffer
before it looks at the size of the block, and gives nothing back.

* `releasesRight_iff`: an acknowledge does what it returns exactly when no free buffer comes first;
* `leavesNoTrace_iff`: a write that is refused leaves the container alone exactly when it is refused
  before a buffer is claimed.
-/

namespace KS3.Buffers

namespace TDataBuffersContainer

variable {c : TDataBuffersContainer} {pn : UInt16}

/-! ## Acknowledges -/

/-- A buffer holds a block with a packet number. -/
def HoldsBlock (c : TDataBuffersContainer) (pn : UInt16) (i : ℕ) : Prop :=
  i < kMaxSize ∧ ¬ c.IsFree i ∧ (c.buffers i).buffer.packet = pn

instance (c : TDataBuffersContainer) (pn : UInt16) (i : ℕ) : Decidable (c.HoldsBlock pn i) :=
  inferInstanceAs (Decidable (_ ∧ _ ∧ _))

/-- The result of `releaseBufferByPacketNumber` is true exactly when a block with the number is
stored; then one buffer with such a block becomes free and the others stay as they are; otherwise
nothing changes. -/
structure ReleasesRight (c : TDataBuffersContainer) (pn : UInt16) : Prop where
  result_iff : (c.releaseBufferByPacketNumber pn).1 = true ↔ ∃ i, c.HoldsBlock pn i
  released : (c.releaseBufferByPacketNumber pn).1 = true → ∃ n, c.HoldsBlock pn n ∧
    (c.releaseBufferByPacketNumber pn).2.IsFree n ∧
    ∀ i, i ≠ n → (c.releaseBufferByPacketNumber pn).2.buffers i = c.buffers i
  unchanged : (c.releaseBufferByPacketNumber pn).1 = false →
    (c.releaseBufferByPacketNumber pn).2 = c

/-- Every free buffer with a packet number comes behind one that holds a block with it. -/
def FreeBehind (c : TDataBuffersContainer) (pn : UInt16) : Prop :=
  ∀ i < kMaxSize, c.IsFree i → (c.buffers i).buffer.packet = pn → ∃ j < i, c.HoldsBlock pn j

theorem findPacket_none (h : c.findPacket pn = none) {i : ℕ} (hi : i < kMaxSize) :
    (c.buffers i).buffer.packet ≠ pn := by
  have hnot := List.find?_eq_none.1 h i (List.mem_range.2 hi)
  simpa using hnot

/-- The scan stops at the first buffer with the number. -/
theorem findPacket_first {n i : ℕ} (h : c.findPacket pn = some n) (hi : i < n) :
    (c.buffers i).buffer.packet ≠ pn := by
  have hbefore := (List.find?_range_eq_some.1 h).2.2 i hi
  simpa using hbefore

theorem isFree_releaseBuffer (c : TDataBuffersContainer) (n : ℕ) :
    (c.releaseBuffer n).IsFree n := by
  rw [releaseBuffer, IsFree, setBuffer_self]

/-- **Acknowledges**: `releaseBufferByPacketNumber` does what its result says exactly when every
free buffer with the number comes behind a full one with it. -/
theorem releasesRight_iff (c : TDataBuffersContainer) (pn : UInt16) :
    c.ReleasesRight pn ↔ c.FreeBehind pn := by
  cases hfind : c.findPacket pn with
  | none =>
    have hrelease : c.releaseBufferByPacketNumber pn = (false, c) := by
      rw [releaseBufferByPacketNumber, hfind]
    have hnone : ¬ ∃ i, c.HoldsBlock pn i := by
      rintro ⟨i, hi, -, hpn⟩
      exact findPacket_none hfind hi hpn
    refine iff_of_true ⟨?_, ?_, ?_⟩ ?_
    · rw [hrelease]
      exact iff_of_false (by simp) hnone
    · rw [hrelease]
      exact fun h => absurd h (by simp)
    · rw [hrelease]
      exact fun _ => rfl
    · exact fun i hi _ hpn => absurd hpn (findPacket_none hfind hi)
  | some n =>
    obtain ⟨hn, hpn⟩ := findPacket_spec hfind
    have hrelease : c.releaseBufferByPacketNumber pn = (true, c.releaseBuffer n) := by
      rw [releaseBufferByPacketNumber, hfind]
    by_cases hfree : c.IsFree n
    · -- a free buffer is released, and no full one becomes free
      refine iff_of_false (fun h => ?_) fun h => ?_
      · obtain ⟨m, hm, hreleased, -⟩ := h.released (by rw [hrelease])
        have hne : m ≠ n := fun heq => hm.2.1 (heq ▸ hfree)
        rw [hrelease, IsFree, buffers_releaseBuffer_of_ne hne] at hreleased
        exact hm.2.1 hreleased
      · obtain ⟨j, hj, hholds⟩ := h n hn hfree hpn
        exact findPacket_first hfind hj hholds.2.2
    · have hholds : c.HoldsBlock pn n := ⟨hn, hfree, hpn⟩
      refine iff_of_true ⟨?_, ?_, ?_⟩ ?_
      · rw [hrelease]
        exact iff_of_true rfl ⟨n, hholds⟩
      · rw [hrelease]
        exact fun _ => ⟨n, hholds, isFree_releaseBuffer c n,
          fun i hi => buffers_releaseBuffer_of_ne hi⟩
      · rw [hrelease]
        exact fun h => absurd h (by simp)
      · intro i hi hifree hipn
        refine ⟨n, ?_, hholds⟩
        rcases lt_trichotomy n i with hlt | rfl | hgt
        · exact hlt
        · exact absurd hifree hfree
        · exact absurd hipn (findPacket_first hfind hgt)

/-! ## Refused writes -/

/-- `writeBuffer` leaves the container as it was if it returns one of its error codes. -/
def LeavesNoTrace (c : TDataBuffersContainer) (buffer : TDataBuffer) (dataId : UInt32) : Prop :=
  (c.writeBuffer buffer dataId).1 = kIncorrectId ∨
      (c.writeBuffer buffer dataId).1 = kIncorrectSize ∨
      (c.writeBuffer buffer dataId).1 = kNoBuffers →
    (c.writeBuffer buffer dataId).2 = c

/-- The write is refused for its type or because no buffer is on the count, or it succeeds: some
buffer is free and the block fits. -/
def RefusedFirst (c : TDataBuffersContainer) (buffer : TDataBuffer) (dataId : UInt32) : Prop :=
  dataId ≠ kDataId.toUInt32 ∨ c.nFree = 0 ∨
    (∃ i < kMaxSize, c.IsFree i) ∧ buffer.dataSize ≤ kMaxDataSize

/-- A claim changes the container. -/
theorem ne_of_nFree {c' : TDataBuffersContainer} (h₀ : c.nFree ≠ 0) (h : c'.nFree = c.nFree - 1) :
    c' ≠ c := by
  rintro rfl
  omega

theorem leavesNoTrace_iff_of_lt (hi : c.iFree < kMaxSize) (buffer : TDataBuffer)
    (dataId : UInt32) : c.LeavesNoTrace buffer dataId ↔ c.RefusedFirst buffer dataId := by
  by_cases hid : dataId = kDataId.toUInt32
  swap
  · rw [LeavesNoTrace, writeBuffer_of_ne hid]
    exact iff_of_true (fun _ => rfl) (.inl hid)
  subst hid
  rw [LeavesNoTrace, RefusedFirst, writeBuffer_eq hi, ← firstFree_lt_iff]
  by_cases h₀ : c.nFree = 0
  · rw [if_pos h₀]
    exact iff_of_true (fun _ => rfl) (.inr (.inl h₀))
  rw [if_neg h₀]
  by_cases hfree : c.firstFree < kMaxSize
  · rw [if_pos hfree]
    by_cases hsize : buffer.dataSize ≤ kMaxDataSize
    · rw [if_pos hsize]
      refine iff_of_true (fun h => ?_) (.inr (.inr ⟨hfree, hsize⟩))
      simp only [kIncorrectId, kIncorrectSize, kNoBuffers] at h
      omega
    · rw [if_neg hsize]
      refine iff_of_false (fun h => ?_) (by simp [h₀, hsize])
      exact ne_of_nFree h₀ rfl (h (.inr (.inl rfl)))
  · rw [if_neg hfree]
    refine iff_of_false (fun h => ?_) (by simp [h₀, hfree])
    exact ne_of_nFree h₀ rfl (h (.inr (.inr rfl)))

end TDataBuffersContainer

namespace Store

open TDataBuffersContainer

/-- **Refused writes**: in every reachable state a write that is refused leaves no trace exactly
when its type is wrong, no buffer is on the count, or the write succeeds. -/
theorem leavesNoTrace_iff (memory : ℕ → TDataBuffer) (ops : List Op) (buffer : TDataBuffer)
    (dataId : UInt32) :
    (Run.final step (init memory) ops).container.LeavesNoTrace buffer dataId ↔
      (Run.final step (init memory) ops).container.RefusedFirst buffer dataId := by
  have hi : (Run.final step (init memory) ops).container.iFree < kMaxSize :=
    Run.always_final (I := fun s : Store => s.container.iFree < kMaxSize)
      (fun s op hs => iFree_step hs op) (by decide : 0 < kMaxSize) ops
  exact leavesNoTrace_iff_of_lt hi buffer dataId

/-- A block with 43 samples is refused by a container that was never used, and a buffer is lost. -/
theorem not_leavesNoTrace_oversized :
    (blank.container.writeBuffer ⟨1, 43, 0, fun _ => 0⟩ kDataId.toUInt32).1 = kIncorrectSize ∧
      ¬ blank.container.LeavesNoTrace ⟨1, 43, 0, fun _ => 0⟩ kDataId.toUInt32 := by
  have hrc : (blank.container.writeBuffer ⟨1, 43, 0, fun _ => 0⟩ kDataId.toUInt32).1 =
      kIncorrectSize := by decide +kernel
  have hcount : (blank.container.writeBuffer ⟨1, 43, 0, fun _ => 0⟩ kDataId.toUInt32).2.nFree ≠
      blank.container.nFree := by decide +kernel
  refine ⟨hrc, fun h => hcount ?_⟩
  rw [h (.inr (.inl hrc))]

/-- Blocks 1 and 0 are stored in the buffers 0 and 2. An acknowledge of block 0 comes to the free
buffer 1 first, returns true and leaves block 0 where it is. -/
theorem not_releasesRight_zero :
    let c := (Run.final step blank [write 1, write 0]).container
    c.HoldsBlock 0 2 ∧ (c.releaseBufferByPacketNumber 0).1 = true ∧
      ¬ (c.releaseBufferByPacketNumber 0).2.IsFree 2 ∧ ¬ c.ReleasesRight 0 := by
  intro c
  have hholds : c.HoldsBlock 0 2 := by decide +kernel
  have hrc : (c.releaseBufferByPacketNumber 0).1 = true := by decide +kernel
  have hother : ∀ i < kMaxSize, c.HoldsBlock 0 i → i = 2 := by decide +kernel
  have hstays : ¬ (c.releaseBufferByPacketNumber 0).2.IsFree 2 := by decide +kernel
  refine ⟨hholds, hrc, hstays, fun h => ?_⟩
  obtain ⟨n, hn, hreleased, -⟩ := h.released hrc
  rw [hother n hn.1 hn] at hreleased
  exact hstays hreleased

end Store

end KS3.Buffers
