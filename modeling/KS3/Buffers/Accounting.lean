import KS3.Buffers.Storage

/-!
# Counting the free buffers

`nFree` is to be the number of free buffers, and once every stored block is acknowledged there is
to be room for 32 more. `lockFreeBuffer` takes one off the count for each search. `releaseBuffer`
takes one off the count and puts it back for a full buffer, so that the count does not rise,
unless it was zero.

`accounting_iff` says along which runs the count is right after every operation. From a reset on,
as long as it is right, the searches fill the buffers 0, 2, 3, … in this order (`FilledTo`): the
second search passes the full buffer 0 and goes on from `iFree = 1`. The 32nd search comes back to
buffer 0.
-/

namespace KS3.Buffers

namespace TDataBuffersContainer

variable {c : TDataBuffersContainer}

/-- The free buffers. -/
def freeBuffers (c : TDataBuffersContainer) : Finset ℕ := {i ∈ Finset.range kMaxSize | c.IsFree i}

theorem mem_freeBuffers {i : ℕ} : i ∈ c.freeBuffers ↔ i < kMaxSize ∧ c.IsFree i := by
  simp [freeBuffers]

theorem firstFree_lt_of_card (h : 0 < c.freeBuffers.card) : c.firstFree < kMaxSize := by
  obtain ⟨i, hi⟩ := Finset.card_pos.1 h
  exact firstFree_lt_iff.2 ⟨i, mem_freeBuffers.1 hi⟩

theorem freeBuffers_setBuffer_full (n : ℕ) (b : TDataBuffer) :
    (c.setBuffer n ⟨b, .stFull⟩).freeBuffers = c.freeBuffers.erase n := by
  ext i
  simp only [mem_freeBuffers, Finset.mem_erase, isFree_setBuffer_full]
  tauto

theorem freeBuffers_setBuffer_free {n : ℕ} (hn : n < kMaxSize) (b : TDataBuffer) :
    (c.setBuffer n ⟨b, .stFree⟩).freeBuffers = insert n c.freeBuffers := by
  ext i
  simp only [mem_freeBuffers, Finset.mem_insert, isFree_setBuffer_free]
  constructor
  · rintro ⟨hi, rfl | hfree⟩
    · exact .inl rfl
    · exact .inr ⟨hi, hfree⟩
  · rintro (rfl | ⟨hi, hfree⟩)
    · exact ⟨hn, .inl rfl⟩
    · exact ⟨hi, .inr hfree⟩

/-! ## Room for further blocks -/

/-- The results of `writeBuffer` for blocks one after the other. -/
def writeResults (c : TDataBuffersContainer) : List TDataBuffer → List ℤ
  | [] => []
  | b :: bs => (c.writeBuffer b kDataId.toUInt32).1 ::
      (c.writeBuffer b kDataId.toUInt32).2.writeResults bs

/-- Any 32 blocks that fit a buffer can be stored without `kNoBuffers`. -/
def Room (c : TDataBuffersContainer) : Prop :=
  ∀ blocks : List TDataBuffer, blocks.length = 32 → (∀ b ∈ blocks, b.dataSize ≤ kMaxDataSize) →
    ∀ rc ∈ c.writeResults blocks, rc ≠ kNoBuffers

/-- Writes succeed while there are buffers on the count and in fact. -/
theorem writeResults_ne {blocks : List TDataBuffer} (hi : c.iFree < kMaxSize)
    (hlegal : ∀ b ∈ blocks, b.dataSize ≤ kMaxDataSize) (hcount : blocks.length ≤ c.nFree)
    (hfree : blocks.length ≤ c.freeBuffers.card) :
    ∀ rc ∈ c.writeResults blocks, rc ≠ kNoBuffers := by
  induction blocks generalizing c with
  | nil => simp [writeResults]
  | cons b blocks ih =>
    simp only [List.length_cons] at hcount hfree
    simp only [List.forall_mem_cons] at hlegal
    have hwrite := writeBuffer_eq hi b
    rw [if_neg (by omega), if_pos (firstFree_lt_of_card (by omega)), if_pos hlegal.1] at hwrite
    rw [writeResults, hwrite, List.forall_mem_cons]
    constructor
    · simp only [serviceInfoSize, kNoBuffers]
      omega
    · have hcard : blocks.length ≤ (c.takeFree.fill c.lockIndex b).freeBuffers.card := by
        rw [fill, freeBuffers_setBuffer_full]
        have := Finset.pred_card_le_card_erase (s := c.takeFree.freeBuffers) (a := c.lockIndex)
        exact le_trans (by change _ ≤ c.freeBuffers.card - 1; omega) this
      exact ih (succIndex_lt _) hlegal.2 (by change _ ≤ c.nFree - 1; omega) hcard

/-- Writes fail once the count is used up. -/
theorem kNoBuffers_mem_writeResults {blocks : List TDataBuffer} (hi : c.iFree < kMaxSize)
    (hlegal : ∀ b ∈ blocks, b.dataSize ≤ kMaxDataSize) (hcount : c.nFree < blocks.length) :
    kNoBuffers ∈ c.writeResults blocks := by
  induction blocks generalizing c with
  | nil => simp at hcount
  | cons b blocks ih =>
    simp only [List.length_cons] at hcount
    simp only [List.forall_mem_cons] at hlegal
    have hwrite := writeBuffer_eq hi b
    rw [writeResults, hwrite]
    by_cases h₀ : c.nFree = 0
    · rw [if_pos h₀]
      exact List.mem_cons_self
    by_cases hfree : c.firstFree < kMaxSize
    · rw [if_neg h₀, if_pos hfree, if_pos hlegal.1]
      exact List.mem_cons_of_mem _
        (ih (succIndex_lt _) hlegal.2 (by change c.nFree - 1 < _; omega))
    · rw [if_neg h₀, if_neg hfree]
      exact List.mem_cons_self

/-- Where the count is right, there is room exactly when all buffers are free. -/
theorem room_iff (hi : c.iFree < kMaxSize) (hcount : c.nFree = c.freeBuffers.card) :
    c.Room ↔ kMaxSize ≤ c.nFree := by
  constructor
  · intro hroom
    by_contra hlt
    have hlegal : ∀ b ∈ List.replicate 32 (⟨0, 0, 0, fun _ => 0⟩ : TDataBuffer),
        b.dataSize ≤ kMaxDataSize := by
      intro b hb
      rw [List.eq_of_mem_replicate hb]
      decide
    have hlen : (List.replicate 32 (⟨0, 0, 0, fun _ => 0⟩ : TDataBuffer)).length = 32 :=
      List.length_replicate ..
    refine hroom _ hlen hlegal _ (kNoBuffers_mem_writeResults hi hlegal ?_) rfl
    rw [hlen]
    exact Nat.lt_of_not_le hlt
  · intro hle blocks hlen hlegal
    exact writeResults_ne hi hlegal (hlen ▸ hle) (by rw [hlen, ← hcount]; exact hle)

/-! ## How the buffers fill -/

/-- The container after `k` searches since a reset, none of which went wrong: buffer 0 and the
buffers from 2 to `k` are full. -/
structure FilledTo (c : TDataBuffersContainer) (k : ℕ) : Prop where
  le : k ≤ 31
  nFree : c.nFree = 32 - k
  iFree : c.iFree = k
  isFree : ∀ i < kMaxSize, c.IsFree i ↔ ¬ (i = 0 ∧ 1 ≤ k ∨ 2 ≤ i ∧ i ≤ k)

namespace FilledTo

variable {k : ℕ}

theorem iFree_lt (h : c.FilledTo k) : c.iFree < kMaxSize := by
  have := h.le
  simp only [h.iFree, kMaxSize]
  omega

theorem card (h : c.FilledTo k) : c.freeBuffers.card = 32 - k := by
  have hcount : ∀ k < 32, ((Finset.range 32).filter fun i =>
      ¬ (i = 0 ∧ 1 ≤ k ∨ 2 ≤ i ∧ i ≤ k)).card = 32 - k := by decide +kernel
  have hfree : c.freeBuffers = (Finset.range 32).filter fun i =>
      ¬ (i = 0 ∧ 1 ≤ k ∨ 2 ≤ i ∧ i ≤ k) := by
    ext i
    rw [mem_freeBuffers, Finset.mem_filter, Finset.mem_range]
    exact and_congr_right fun hi => h.isFree i hi
  rw [hfree, hcount k (by have := h.le; omega)]

/-- The search passes buffer 0 once that is full. -/
theorem firstFree (h : c.FilledTo k) : c.firstFree = if k = 0 then 0 else 1 := by
  have h₀ : c.IsFree 0 ↔ k = 0 := by
    rw [h.isFree 0 (by decide)]
    omega
  rw [firstFree_eq fun _ => (h.isFree 1 (by decide)).2 (by omega)]
  exact if_congr h₀ rfl rfl

theorem lockIndex (h : c.FilledTo k) :
    c.lockIndex = if k = 0 then 0 else if k = 31 then 0 else k + 1 := by
  have := h.le
  rw [TDataBuffersContainer.lockIndex, h.iFree, h.firstFree, kMaxSize]
  split_ifs <;> omega

/-- A container that differs in nothing the description is about. -/
theorem congr {c' : TDataBuffersContainer} (h : c.FilledTo k) (hn : c'.nFree = c.nFree)
    (hi : c'.iFree = c.iFree) (hfree : ∀ i, c'.IsFree i ↔ c.IsFree i) : c'.FilledTo k where
  le := h.le
  nFree := hn.trans h.nFree
  iFree := hi.trans h.iFree
  isFree i hlt := (hfree i).trans (h.isFree i hlt)

/-- One more search, with anything written to the buffer. -/
theorem next (h : c.FilledTo k) (hk : k ≤ 30) (b : TDataBuffer) :
    (c.takeFree.setBuffer c.lockIndex ⟨b, .stFull⟩).FilledTo (k + 1) where
  le := by omega
  nFree := by
    change c.nFree - 1 = _
    rw [h.nFree]
    omega
  iFree := by
    change succIndex c.iFree = _
    rw [succIndex_eq h.iFree_lt, h.iFree, kMaxSize]
    omega
  isFree i hlt := by
    have hi : c.takeFree.IsFree i ↔ _ := h.isFree i hlt
    rw [isFree_setBuffer_full, hi, h.lockIndex]
    split_ifs <;> omega

/-- The 32nd search marks a full buffer. -/
theorem card_last (h : c.FilledTo 31) (b : TDataBuffer) :
    (c.takeFree.setBuffer c.lockIndex ⟨b, .stFull⟩).nFree ≠
      (c.takeFree.setBuffer c.lockIndex ⟨b, .stFull⟩).freeBuffers.card := by
  have hzero : (0 : ℕ) ∉ c.takeFree.freeBuffers := by
    intro hmem
    exact (h.isFree 0 (by decide)).1 (mem_freeBuffers.1 hmem).2 (by omega)
  have hcard : c.takeFree.freeBuffers.card = 1 := h.card
  have hindex : c.lockIndex = 0 := by
    rw [h.lockIndex]
    rfl
  rw [hindex, freeBuffers_setBuffer_full, Finset.erase_eq_of_notMem hzero, hcard]
  change c.nFree - 1 ≠ 1
  rw [h.nFree]
  omega

/-- A release of a full buffer leaves the count behind. -/
theorem card_release {n : ℕ} (h : c.FilledTo k) (hn : n < kMaxSize) (hfull : ¬ c.IsFree n) :
    (c.releaseBuffer n).nFree ≠ (c.releaseBuffer n).freeBuffers.card := by
  have hle := h.le
  have hcount : (c.releaseBuffer n).nFree = c.nFree := by
    rw [releaseBuffer_of_full hfull]
    simp only [setBuffer, countFree, releaseFull, h.nFree, kMaxSize]
    split_ifs <;> omega
  have hcard : (c.releaseBuffer n).freeBuffers.card = c.freeBuffers.card + 1 := by
    rw [releaseBuffer_of_full hfull, freeBuffers_setBuffer_free hn]
    exact Finset.card_insert_of_notMem fun hmem => hfull (mem_freeBuffers.1 hmem).2
  rw [hcount, hcard, h.nFree, h.card]
  omega

/-- Release of a free buffer. -/
theorem release {n : ℕ} (h : c.FilledTo k) (hfree : c.IsFree n) :
    (c.releaseBuffer n).FilledTo k := by
  rw [releaseBuffer_of_free hfree]
  refine h.congr rfl rfl fun i => ?_
  rw [isFree_setBuffer_free]
  constructor
  · rintro (rfl | hi)
    · exact hfree
    · exact hi
  · exact .inr

end FilledTo

theorem filledTo_init (memory : ℕ → TDataBuffer) : (init memory).FilledTo 0 where
  le := by omega
  nFree := rfl
  iFree := rfl
  isFree i _ := ⟨fun _ => by omega, fun _ => rfl⟩

theorem filledTo_reset (c : TDataBuffersContainer) : c.reset.FilledTo 0 where
  le := by omega
  nFree := rfl
  iFree := rfl
  isFree i _ := ⟨fun _ => by omega, fun _ => rfl⟩

end TDataBuffersContainer

/-! ## The count along runs -/

namespace Store

open TDataBuffersContainer

variable {s : Store} {k : ℕ}

/-- The count of free buffers is right, and once no block is left to acknowledge there is room for
32 more. -/
def Accounted (s : Store) : Prop :=
  s.container.nFree = s.container.freeBuffers.card ∧ (s.stored = [] → s.container.Room)

/-- The operations that keep the count right: a search with at least two buffers on the count, for
a block that fits unless another is waiting for its acknowledge; an acknowledge that finds a free
buffer, if any, and does not acknowledge the last stored block. -/
def Counts (s : Store) : Op → Prop
  | .writeBuffer buffer dataId => dataId = kDataId.toUInt32 →
      2 ≤ s.container.nFree ∧ (buffer.dataSize ≤ kMaxDataSize ∨ s.stored ≠ [])
  | .message msg _ => msg.word 2 = msgAppDataAcknowledge →
      (∀ n, s.container.findPacket (msg.word 6) = some n → s.container.IsFree n) ∧
        (s.stored ≠ [] → ∃ e ∈ s.stored, e.2.packet ≠ msg.word 6)
  | .reset => True

/-- What is carried along a run with a right count. -/
def Filling (s : Store) : Prop := ∃ k, s.container.FilledTo k ∧ (s.stored = [] ↔ k = 0)

theorem accounted_iff (h : s.container.FilledTo k) : s.Accounted ↔ (s.stored = [] → k = 0) := by
  have hle := h.le
  have hcount : s.container.nFree = s.container.freeBuffers.card := by rw [h.nFree, h.card]
  have hroom : s.container.Room ↔ k = 0 := by
    rw [room_iff h.iFree_lt hcount, h.nFree, kMaxSize]
    omega
  rw [Accounted, hroom]
  exact and_iff_right hcount

theorem Filling.accounted (h : s.Filling) : s.Accounted := by
  obtain ⟨k, hk, hstored⟩ := h
  exact (accounted_iff hk).2 hstored.1

/-- What a search leaves behind. -/
theorem step_writeBuffer (h : s.container.FilledTo k) (buffer : TDataBuffer) :
    ∃ b, (s.step (.writeBuffer buffer kDataId.toUInt32)).container =
        s.container.takeFree.setBuffer s.container.lockIndex ⟨b, .stFull⟩ ∧
      ((s.step (.writeBuffer buffer kDataId.toUInt32)).stored = [] ↔
        ¬ (buffer.dataSize ≤ kMaxDataSize ∨ s.stored ≠ [])) := by
  have hle := h.le
  have hpos : 0 < s.container.freeBuffers.card := by rw [h.card]; omega
  have hwrite := writeBuffer_eq h.iFree_lt buffer
  rw [if_neg (by rw [h.nFree]; omega), if_pos (firstFree_lt_of_card hpos)] at hwrite
  simp only [step]
  by_cases hsize : buffer.dataSize ≤ kMaxDataSize
  · rw [if_pos hsize] at hwrite
    rw [hwrite, if_pos (by simp only [serviceInfoSize]; omega)]
    exact ⟨_, rfl, by simp [hsize]⟩
  · rw [if_neg hsize] at hwrite
    rw [hwrite, if_neg (show ¬ kIncorrectSize > 0 by decide)]
    exact ⟨_, rfl, by simp [hsize]⟩

/-- A message either releases a full buffer or leaves the buffers as they are. -/
theorem step_message (h : s.container.FilledTo k) (msg : Mem) (src : UInt16) :
    (¬ (s.step (.message msg src)).Accounted ∧ ¬ s.Counts (.message msg src)) ∨
      (s.step (.message msg src)).container.FilledTo k ∧
        (s.Counts (.message msg src) ↔
          ((s.step (.message msg src)).stored = [] → s.stored = [])) := by
  -- the stored blocks that are left, and the condition on them
  have hstored : (s.step (.message msg src)).stored = [] ↔ ∀ e ∈ s.stored, Acks msg e.2 := by
    simp [step, List.filter_eq_nil_iff]
  have hcounts : (msg.word 2 = msgAppDataAcknowledge →
        (s.stored ≠ [] → ∃ e ∈ s.stored, e.2.packet ≠ msg.word 6)) ↔
      ((s.step (.message msg src)).stored = [] → s.stored = []) := by
    rw [hstored]
    constructor
    · intro hcond hall
      by_contra hne
      obtain ⟨e, he, hpn⟩ := hcond (hall _ (List.getLast_mem hne)).1 hne
      exact hpn (hall e he).2
    · intro hcond hack hne
      by_contra hno
      push Not at hno
      exact hne (hcond fun e he => ⟨hack, hno e he⟩)
  obtain ⟨hack, n, hfind, heq⟩ | ⟨hnone, j, heq⟩ := s.container.extMsgAppTypeHandler_cases msg src
  · by_cases hfree : s.container.IsFree n
    · refine .inr ⟨by simp only [step, heq]; exact h.release hfree, ?_⟩
      rw [← hcounts]
      refine forall_congr' fun _ => and_iff_right fun n' hn' => ?_
      rw [hfind, Option.some.injEq] at hn'
      exact hn' ▸ hfree
    · refine .inl ⟨fun hacc => ?_, fun hcond => hfree ((hcond hack).1 n hfind)⟩
      have hcount := hacc.1
      simp only [step, heq] at hcount
      exact h.card_release (findPacket_spec hfind).1 hfree hcount
  · refine .inr ⟨by simp only [step, heq]; exact h.congr rfl rfl fun _ => Iff.rfl, ?_⟩
    rw [← hcounts]
    refine forall_congr' fun hack => and_iff_right fun n hn => ?_
    rw [hnone hack] at hn
    cases hn

/-- **One operation** keeps the count right exactly when it is one of those that count. -/
theorem accounted_step (h : s.Filling) (op : Op) : (s.step op).Accounted ↔ s.Counts op := by
  obtain ⟨k, hk, hstored⟩ := id h
  have hle := hk.le
  cases op with
  | writeBuffer buffer dataId =>
    by_cases hid : dataId = kDataId.toUInt32
    · subst hid
      obtain ⟨b, hc, hs⟩ := step_writeBuffer hk buffer
      by_cases hlast : k ≤ 30
      · have hnext := hk.next hlast b
        rw [← hc] at hnext
        rw [accounted_iff hnext, hs]
        simp only [Counts, hk.nFree]
        refine ⟨fun hcond _ => ⟨by omega, ?_⟩, fun hcond hno => absurd (hcond trivial).2 hno⟩
        by_contra hno
        exact absurd (hcond hno) (by omega)
      · obtain rfl : k = 31 := by omega
        refine iff_of_false (fun hacc => ?_) fun hcond => ?_
        · have hcount := hacc.1
          rw [hc] at hcount
          exact hk.card_last b hcount
        · have := (hcond rfl).1
          rw [hk.nFree] at this
          omega
    · rw [step_of_ne hid]
      exact iff_of_true h.accounted fun hid' => absurd hid' hid
  | message msg src =>
    obtain ⟨hno, hno'⟩ | ⟨hk', hcond⟩ := step_message hk msg src
    · exact iff_of_false hno hno'
    · rw [accounted_iff hk', hcond, hstored]
  | reset => exact iff_of_true ((accounted_iff (filledTo_reset _)).2 fun _ => rfl) trivial

/-- The operations that count keep the order in which the buffers fill. -/
theorem filling_step (h : s.Filling) {op : Op} (hop : s.Counts op) : (s.step op).Filling := by
  obtain ⟨k, hk, hstored⟩ := id h
  cases op with
  | writeBuffer buffer dataId =>
    by_cases hid : dataId = kDataId.toUInt32
    · subst hid
      obtain ⟨b, hc, hs⟩ := step_writeBuffer hk buffer
      obtain ⟨htwo, hfit⟩ := hop rfl
      rw [hk.nFree] at htwo
      refine ⟨k + 1, by rw [hc]; exact hk.next (by omega) b, ?_⟩
      exact iff_of_false (fun hnil => hs.1 hnil hfit) (by omega)
    · rw [step_of_ne hid]
      exact h
  | message msg src =>
    obtain ⟨-, hno⟩ | ⟨hk', hcond⟩ := step_message hk msg src
    · exact absurd hop hno
    · refine ⟨k, hk', ?_⟩
      rw [← hstored]
      refine ⟨hcond.1 hop, fun hnil => ?_⟩
      simp [step, hnil]
  | reset => exact ⟨0, filledTo_reset _, iff_of_true rfl rfl⟩

/-- **Counting the free buffers.** Along a run from any initial memory, `nFree` is the number of
free buffers after every operation and, whenever every stored block has been acknowledged, 32 more
blocks can be stored, exactly when the run consists of operations that count: searches with at
least two buffers on the count, for blocks that fit unless a stored block is waiting for its
acknowledge, and acknowledges that find no full buffer and leave some stored block
unacknowledged. -/
theorem accounting_iff (memory : ℕ → TDataBuffer) (ops : List Op) :
    (∀ pre, pre <+: ops → (Run.final step (init memory) pre).Accounted) ↔
      ∀ m ∈ Run.steps step (init memory) ops, m.1.Counts m.2 :=
  Run.forall_prefix_iff (fun _ h => h.accounted) (fun _ op h => accounted_step h op)
    (fun _ _ h hop => filling_step h hop) ⟨0, filledTo_init memory, iff_of_true rfl rfl⟩

/-- One block is stored and acknowledged: all buffers are free, and the count is 31. -/
theorem not_accounting_acknowledge :
    ¬ ∀ pre, pre <+: [write 1, acknowledge 1] → (Run.final step blank pre).Accounted := by
  intro h
  have hcount := (h _ List.prefix_rfl).1
  revert hcount
  decide +kernel

end Store

end KS3.Buffers
