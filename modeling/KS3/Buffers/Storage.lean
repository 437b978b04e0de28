import KS3.Buffers.DataBuffers

/-!
# Stored blocks

What `writeBuffer`, a message and a reset do to the container and to the blocks that are stored and
not yet acknowledged. `lockFreeBuffer` is to return a free buffer whenever there is one (`LockOk`).

* `writeBuffer_eq`, `extMsgAppTypeHandler_cases`: what the operations do;
* `lockOk_iff`: when a search is right;
* `intact_final`: along a run whose searches are all right, every block that is stored and not
  acknowledged stays as it was written.
-/

namespace KS3.Buffers

/-- Two blocks with the same number, size and tick, and the same samples. -/
structure TDataBuffer.Same (a b : TDataBuffer) : Prop where
  packet : a.packet = b.packet
  size : a.size = b.size
  sync : a.sync = b.sync
  data : a.data.read 0 a.dataSize = b.data.read 0 b.dataSize

/-- A copied block is the block. -/
theorem TDataBuffer.copy_same (b buffer : TDataBuffer) :
    (b.copy buffer buffer.dataSize).Same buffer where
  packet := rfl
  size := rfl
  sync := rfl
  data := by
    have hsize : (b.copy buffer buffer.dataSize).dataSize =
        (buffer.data.read 0 buffer.dataSize).length := by
      rw [Mem.length_read]
      rfl
    rw [hsize]
    exact b.data.read_write 0 _

namespace TDataBuffersContainer

variable {c : TDataBuffersContainer} {n i : ℕ} {b : BufferInfo}

theorem setBuffer_self (c : TDataBuffersContainer) (n : ℕ) (b : BufferInfo) :
    (c.setBuffer n b).buffers n = b := Function.update_self ..

theorem setBuffer_of_ne (h : i ≠ n) : (c.setBuffer n b).buffers i = c.buffers i :=
  Function.update_of_ne h ..

theorem isFree_setBuffer_full {b : TDataBuffer} :
    (c.setBuffer n ⟨b, .stFull⟩).IsFree i ↔ i ≠ n ∧ c.IsFree i := by
  by_cases h : i = n
  · subst h
    simp [IsFree, setBuffer_self]
  · simp [IsFree, setBuffer_of_ne h, h]

theorem isFree_setBuffer_free {b : TDataBuffer} :
    (c.setBuffer n ⟨b, .stFree⟩).IsFree i ↔ i = n ∨ c.IsFree i := by
  by_cases h : i = n
  · subst h
    simp [IsFree, setBuffer_self]
  · simp [IsFree, setBuffer_of_ne h, h]

/-- The first free buffer, where one of the first two is free. -/
theorem firstFree_eq (h : ¬ c.IsFree 0 → c.IsFree 1) :
    c.firstFree = if c.IsFree 0 then 0 else 1 := by
  by_cases h₀ : c.IsFree 0
  · rw [if_pos h₀]
    by_contra hne
    exact not_isFree_of_lt_firstFree (Nat.pos_of_ne_zero hne) h₀
  · rw [if_neg h₀]
    have hlt : c.firstFree < kMaxSize := firstFree_lt_iff.2 ⟨1, by decide, h h₀⟩
    have hpos : c.firstFree ≠ 0 := fun heq => h₀ (heq ▸ isFree_firstFree hlt)
    by_contra hne
    exact not_isFree_of_lt_firstFree (show 1 < c.firstFree by omega) (h h₀)

/-- The container with a block written to a buffer. -/
def fill (c : TDataBuffersContainer) (n : ℕ) (buffer : TDataBuffer) : TDataBuffersContainer :=
  c.setBuffer n ⟨(c.buffers n).buffer.copy buffer buffer.dataSize, .stFull⟩

/-- **What `writeBuffer` does** with a block of the right type. -/
theorem writeBuffer_eq (hi : c.iFree < kMaxSize) (buffer : TDataBuffer) :
    c.writeBuffer buffer kDataId.toUInt32 =
      if c.nFree = 0 then (kNoBuffers, c)
      else if c.firstFree < kMaxSize then
        if buffer.dataSize ≤ kMaxDataSize then
          (serviceInfoSize + buffer.dataSize, c.takeFree.fill c.lockIndex buffer)
        else (kIncorrectSize, c.takeFree.markFull c.lockIndex)
      else (kNoBuffers, c.takeFree) := by
  rw [writeBuffer, if_neg (by simp), lockFreeBuffer_eq hi]
  by_cases h₀ : c.nFree = 0
  · rw [if_pos h₀, if_pos h₀]
  rw [if_neg h₀, if_neg h₀]
  by_cases hfree : c.firstFree < kMaxSize
  · rw [if_pos hfree, if_pos hfree]
    by_cases hsize : buffer.dataSize ≤ kMaxDataSize
    · simp only [if_pos hsize, markFull, fill, setBuffer, Function.update_self,
        Function.update_idem, TDataBuffer.copy]
    · simp only [if_neg hsize]
  · rw [if_neg hfree, if_neg hfree]

theorem writeBuffer_of_ne {buffer : TDataBuffer} {dataId : UInt32}
    (h : dataId ≠ kDataId.toUInt32) : c.writeBuffer buffer dataId = (kIncorrectId, c) := by
  rw [writeBuffer, if_pos h]

/-- A request changes at most `iFull`. -/
theorem handleMsgRequestData_eq (c : TDataBuffersContainer) (seq : UInt8) :
    ∃ k, (c.handleMsgRequestData seq).2 = { c with iFull := k } := by
  rw [handleMsgRequestData, getFullBufferSortBySync]
  split
  · rename_i heq
    split at heq
    · simp only [Prod.mk.injEq] at heq
      exact ⟨_, heq.2.symm⟩
    · cases heq
  · rename_i heq
    split at heq
    · cases heq
    · simp only [Prod.mk.injEq] at heq
      exact ⟨c.iFull, heq.2.symm⟩

/-- **What a message does** to the container: an acknowledge releases the first buffer with the
packet number, if there is one; other messages change at most `iFull`. -/
theorem extMsgAppTypeHandler_cases (c : TDataBuffersContainer) (msg : Mem) (src : UInt16) :
    (msg.word 2 = msgAppDataAcknowledge ∧ ∃ n, c.findPacket (msg.word 6) = some n ∧
      (c.extMsgAppTypeHandler msg src).2 = c.releaseBuffer n) ∨
    ((msg.word 2 = msgAppDataAcknowledge → c.findPacket (msg.word 6) = none) ∧
      ∃ k, (c.extMsgAppTypeHandler msg src).2 = { c with iFull := k }) := by
  rw [extMsgAppTypeHandler]
  by_cases hreq : msg.word 2 = msgAppRequestData
  · have hack : msg.word 2 ≠ msgAppDataAcknowledge := by rw [hreq]; decide
    rw [if_pos hreq]
    refine .inr ⟨fun h => absurd h hack, ?_⟩
    split
    · exact ⟨c.iFull, rfl⟩
    · exact c.handleMsgRequestData_eq _
  rw [if_neg hreq]
  by_cases hack : msg.word 2 = msgAppDataAcknowledge
  · rw [if_pos hack, handleMsgDataAcknowledge, releaseBufferByPacketNumber]
    cases hfind : c.findPacket (msg.word 6) with
    | some n => exact .inl ⟨hack, n, rfl, rfl⟩
    | none => exact .inr ⟨fun _ => rfl, c.iFull, rfl⟩
  · rw [if_neg hack]
    exact .inr ⟨fun h => absurd h hack, c.iFull, rfl⟩

theorem buffers_releaseBuffer_of_ne (h : i ≠ n) :
    (c.releaseBuffer n).buffers i = c.buffers i := by
  by_cases hfree : c.IsFree n
  · rw [releaseBuffer_of_free hfree, setBuffer_of_ne h]
  · rw [releaseBuffer_of_full hfree, setBuffer_of_ne h]
    rfl

theorem iFree_releaseBuffer (hi : c.iFree < kMaxSize) (hn : n < kMaxSize) :
    (c.releaseBuffer n).iFree < kMaxSize := by
  by_cases hfree : c.IsFree n
  · rw [releaseBuffer_of_free hfree]
    exact hi
  · rw [releaseBuffer_of_full hfree]
    simp only [setBuffer, countFree, releaseFull]
    split_ifs <;> assumption

end TDataBuffersContainer

namespace Store

open TDataBuffersContainer

variable {s : Store}

/-- A block lies in its buffer as it was written. -/
def IntactAt (c : TDataBuffersContainer) (e : ℕ × TDataBuffer) : Prop :=
  ¬ c.IsFree e.1 ∧ (c.buffers e.1).buffer.Same e.2

/-- All stored blocks lie in their buffers as they were written. -/
def Intact (s : Store) : Prop := ∀ e ∈ s.stored, IntactAt s.container e

/-- A search that returns a free buffer if there is one, and fails only if there is none. -/
def LockOk (c : TDataBuffersContainer) : Prop :=
  (∀ i ∈ c.lockFreeBuffer.1, c.IsFree i) ∧
    (c.lockFreeBuffer.1 = none → ∀ i < kMaxSize, ¬ c.IsFree i)

/-- Where some buffer is free, the search is right if the count is not zero and the buffer it goes
for is free. -/
theorem lockOk_iff {c : TDataBuffersContainer} (hi : c.iFree < kMaxSize)
    (hfree : c.firstFree < kMaxSize) : LockOk c ↔ c.nFree ≠ 0 ∧ c.IsFree c.lockIndex := by
  have hsome : ¬ ∀ i < kMaxSize, ¬ c.IsFree i := by
    obtain ⟨i, hlt, hi⟩ := firstFree_lt_iff.1 hfree
    exact fun hnone => hnone i hlt hi
  rw [LockOk, lockFreeBuffer_eq hi]
  by_cases h₀ : c.nFree = 0
  · simp [h₀, hsome]
  · simp [h₀, hfree]

/-- A block of another type changes nothing. -/
theorem step_of_ne {buffer : TDataBuffer} {dataId : UInt32} (h : dataId ≠ kDataId.toUInt32) :
    s.step (.writeBuffer buffer dataId) = s := by
  simp only [step, writeBuffer_of_ne h]
  rw [if_neg (show ¬ kIncorrectId > 0 by decide)]

/-- The index of the next free buffer is an index, whatever the operation. -/
theorem iFree_step (hi : s.container.iFree < kMaxSize) (op : Op) :
    (s.step op).container.iFree < kMaxSize := by
  cases op with
  | writeBuffer buffer dataId =>
    by_cases hid : dataId = kDataId.toUInt32
    · subst hid
      simp only [step, writeBuffer_eq hi]
      split_ifs
      · exact hi
      · exact succIndex_lt _
      · exact succIndex_lt _
      · exact succIndex_lt _
    · rw [step_of_ne hid]
      exact hi
  | message msg src =>
    simp only [step]
    obtain ⟨-, n, hfind, heq⟩ | ⟨-, k, heq⟩ := s.container.extMsgAppTypeHandler_cases msg src
    · rw [heq]
      exact iFree_releaseBuffer hi (findPacket_spec hfind).1
    · rw [heq]
      exact hi
  | reset => exact (by decide : 0 < kMaxSize)

/-- What happens to other buffers leaves a block intact. -/
theorem IntactAt.congr {c c' : TDataBuffersContainer} {e : ℕ × TDataBuffer} (h : IntactAt c e)
    (heq : c'.buffers e.1 = c.buffers e.1) : IntactAt c' e := by
  simp only [IntactAt, IsFree, heq]
  exact h

/-- A search that is right keeps the stored blocks, and the block it is for is stored. -/
theorem intact_writeBuffer (hi : s.container.iFree < kMaxSize) (h : s.Intact)
    (hok : LockOk s.container) (buffer : TDataBuffer) :
    (s.step (.writeBuffer buffer kDataId.toUInt32)).Intact := by
  have hlock := lockFreeBuffer_eq hi
  have hwrite := writeBuffer_eq hi buffer
  simp only [step, Intact]
  by_cases h₀ : s.container.nFree = 0
  · rw [if_pos h₀] at hwrite
    rw [hwrite, if_neg (show ¬ kNoBuffers > 0 by decide)]
    exact h
  by_cases hfree : s.container.firstFree < kMaxSize
  swap
  · rw [if_neg h₀, if_neg hfree] at hwrite
    rw [hwrite, if_neg (show ¬ kNoBuffers > 0 by decide)]
    exact h
  rw [if_neg h₀, if_pos hfree] at hwrite hlock
  -- the buffer taken is free, and those of the stored blocks are not
  have hindex : s.container.IsFree s.container.lockIndex :=
    ((lockOk_iff hi hfree).1 hok).2
  have hother : ∀ e ∈ s.stored, e.1 ≠ s.container.lockIndex := by
    rintro e he heq
    exact (h e he).1 (heq ▸ hindex)
  by_cases hsize : buffer.dataSize ≤ kMaxDataSize
  · rw [if_pos hsize] at hwrite
    rw [hwrite, hlock, if_pos (by simp only [serviceInfoSize]; omega), List.forall_mem_append]
    refine ⟨fun e he => (h e he).congr (setBuffer_of_ne (hother e he)), ?_⟩
    rw [List.forall_mem_singleton]
    refine ⟨?_, ?_⟩
    · simp only [Option.getD_some, IsFree, fill, setBuffer_self]
      decide
    · simp only [Option.getD_some, fill, setBuffer_self]
      exact TDataBuffer.copy_same ..
  · rw [if_neg hsize] at hwrite
    rw [hwrite, if_neg (show ¬ kIncorrectSize > 0 by decide)]
    exact fun e he => (h e he).congr (setBuffer_of_ne (hother e he))

/-- An acknowledge may only release a block it acknowledges. -/
theorem intact_message (h : s.Intact) (msg : Mem) (src : UInt16) :
    (s.step (.message msg src)).Intact := by
  intro e he
  simp only [step, List.mem_filter, decide_eq_true_eq] at he
  obtain ⟨he, hack⟩ := he
  obtain ⟨hmsg, n, hfind, heq⟩ | ⟨-, k, heq⟩ := s.container.extMsgAppTypeHandler_cases msg src
  · refine (h e he).congr ?_
    simp only [step, heq]
    refine buffers_releaseBuffer_of_ne ?_
    rintro rfl
    exact hack ⟨hmsg, (h e he).2.packet.symm.trans (findPacket_spec hfind).2⟩
  · exact (h e he).congr (by simp only [step, heq])

/-- A step whose search is right keeps the stored blocks. -/
theorem intact_step (hi : s.container.iFree < kMaxSize) (h : s.Intact) {op : Op}
    (hok : Locks op → LockOk s.container) : (s.step op).Intact := by
  cases op with
  | writeBuffer buffer dataId =>
    by_cases hid : dataId = kDataId.toUInt32
    · subst hid
      exact intact_writeBuffer hi h (hok rfl) buffer
    · rw [step_of_ne hid]
      exact h
  | message msg src => exact intact_message h msg src
  | reset => exact fun e he => absurd he (by simp [step])

/-- **Stored blocks along a run** stay as they were written if every search is right. -/
theorem intact_final (memory : ℕ → TDataBuffer) {ops : List Op}
    (h : ∀ m ∈ Run.steps step (init memory) ops, Locks m.2 → LockOk m.1.container) :
    (Run.final step (init memory) ops).Intact := by
  refine (Run.invariant_final (I := fun s : Store => s.container.iFree < kMaxSize ∧ s.Intact)
    (A := fun s op => Locks op → LockOk s.container) ?_ ⟨(by decide : 0 < kMaxSize), ?_⟩ h).2
  · exact fun s op hs hok => ⟨iFree_step hs.1 op, intact_step hs.1 hs.2 hok⟩
  · exact fun e he => absurd he List.not_mem_nil

end Store

end KS3.Buffers
