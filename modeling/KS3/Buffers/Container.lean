import KS3.Foundations.Memory

/-!
# The container of data buffers

`TDataBuffersContainer` holds 32 buffers, each free or full, together with counters of both kinds
and two moving indices. The counters and the indices are kept by hand beside the states of the
buffers, and nothing in the class compares them with each other; the model keeps them apart in the
same way.

The search in `lockFreeBuffer` looks at the buffers from the first one on, while the index it
returns starts at `iFree` and is advanced once for each full buffer it passes. `lockFreeBuffer_eq`
says what comes out of that.
-/

namespace KS3.Buffers

/-! ## Data -/

/-- `TDataBuffer`: a block of samples. -/
structure TDataBuffer where
  packet : UInt16
  size : UInt16
  sync : UInt32
  data : Mem

/-- `TDataBuffer::kMaxDataSize`, the octets a buffer has for samples. -/
def kMaxDataSize : ℕ := 504

/-- `TDataBuffer::getServiceInfoSize()`. -/
def serviceInfoSize : ℕ := 8

/-- The states of a buffer. -/
inductive BufferState
  | stFree
  | stFull
  deriving DecidableEq

/-- `buffer_info_t`. -/
structure BufferInfo where
  buffer : TDataBuffer
  state : BufferState

/-- `TDataBuffersContainer::kMaxSize`, which is also the member `size`. -/
def kMaxSize : ℕ := 32

/-- The members of `TDataBuffersContainer` that change. -/
structure TDataBuffersContainer where
  buffers : ℕ → BufferInfo
  nFree : ℕ
  nFull : ℕ
  iFree : ℕ
  iFull : ℕ

namespace TDataBuffersContainer

/-- The container after construction and `data_buffers::init`, on memory with any contents. -/
def init (memory : ℕ → TDataBuffer) : TDataBuffersContainer where
  buffers i := ⟨memory i, .stFree⟩
  nFree := kMaxSize
  nFull := 0
  iFree := 0
  iFull := 0

/-- Replace what is known of one buffer. -/
def setBuffer (c : TDataBuffersContainer) (n : ℕ) (b : BufferInfo) : TDataBuffersContainer :=
  { c with buffers := Function.update c.buffers n b }

/-- Whether a buffer is free. -/
def IsFree (c : TDataBuffersContainer) (i : ℕ) : Prop := (c.buffers i).state = .stFree

instance (c : TDataBuffersContainer) (i : ℕ) : Decidable (c.IsFree i) :=
  inferInstanceAs (Decidable ((c.buffers i).state = .stFree))

/-- `reset`. -/
def reset (c : TDataBuffersContainer) : TDataBuffersContainer where
  buffers i := { c.buffers i with state := .stFree }
  nFree := kMaxSize
  nFull := 0
  iFree := 0
  iFull := 0

/-- The next index, cyclically: `if(++index >= size) index = 0`. -/
def succIndex (index : ℕ) : ℕ := if index + 1 ≥ kMaxSize then 0 else index + 1

/-- The `for` loop of `lockFreeBuffer` with `n` buffers still to look at: the values of `i` and
`index` after it. -/
def searchFree (c : TDataBuffersContainer) : ℕ → ℕ → ℕ → ℕ × ℕ
  | 0, i, index => (i, index)
  | n + 1, i, index =>
    if c.IsFree i then (i, index) else searchFree c n (i + 1) (succIndex index)

/-- `lockFreeBuffer`: the index it returns, nothing for `kRcErr`, and the container after it. -/
def lockFreeBuffer (c : TDataBuffersContainer) : Option ℕ × TDataBuffersContainer :=
  if c.nFree = 0 then
    (none, c)
  else
    let (i, index) := c.searchFree kMaxSize 0 c.iFree
    let c := { c with iFree := succIndex c.iFree, nFree := c.nFree - 1 }
    if i < kMaxSize then
      (some index, c.setBuffer index
        ⟨{ (c.buffers index).buffer with packet := 0, size := 0 }, .stFull⟩)
    else
      (none, c)

/-- The part of `releaseBuffer` for a full buffer. -/
def releaseFull (c : TDataBuffersContainer) : TDataBuffersContainer :=
  { c with
    nFree := if c.nFree > 0 then c.nFree - 1 else c.nFree
    iFull := if c.nFull > 0 then (if c.iFull + 1 = kMaxSize then 0 else c.iFull + 1) else c.iFull }

/-- The part of `releaseBuffer` for a buffer that is not free. -/
def countFree (c : TDataBuffersContainer) (n : ℕ) : TDataBuffersContainer :=
  let nFree := if c.nFree < kMaxSize then c.nFree + 1 else c.nFree
  { c with nFree := nFree, iFree := if nFree = 1 then n else c.iFree }

/-- `releaseBuffer`. -/
def releaseBuffer (c : TDataBuffersContainer) (n : ℕ) : TDataBuffersContainer :=
  let b := c.buffers n
  let c := if b.state = .stFull then c.releaseFull else c
  let c := if b.state ≠ .stFree then c.countFree n else c
  c.setBuffer n ⟨{ b.buffer with packet := 0 }, .stFree⟩

/-- The first buffer with a packet number, whatever its state. -/
def findPacket (c : TDataBuffersContainer) (pn : UInt16) : Option ℕ :=
  (List.range kMaxSize).find? fun i => (c.buffers i).buffer.packet = pn

/-- `releaseBufferByPacketNumber`. -/
def releaseBufferByPacketNumber (c : TDataBuffersContainer) (pn : UInt16) :
    Bool × TDataBuffersContainer :=
  match c.findPacket pn with
  | some i => (true, c.releaseBuffer i)
  | none => (false, c)

/-- `getFullBufferSortBySync`: the index it returns, nothing for `kRcErr`. -/
def getFullBufferSortBySync (c : TDataBuffersContainer) : Option ℕ × TDataBuffersContainer :=
  let found := (List.range kMaxSize).foldl (fun (found : UInt32 × Option ℕ) i =>
    if (c.buffers i).state = .stFull ∧ (c.buffers i).buffer.sync < found.1 then
      ((c.buffers i).buffer.sync, some i)
    else
      found) (0xFFFFFFFF, none)
  match found.2 with
  | some index => (some index, { c with iFull := index })
  | none => (none, c)

/-! ## What the search finds -/

/-- The number of full buffers in front of the first free one. -/
def firstFree (c : TDataBuffersContainer) : ℕ := (List.range kMaxSize).findIdx fun i => c.IsFree i

variable {c : TDataBuffersContainer}

theorem firstFree_le (c : TDataBuffersContainer) : c.firstFree ≤ kMaxSize := by
  have h : c.firstFree ≤ (List.range kMaxSize).length := List.findIdx_le_length
  rwa [List.length_range] at h

theorem isFree_firstFree (h : c.firstFree < kMaxSize) : c.IsFree c.firstFree := by
  have hlt : (List.range kMaxSize).findIdx (fun i => decide (c.IsFree i)) <
      (List.range kMaxSize).length := by rwa [List.length_range]
  have hfree := of_decide_eq_true (List.findIdx_getElem (w := hlt))
  rwa [List.getElem_range] at hfree

theorem firstFree_lt_iff : c.firstFree < kMaxSize ↔ ∃ i < kMaxSize, c.IsFree i := by
  constructor
  · exact fun h => ⟨c.firstFree, h, isFree_firstFree h⟩
  · rintro ⟨i, hi, hfree⟩
    have h : c.firstFree < (List.range kMaxSize).length :=
      List.findIdx_lt_length_of_exists ⟨i, List.mem_range.2 hi, by simpa using hfree⟩
    rwa [List.length_range] at h

theorem not_isFree_of_lt_firstFree {i : ℕ} (h : i < c.firstFree) : ¬ c.IsFree i := by
  have hnot := List.not_of_lt_findIdx (p := fun i => decide (c.IsFree i)) h
  simpa using hnot

theorem succIndex_eq {index : ℕ} (h : index < kMaxSize) :
    succIndex index = (index + 1) % kMaxSize := by
  rw [succIndex]
  split <;> simp only [kMaxSize] at * <;> omega

theorem succIndex_lt (index : ℕ) : succIndex index < kMaxSize := by
  rw [succIndex]
  split <;> simp only [kMaxSize] at * <;> omega

/-- The search stops at the first free buffer, with the index advanced as often as a buffer was
passed. -/
theorem searchFree_eq {n i index : ℕ} (hn : i + n = kMaxSize) (hi : i ≤ c.firstFree)
    (hindex : index < kMaxSize) :
    c.searchFree n i index = (c.firstFree, (index + (c.firstFree - i)) % kMaxSize) := by
  have hle := c.firstFree_le
  induction n generalizing i index with
  | zero =>
    have : c.firstFree = i := by omega
    rw [searchFree, this, Nat.sub_self, Nat.add_zero, Nat.mod_eq_of_lt hindex]
  | succ n ih =>
    rw [searchFree]
    by_cases hfree : c.IsFree i
    · have : c.firstFree = i := by
        by_contra hne
        exact not_isFree_of_lt_firstFree (by omega) hfree
      rw [if_pos hfree, this, Nat.sub_self, Nat.add_zero, Nat.mod_eq_of_lt hindex]
    · have hne : i ≠ c.firstFree := by
        rintro rfl
        exact hfree (isFree_firstFree (by omega))
      rw [if_neg hfree, ih (by omega) (by omega) (succIndex_lt index), succIndex_eq hindex]
      have hsum : index + (c.firstFree - i) = index + 1 + (c.firstFree - (i + 1)) := by omega
      rw [hsum, Nat.mod_add_mod]

/-- The buffer `lockFreeBuffer` goes for. -/
def lockIndex (c : TDataBuffersContainer) : ℕ := (c.iFree + c.firstFree) % kMaxSize

/-- The container with a buffer marked full and its packet number and size cleared. -/
def markFull (c : TDataBuffersContainer) (n : ℕ) : TDataBuffersContainer :=
  c.setBuffer n ⟨{ (c.buffers n).buffer with packet := 0, size := 0 }, .stFull⟩

/-- The container with one free buffer less on the count. -/
def takeFree (c : TDataBuffersContainer) : TDataBuffersContainer :=
  { c with iFree := succIndex c.iFree, nFree := c.nFree - 1 }

/-- **What `lockFreeBuffer` does.** It fails without a change where the count is zero, fails with
the count and the index moved where no buffer is free, and otherwise takes the buffer that lies as
far behind `iFree` as the first free buffer lies behind the first one. -/
theorem lockFreeBuffer_eq (hi : c.iFree < kMaxSize) :
    c.lockFreeBuffer =
      if c.nFree = 0 then (none, c)
      else if c.firstFree < kMaxSize then (some c.lockIndex, c.takeFree.markFull c.lockIndex)
      else (none, c.takeFree) := by
  rw [lockFreeBuffer, searchFree_eq (Nat.zero_add _) (Nat.zero_le _) hi, Nat.sub_zero]
  rfl

/-! ## Releasing a buffer -/

/-- A release of a free buffer changes only its packet number. -/
theorem releaseBuffer_of_free {n : ℕ} (h : c.IsFree n) :
    c.releaseBuffer n = c.setBuffer n ⟨{ (c.buffers n).buffer with packet := 0 }, .stFree⟩ := by
  have h' : (c.buffers n).state = .stFree := h
  simp [releaseBuffer, h']

/-- A release of a full buffer. -/
theorem releaseBuffer_of_full {n : ℕ} (h : ¬ c.IsFree n) :
    c.releaseBuffer n = (c.releaseFull.countFree n).setBuffer n
      ⟨{ (c.buffers n).buffer with packet := 0 }, .stFree⟩ := by
  have h' : (c.buffers n).state = .stFull := by
    cases hs : (c.buffers n).state with
    | stFree => exact absurd hs h
    | stFull => rfl
  simp [releaseBuffer, h']

/-- The buffer found for a packet number is a buffer with it. -/
theorem findPacket_spec {pn : UInt16} {n : ℕ} (h : c.findPacket pn = some n) :
    n < kMaxSize ∧ (c.buffers n).buffer.packet = pn := by
  have hmem := List.mem_of_find?_eq_some h
  have hpn := List.find?_some h
  exact ⟨List.mem_range.1 hmem, by simpa using hpn⟩

end TDataBuffersContainer

end KS3.Buffers
