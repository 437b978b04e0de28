import KS3.Foundations.Simulation
import KS3.Foundations.Circular

/-!
# `TBuffer`: a ring of octets

`TBuffer` keeps two indices into an array and a flag `full` for the one case the indices cannot
tell from the empty buffer. Its operations take single octets and blocks; blocks are copied by
`memcpy`, in two pieces when they go past the end of the array. The members are `int16_t` and the
sizes returned are `uint16_t`: `int16` and `uint16` are the conversions.

`Ok` is what the operations keep: indices below the size, and together when the buffer is full
(`ok_step`). Under it `content`, the octets from `iread` on, is what the buffer holds, and there is
one lemma for what each operation does: `writeBlock_eq`, `content_write`, `content_writeBlock`,
`content_read`, `content_readBlock`.
-/

namespace KS3.Comm

/-- The conversion to `int16_t`. -/
def int16 (x : ℤ) : ℤ := (x + 32768) % 65536 - 32768

/-- The conversion to `uint16_t`. -/
def uint16 (x : ℤ) : ℕ := (x % 65536).toNat

/-- `TBuffer`. The array is the memory behind the pointer `buffer`. -/
structure TBuffer where
  buffer : Mem
  size : ℤ
  iread : ℤ
  iwrite : ℤ
  full : Bool

namespace TBuffer

/-! ## The class -/

/-- The constructor of an empty buffer. -/
def init (abuffer : Mem) (asize : UInt16) : TBuffer := ⟨abuffer, int16 asize.toNat, 0, 0, false⟩

/-- The constructor of a buffer on an array that holds `len` octets already. -/
def initFilled (abuffer : Mem) (asize len : UInt16) : TBuffer :=
  ⟨abuffer, int16 asize.toNat, 0, int16 len.toNat, if len = asize then true else false⟩

/-- The copy constructor; the copy works on the same array. -/
def copy (b : TBuffer) : TBuffer := ⟨b.buffer, b.size, b.iread, b.iwrite, b.full⟩

/-- `incrementIRead`. -/
def incrementIRead (b : TBuffer) : TBuffer :=
  let iread := int16 (b.iread + 1)
  { b with iread := if iread ≥ b.size then 0 else iread, full := false }

/-- `incrementIWrite`. -/
def incrementIWrite (b : TBuffer) : TBuffer :=
  let iwrite := int16 (b.iwrite + 1)
  let iwrite := if iwrite ≥ b.size then 0 else iwrite
  { b with iwrite := iwrite, full := if iwrite = b.iread then true else b.full }

/-- `flush`. -/
def flush (b : TBuffer) : TBuffer := { b with iwrite := 0, iread := 0, full := false }

/-- `free`. -/
def free (b : TBuffer) : ℕ :=
  if b.full then 0
  else if b.iread > b.iwrite then uint16 (b.iread - b.iwrite - 1)
  else uint16 (b.size + b.iread - b.iwrite - 1)

/-- `dataSize`. -/
def dataSize (b : TBuffer) : ℕ :=
  if b.full then uint16 b.size
  else if b.iread ≤ b.iwrite then uint16 (b.iwrite - b.iread)
  else uint16 (b.size + b.iwrite - b.iread)

/-- `write(c)`. -/
def write (b : TBuffer) (c : UInt8) : ℕ × TBuffer :=
  if b.full then (0, b)
  else (1, incrementIWrite { b with buffer := b.buffer.store b.iwrite.toNat c })

/-- `write(buf, n)`, the version with `memcpy`. -/
def writeBlock (b : TBuffer) (buf : Mem) (n : UInt16) : ℕ × TBuffer :=
  let n1 := if b.free > n.toNat then n.toNat else b.free
  let b' :=
    if b.iwrite + n1 < b.size then
      { b with
        buffer := b.buffer.write b.iwrite.toNat (buf.read 0 n1)
        iwrite := int16 (b.iwrite + n1) }
    else
      let d := uint16 (b.size - b.iwrite)
      { b with
        buffer := (b.buffer.write b.iwrite.toNat (buf.read 0 d)).write 0 (buf.read d (n1 - d))
        iwrite := int16 (n1 - d) }
  (n1, { b' with full := if b'.iwrite = b'.iread then true else b'.full })

/-- `read()`. -/
def read (b : TBuffer) : UInt8 × TBuffer :=
  if b.dataSize ≠ 0 then (b.buffer b.iread.toNat, b.incrementIRead) else (0, b)

/-- `read(buf, n)`, the version with `memcpy`: what it returns and what it copies to `buf`. -/
def readBlock (b : TBuffer) (n : UInt16) : (ℕ × List UInt8) × TBuffer :=
  let n1 := if b.dataSize > n.toNat then n.toNat else b.dataSize
  if b.iread + n1 < b.size then
    ((n1, b.buffer.read b.iread.toNat n1),
      { b with iread := int16 (b.iread + n1), full := false })
  else
    let d := uint16 (b.size - b.iread)
    ((n1, b.buffer.read b.iread.toNat d ++ b.buffer.read 0 (n1 - d)),
      { b with iread := int16 (n1 - d), full := false })

/-! ## Operations -/

/-- The operations of a buffer; after `copy` it is the copy that is used. -/
inductive Op
  | write (c : UInt8)
  | writeBlock (buf : Mem) (n : UInt16)
  | read
  | readBlock (n : UInt16)
  | flush
  | copy

/-- What an operation gives: the value it returns and the octets it copies to the caller. -/
structure Answer where
  result : ℕ
  delivered : List UInt8

/-- An operation with what it gives. -/
def step (b : TBuffer) : Op → Answer × TBuffer
  | .write c => (⟨(b.write c).1, []⟩, (b.write c).2)
  | .writeBlock buf n => (⟨(b.writeBlock buf n).1, []⟩, (b.writeBlock buf n).2)
  | .read => (⟨b.read.1.toNat, []⟩, b.read.2)
  | .readBlock n => (⟨(b.readBlock n).1.1, (b.readBlock n).1.2⟩, (b.readBlock n).2)
  | .flush => (⟨0, []⟩, b.flush)
  | .copy => (⟨0, []⟩, b.copy)

/-- What the buffer holds: the octets from `iread` on. -/
def content (b : TBuffer) : List UInt8 :=
  Circular.cells b.buffer b.size.toNat b.iread.toNat b.dataSize

@[simp] theorem length_content (b : TBuffer) : b.content.length = b.dataSize :=
  Circular.length_cells ..

/-! ## The invariant -/

/-- The indices stand inside the array, and together when the buffer is full. -/
structure Ok (b : TBuffer) : Prop where
  size_lt : b.size < 32768
  iread_nonneg : 0 ≤ b.iread
  iread_lt : b.iread < b.size
  iwrite_nonneg : 0 ≤ b.iwrite
  iwrite_lt : b.iwrite < b.size
  meet : b.full → b.iread = b.iwrite

theorem Ok.size_pos {b : TBuffer} (h : b.Ok) : 0 < b.size := h.iread_nonneg.trans_lt h.iread_lt

section Spec

variable {b : TBuffer} (h : b.Ok)

include h

theorem dataSize_eq : (b.dataSize : ℤ) =
    if b.full then b.size
    else if b.iread ≤ b.iwrite then b.iwrite - b.iread
    else b.size + b.iwrite - b.iread := by
  obtain ⟨h₁, h₂, h₃, h₄, h₅, -⟩ := h
  rw [dataSize]
  split_ifs <;> rw [uint16] <;> omega

/-- A buffer that is not full counts one octet less than it has room for. -/
theorem free_eq : (b.free : ℤ) = if b.full then 0 else b.size - 1 - b.dataSize := by
  have hsize := dataSize_eq h
  obtain ⟨h₁, h₂, h₃, h₄, h₅, -⟩ := h
  rw [free]
  split_ifs at hsize ⊢ <;> (try rw [uint16]) <;> omega

theorem dataSize_le : (b.dataSize : ℤ) ≤ b.size := by
  have hsize := dataSize_eq h
  obtain ⟨-, h₂, h₃, h₄, h₅, -⟩ := h
  split_ifs at hsize <;> omega

theorem full_iff : b.full ↔ (b.dataSize : ℤ) = b.size := by
  have hsize := dataSize_eq h
  obtain ⟨-, h₂, h₃, h₄, h₅, -⟩ := h
  split_ifs at hsize with hfull
  · exact iff_of_true hfull hsize
  · exact iff_of_false hfull (by omega)
  · exact iff_of_false hfull (by omega)

/-- What is written next comes behind what the buffer holds. -/
theorem iwrite_eq : (b.iread.toNat + b.dataSize) % b.size.toNat = b.iwrite.toNat := by
  have hsize := dataSize_eq h
  obtain ⟨h₁, h₂, h₃, h₄, h₅, hmeet⟩ := h
  split_ifs at hsize with hfull hle
  · have := hmeet hfull
    have hround : b.iread.toNat + b.dataSize = b.iwrite.toNat + b.size.toNat := by omega
    rw [hround, Nat.add_mod_right, Nat.mod_eq_of_lt (by omega)]
  · have hplace : b.iread.toNat + b.dataSize = b.iwrite.toNat := by omega
    rw [hplace, Nat.mod_eq_of_lt (by omega)]
  · have hround : b.iread.toNat + b.dataSize = b.iwrite.toNat + b.size.toNat := by omega
    rw [hround, Nat.add_mod_right, Nat.mod_eq_of_lt (by omega)]

end Spec

/-! ## Octets put in and taken out -/

/-- An index that may have gone past the end of the array, back in it. -/
def turn (size i : ℤ) : ℤ := if i < size then i else i - size

/-- The buffer with octets copied in behind what it holds. -/
def pushed (b : TBuffer) (bs : List UInt8) : TBuffer :=
  { b with
    buffer := Circular.put b.buffer b.size.toNat b.iwrite.toNat bs
    iwrite := turn b.size (b.iwrite + bs.length)
    full := if turn b.size (b.iwrite + bs.length) = b.iread then true else b.full }

/-- The buffer with its first `k` octets left behind. -/
def popped (b : TBuffer) (k : ℕ) : TBuffer :=
  { b with iread := turn b.size (b.iread + k), full := false }

section Fields

variable (b : TBuffer) (bs : List UInt8) (k : ℕ)

@[simp] theorem pushed_size : (b.pushed bs).size = b.size := rfl

@[simp] theorem pushed_iread : (b.pushed bs).iread = b.iread := rfl

theorem pushed_iwrite : (b.pushed bs).iwrite = turn b.size (b.iwrite + bs.length) := rfl

theorem pushed_full : (b.pushed bs).full =
    if turn b.size (b.iwrite + bs.length) = b.iread then true else b.full := rfl

@[simp] theorem popped_size : (b.popped k).size = b.size := rfl

@[simp] theorem popped_buffer : (b.popped k).buffer = b.buffer := rfl

theorem popped_iread : (b.popped k).iread = turn b.size (b.iread + k) := rfl

@[simp] theorem popped_iwrite : (b.popped k).iwrite = b.iwrite := rfl

@[simp] theorem popped_full : (b.popped k).full = false := rfl

end Fields

section Moves

variable {b : TBuffer} (h : b.Ok)

include h

theorem ok_pushed {bs : List UInt8} (hroom : (bs.length : ℤ) + b.dataSize ≤ b.size) :
    (b.pushed bs).Ok := by
  have hsize := dataSize_eq h
  obtain ⟨h₁, h₂, h₃, h₄, h₅, hmeet⟩ := h
  refine ⟨h₁, h₂, h₃, ?_, ?_, ?_⟩
  · simp only [pushed, turn]
    split_ifs <;> omega
  · simp only [pushed, turn]
    split_ifs <;> omega
  · intro hfull
    simp only [pushed] at hfull ⊢
    split_ifs at hfull with hturn
    · exact hturn.symm
    · rw [if_pos hfull] at hsize
      have hnone : (bs.length : ℤ) = 0 := by omega
      rw [hnone, add_zero, turn, if_pos h₅]
      exact hmeet hfull

theorem ok_popped {k : ℕ} (hk : k ≤ b.dataSize) : (b.popped k).Ok := by
  have hle := dataSize_le h
  obtain ⟨h₁, h₂, h₃, h₄, h₅, -⟩ := h
  refine ⟨h₁, ?_, ?_, h₄, h₅, Bool.noConfusion⟩
  · simp only [popped, turn]
    split_ifs <;> omega
  · simp only [popped, turn]
    split_ifs <;> omega

/-- Octets copied in are counted, unless none is copied into an empty buffer. -/
theorem dataSize_pushed {bs : List UInt8} (hroom : (bs.length : ℤ) + b.dataSize ≤ b.size)
    (hsome : bs.length ≠ 0 ∨ b.dataSize ≠ 0) :
    (b.pushed bs).dataSize = b.dataSize + bs.length := by
  have hsize := dataSize_eq h
  have hsize' := dataSize_eq (ok_pushed h hroom)
  obtain ⟨h₁, h₂, h₃, h₄, h₅, hmeet⟩ := h
  rw [pushed_size, pushed_iread, pushed_iwrite, pushed_full, turn] at hsize'
  by_cases hfull : b.full
  · have := hmeet hfull
    rw [if_pos hfull] at hsize
    rw [hfull, ite_self, if_pos rfl] at hsize'
    omega
  · rw [if_neg hfull] at hsize
    simp only [hfull, Bool.if_true_left, Bool.or_false, decide_eq_true_eq] at hsize'
    split_ifs at hsize hsize' <;> omega

/-- Octets left behind are no longer counted, unless none is left behind of a full buffer. -/
theorem dataSize_popped {k : ℕ} (hk : k ≤ b.dataSize) (hsome : k ≠ 0 ∨ ¬ b.full) :
    (b.popped k).dataSize = b.dataSize - k := by
  have hsize := dataSize_eq h
  have hsize' := dataSize_eq (ok_popped h hk)
  obtain ⟨h₁, h₂, h₃, h₄, h₅, hmeet⟩ := h
  rw [popped_size, popped_iread, popped_iwrite, popped_full, turn,
    if_neg Bool.false_ne_true] at hsize'
  by_cases hfull : b.full
  · have := hmeet hfull
    have hk₀ : k ≠ 0 := hsome.resolve_right fun hnot => hnot hfull
    rw [if_pos hfull] at hsize
    split_ifs at hsize' <;> omega
  · rw [if_neg hfull] at hsize
    split_ifs at hsize hsize' <;> omega

/-- **Octets copied in** come behind what the buffer holds. -/
theorem content_pushed {bs : List UInt8} (hroom : (bs.length : ℤ) + b.dataSize ≤ b.size)
    (hsome : bs.length ≠ 0 ∨ b.dataSize ≠ 0) : (b.pushed bs).content = b.content ++ bs := by
  have hnext := iwrite_eq h
  have hdata := dataSize_pushed h hroom hsome
  obtain ⟨h₁, h₂, h₃, h₄, h₅, -⟩ := h
  have hpos : 0 < b.size.toNat := by omega
  have hroom' : b.dataSize + bs.length ≤ b.size.toNat := by omega
  rw [content, hdata, pushed_size, pushed_iread, Circular.cells_add, hnext]
  exact congrArg₂ _ (Circular.cells_put_before _ hpos hnext hroom')
    (Circular.cells_put _ (by omega) (by omega))

/-- **Octets left behind** are the first ones of what the buffer holds. -/
theorem content_popped {k : ℕ} (hk : k ≤ b.dataSize) (hsome : k ≠ 0 ∨ ¬ b.full) :
    (b.popped k).content = b.content.drop k := by
  have hdata := dataSize_popped h hk hsome
  have hle := dataSize_le h
  obtain ⟨h₁, h₂, h₃, h₄, h₅, -⟩ := h
  have hplace : (turn b.size (b.iread + k)).toNat = (b.iread.toNat + k) % b.size.toNat := by
    rw [turn]
    split_ifs with hlt
    · rw [Nat.mod_eq_of_lt (by omega)]
      omega
    · rw [Nat.mod_eq_sub_mod (by omega), Nat.mod_eq_of_lt (by omega)]
      omega
  have hcut : b.content = Circular.cells b.buffer b.size.toNat b.iread.toNat k ++
      (b.popped k).content := by
    rw [content, content, hdata, popped_size, popped_iread, hplace, popped_buffer,
      ← Circular.cells_add, Nat.add_sub_cancel' hk]
  rw [hcut, List.drop_left' (Circular.length_cells ..)]

omit h in
theorem take_content {k : ℕ} (hk : k ≤ b.dataSize) :
    b.content.take k = Circular.cells b.buffer b.size.toNat b.iread.toNat k := by
  obtain ⟨j, hj⟩ := Nat.exists_eq_add_of_le hk
  rw [content, hj, Circular.cells_add, List.take_left' (Circular.length_cells ..)]

/-! ## The operations -/

theorem write_eq (c : UInt8) :
    b.write c = if b.full then (0, b) else (1, b.pushed [c]) := by
  obtain ⟨h₁, h₂, h₃, h₄, h₅, -⟩ := h
  have hindex : (if int16 (b.iwrite + 1) ≥ b.size then 0 else int16 (b.iwrite + 1)) =
      turn b.size (b.iwrite + 1) := by
    simp only [int16, turn]
    split_ifs <;> omega
  rw [write]
  refine if_congr Iff.rfl rfl ?_
  simp only [incrementIWrite, pushed, hindex, Circular.put_singleton b.buffer
    (show b.iwrite.toNat < b.size.toNat by omega), List.length_singleton, Nat.cast_one]

/-- A block is accepted as far as there is room by the count of `free`. -/
theorem writeBlock_eq (buf : Mem) (n : UInt16) :
    b.writeBlock buf n =
      (min n.toNat b.free, b.pushed (buf.read 0 (min n.toNat b.free))) := by
  have hfree := free_eq h
  obtain ⟨h₁, h₂, h₃, h₄, h₅, -⟩ := h
  have hn1 : (if b.free > n.toNat then n.toNat else b.free) = min n.toNat b.free := by
    split_ifs <;> omega
  have hlt : ((min n.toNat b.free : ℕ) : ℤ) < b.size := by
    split_ifs at hfree <;> omega
  simp only [writeBlock, hn1, Prod.mk.injEq, true_and]
  generalize min n.toNat b.free = k at hlt
  by_cases hin : b.iwrite + k < b.size
  · have hindex : int16 (b.iwrite + k) = turn b.size (b.iwrite + k) := by
      rw [int16, turn, if_pos hin]
      omega
    simp only [if_pos hin, pushed, Mem.length_read, hindex, Circular.put,
      if_pos (show b.iwrite.toNat + k < b.size.toNat by omega)]
  · -- the block is cut where the array ends
    have hd : uint16 (b.size - b.iwrite) = b.size.toNat - b.iwrite.toNat := by
      rw [uint16]
      omega
    have hindex : int16 ((k : ℤ) - (b.size.toNat - b.iwrite.toNat : ℕ)) =
        turn b.size (b.iwrite + k) := by
      rw [int16, turn, if_neg hin]
      omega
    have hcut := buf.read_add 0 (b.size.toNat - b.iwrite.toNat)
      (k - (b.size.toNat - b.iwrite.toNat))
    rw [Nat.add_sub_cancel' (by omega), Nat.zero_add] at hcut
    simp only [if_neg hin, pushed, Mem.length_read, hd, hindex, Circular.put,
      if_neg (show ¬ b.iwrite.toNat + k < b.size.toNat by omega)]
    rw [hcut, List.take_left' (Mem.length_read ..), List.drop_left' (Mem.length_read ..)]

theorem read_eq : b.read = (b.content.headD 0, if b.dataSize = 0 then b else b.popped 1) := by
  obtain ⟨h₁, h₂, h₃, h₄, h₅, -⟩ := h
  rw [read]
  by_cases hzero : b.dataSize = 0
  · rw [if_neg (not_not.2 hzero), if_pos hzero, content, hzero]
    rfl
  · have hindex : (if int16 (b.iread + 1) ≥ b.size then 0 else int16 (b.iread + 1)) =
        turn b.size (b.iread + 1) := by
      simp only [int16, turn]
      split_ifs <;> omega
    have hfirst : b.content.take 1 = [b.buffer b.iread.toNat] := by
      rw [take_content (by omega), Circular.cells_one _ (by omega)]
    rw [if_pos hzero, if_neg hzero, Prod.mk.injEq]
    refine ⟨?_, ?_⟩
    · rcases hcontent : b.content with _ | ⟨c, cs⟩
      · rw [hcontent] at hfirst
        cases hfirst
      · rw [hcontent, List.take_succ_cons] at hfirst
        exact (List.cons.inj hfirst).1.symm
    · simp only [incrementIRead, popped, hindex, Nat.cast_one]

theorem readBlock_eq (n : UInt16) :
    b.readBlock n = ((min n.toNat b.dataSize, b.content.take (min n.toNat b.dataSize)),
      b.popped (min n.toNat b.dataSize)) := by
  have hle := dataSize_le h
  obtain ⟨h₁, h₂, h₃, h₄, h₅, -⟩ := h
  have hn1 : (if b.dataSize > n.toNat then n.toNat else b.dataSize) = min n.toNat b.dataSize := by
    split_ifs <;> omega
  have hk : min n.toNat b.dataSize ≤ b.dataSize := min_le_right _ _
  simp only [readBlock, hn1, take_content hk]
  generalize min n.toNat b.dataSize = k at hk
  split_ifs with hin
  · have hindex : int16 (b.iread + k) = turn b.size (b.iread + k) := by
      rw [int16, turn, if_pos hin]
      omega
    rw [popped, hindex, Circular.cells_of_le _ (by omega)]
  · -- the block is cut where the array ends
    have hd : uint16 (b.size - b.iread) = b.size.toNat - b.iread.toNat := by
      rw [uint16]
      omega
    have hindex : int16 ((k : ℤ) - (b.size.toNat - b.iread.toNat : ℕ)) =
        turn b.size (b.iread + k) := by
      rw [int16, turn, if_neg hin]
      omega
    rw [popped, hd, hindex, Circular.cells_of_ge _ (by omega) (by omega) (by omega)]

theorem ok_writeBlock (buf : Mem) (n : UInt16) : (b.writeBlock buf n).2.Ok := by
  have hfree := free_eq h
  have hle := dataSize_le h
  rw [writeBlock_eq h]
  refine ok_pushed h ?_
  rw [Mem.length_read]
  split_ifs at hfree <;> omega

/-- **Every operation keeps the invariant.** -/
theorem ok_step (op : Op) : (b.step op).2.Ok := by
  cases op with
  | write c =>
    rw [step, write_eq h]
    split_ifs with hfull
    · exact h
    · have hle := dataSize_le h
      have hne : (b.dataSize : ℤ) ≠ b.size := fun heq => hfull ((full_iff h).2 heq)
      refine ok_pushed h ?_
      rw [List.length_singleton]
      omega
  | writeBlock buf n => exact ok_writeBlock h buf n
  | read =>
    rw [step, read_eq h]
    by_cases hzero : b.dataSize = 0
    · simpa only [if_pos hzero] using h
    · simpa only [if_neg hzero] using ok_popped h (by omega)
  | readBlock n =>
    rw [step, readBlock_eq h]
    exact ok_popped h (min_le_right _ _)
  | flush =>
    have hlt := h.size_pos
    exact ⟨h.size_lt, le_rfl, hlt, le_rfl, hlt, Bool.noConfusion⟩
  | copy => exact h

end Moves

end TBuffer

end KS3.Comm
