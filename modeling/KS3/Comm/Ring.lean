import KS3.Foundations.Simulation
import KS3.Comm.TQueue

/-!
# The ring of `TQueue` in machine words

`Ring` is `TQueue` with its members as the source declares them: size and indices are
`unsigned short`, and nothing says how they hang together. Every `TQueue` is such a ring (`ring`),
and the operations of the ring are those of the queue. What a bounded queue is for is said by
`Fifo.step`: a list no longer than the capacity.

* `step_related`: one operation on a ring that holds a list, and the same one on the list;
* `ring_refines_fifo`: every sequence of operations on a new ring is answered as on the list, and
  the indices stay below the capacity.
-/

namespace KS3.Comm

/-! ## Operations -/

/-- The operations of `TQueue`. -/
inductive Op (T : Type*)
  | push (msg : T)
  | pop
  | front
  | clear
  | size
  | empty
  | full

/-- What an operation returns. -/
inductive Answer (T : Type*)
  | done
  | message (msg : Option T)
  | number (n : ℤ)
  | flag (b : Bool)
  deriving DecidableEq

/-! ## The ring -/

/-- The members of `TQueue<T>` with the types of the source. -/
structure Ring (T : Type*) where
  msgBufferSize : UInt16
  beginIndex : UInt16
  endIndex : UInt16
  msgBuffer : ℕ → T
  isFull : Bool
  isEmpty : Bool

namespace Ring

variable {T : Type*}

/-- The constructor. -/
def init (buffer : ℕ → T) (bufSize : UInt16) : Ring T := ⟨bufSize, 0, 0, buffer, false, true⟩

/-- `clear`. -/
def clear (r : Ring T) : Ring T :=
  { r with endIndex := r.beginIndex, isEmpty := true, isFull := false }

/-- `size`; the operands are promoted to `int`. -/
def size (r : Ring T) : ℤ :=
  if r.isEmpty then 0
  else if r.endIndex > r.beginIndex then (r.endIndex.toNat : ℤ) - r.beginIndex.toNat
  else (r.msgBufferSize.toNat : ℤ) - r.beginIndex.toNat + r.endIndex.toNat

/-- `end++; if(end == msgBufferSize) end = 0;` and the same for `begin`. -/
def next (n i : UInt16) : UInt16 := if i + 1 = n then 0 else i + 1

/-- `push`. -/
def push (r : Ring T) (msg : T) : Ring T :=
  if r.isFull then r
  else
    { r with
      msgBuffer := Function.update r.msgBuffer r.endIndex.toNat msg
      endIndex := next r.msgBufferSize r.endIndex
      isFull := if next r.msgBufferSize r.endIndex = r.beginIndex then true else r.isFull
      isEmpty := false }

/-- `front`. -/
def front (r : Ring T) : Option T :=
  if !r.isEmpty then some (r.msgBuffer r.beginIndex.toNat) else none

/-- `pop`. -/
def pop (r : Ring T) : Ring T :=
  let r := if !r.isEmpty then
      { r with
        beginIndex := next r.msgBufferSize r.beginIndex
        isEmpty := if r.endIndex = next r.msgBufferSize r.beginIndex then true else r.isEmpty }
    else r
  { r with isFull := false }

/-- An operation with what it returns. -/
def step (r : Ring T) : Op T → Answer T × Ring T
  | .push msg => (.done, r.push msg)
  | .pop => (.done, r.pop)
  | .front => (.message r.front, r)
  | .clear => (.done, r.clear)
  | .size => (.number r.size, r)
  | .empty => (.flag r.isEmpty, r)
  | .full => (.flag r.isFull, r)

end Ring

/-! ## Bounded lists -/

namespace Fifo

variable {T : Type*}

/-- The operations on a list of length at most `capacity`. -/
def step (capacity : ℕ) (l : List T) : Op T → Answer T × List T
  | .push msg => (.done, if l.length < capacity then l ++ [msg] else l)
  | .pop => (.done, l.tail)
  | .front => (.message l.head?, l)
  | .clear => (.done, [])
  | .size => (.number l.length, l)
  | .empty => (.flag (l.length = 0), l)
  | .full => (.flag (l.length = capacity), l)

end Fifo

/-! ## From the ring to the queue -/

namespace TQueue

variable {T : Type*} (q : TQueue T)

/-- The members of the queue as words. -/
def ring : Ring T where
  msgBufferSize := UInt16.ofNat q.msgBufferSize
  beginIndex := UInt16.ofNat q.beginIndex
  endIndex := UInt16.ofNat q.endIndex
  msgBuffer := q.msgBuffer
  isFull := q.isFull
  isEmpty := q.isEmpty

theorem ring_init (buffer : ℕ → T) {n : ℕ} (h : 0 < n) :
    (init buffer n h).ring = Ring.init buffer (UInt16.ofNat n) := rfl

theorem toNat_ofNat {n : ℕ} (h : n < 2 ^ 16) : (UInt16.ofNat n).toNat = n :=
  UInt16.toNat_ofNat_of_lt' h

theorem ofNat_inj {m n : ℕ} (hm : m < 2 ^ 16) (hn : n < 2 ^ 16) :
    UInt16.ofNat m = UInt16.ofNat n ↔ m = n := by
  rw [← UInt16.toNat_inj, toNat_ofNat hm, toNat_ofNat hn]

/-- The index does not wrap on its way round the ring. -/
theorem ring_next {n i : ℕ} (hn : n < 2 ^ 16) (hi : i < n) :
    Ring.next (UInt16.ofNat n) (UInt16.ofNat i) = UInt16.ofNat (next n i) := by
  have hsucc : UInt16.ofNat i + 1 = UInt16.ofNat (i + 1) := (UInt16.ofNat_add i 1).symm
  rw [Ring.next, next, hsucc, apply_ite UInt16.ofNat]
  exact if_congr (ofNat_inj (by omega) hn) rfl rfl

variable {q} (h : q.msgBufferSize < 2 ^ 16)

include h

theorem ring_push (msg : T) : q.ring.push msg = (q.push msg).ring := by
  have hmeet : UInt16.ofNat (next q.msgBufferSize q.endIndex) = UInt16.ofNat q.beginIndex ↔
      next q.msgBufferSize q.endIndex = q.beginIndex :=
    ofNat_inj ((next_lt q.end_lt).trans h) (q.begin_lt.trans h)
  rw [Ring.push, push]
  by_cases hfull : q.isFull
  · rw [if_pos (show q.ring.isFull = true from hfull), dif_pos hfull]
  · rw [if_neg (show ¬ q.ring.isFull = true from hfull), dif_neg hfull]
    simp only [ring, ring_next h q.end_lt, toNat_ofNat (q.end_lt.trans h), hmeet]

theorem ring_pop : q.ring.pop = q.pop.ring := by
  have hmeet : UInt16.ofNat q.endIndex = UInt16.ofNat (next q.msgBufferSize q.beginIndex) ↔
      q.endIndex = next q.msgBufferSize q.beginIndex :=
    ofNat_inj (q.end_lt.trans h) ((next_lt q.begin_lt).trans h)
  rw [Ring.pop, pop]
  by_cases hempty : q.isEmpty
  · rw [dif_pos hempty]
    simp only [ring, hempty, Bool.not_true, Bool.false_eq_true, if_false]
  · rw [dif_neg hempty]
    simp only [ring, hempty, Bool.not_false, if_true, ring_next h q.begin_lt, hmeet]

theorem ring_front : q.ring.front = q.front := by
  rw [Ring.front, front]
  by_cases hempty : q.isEmpty
  · simp [ring, hempty]
  · simp [ring, hempty, toNat_ofNat (q.begin_lt.trans h)]

theorem ring_size : q.ring.size = q.size := by
  have hbegin := q.begin_lt
  have hend := q.end_lt
  rw [Ring.size, size]
  simp only [ring, gt_iff_lt, UInt16.lt_iff_toNat_lt, toNat_ofNat h,
    toNat_ofNat (hbegin.trans h), toNat_ofNat (hend.trans h)]
  split_ifs <;> omega

end TQueue

/-! ## The refinement -/

namespace Ring

variable {T : Type*}

/-- The ring is that of a queue with the given capacity and holds the given list. -/
def Holds (capacity : ℕ) (r : Ring T) (l : List T) : Prop :=
  ∃ q : TQueue T, q.msgBufferSize = capacity ∧ q.ring = r ∧ q.toList = l

variable {capacity : ℕ} (hcap : capacity < 2 ^ 16)

include hcap

/-- **One operation** on a ring that holds a list is answered as on the list, and the ring holds
the list after it. -/
theorem step_related (r : Ring T) (l : List T) (op : Op T) (h : Holds capacity r l) :
    (r.step op).1 = (Fifo.step capacity l op).1 ∧
      Holds capacity (r.step op).2 (Fifo.step capacity l op).2 := by
  obtain ⟨q, rfl, rfl, rfl⟩ := h
  cases op with
  | push msg =>
    refine ⟨rfl, q.push msg, q.msgBufferSize_push msg, (TQueue.ring_push hcap msg).symm, ?_⟩
    have hfull : q.isFull = true ↔ ¬ q.toList.length < q.msgBufferSize := by
      have hle := q.size_le
      rw [q.full_iff, q.length_toList]
      omega
    rw [q.toList_push, Fifo.step]
    by_cases hroom : q.toList.length < q.msgBufferSize
    · rw [if_neg fun hf => hfull.1 hf hroom, if_pos hroom]
    · rw [if_pos (hfull.2 hroom), if_neg hroom]
  | pop => exact ⟨rfl, q.pop, q.msgBufferSize_pop, (TQueue.ring_pop hcap).symm, q.toList_pop⟩
  | front =>
    refine ⟨?_, q, rfl, rfl, rfl⟩
    rw [step, Fifo.step, TQueue.ring_front hcap, q.front_eq]
  | clear => exact ⟨rfl, q.clear, rfl, rfl, q.toList_clear⟩
  | size =>
    refine ⟨?_, q, rfl, rfl, rfl⟩
    rw [step, Fifo.step, TQueue.ring_size hcap, q.length_toList]
  | empty =>
    refine ⟨?_, q, rfl, rfl, rfl⟩
    rw [step, Fifo.step, q.length_toList, Answer.flag.injEq, Bool.eq_iff_iff, decide_eq_true_iff]
    exact q.empty_iff
  | full =>
    refine ⟨?_, q, rfl, rfl, rfl⟩
    rw [step, Fifo.step, q.length_toList, Answer.flag.injEq, Bool.eq_iff_iff, decide_eq_true_iff]
    exact q.full_iff

/-- A ring that holds a list keeps its indices below the capacity. -/
theorem index_lt_of_holds {r : Ring T} {l : List T} (h : Holds capacity r l) :
    l.length ≤ capacity ∧ r.beginIndex.toNat < capacity ∧ r.endIndex.toNat < capacity := by
  obtain ⟨q, rfl, rfl, rfl⟩ := h
  refine ⟨?_, ?_, ?_⟩
  · rw [q.length_toList]
    exact q.size_le
  · rw [TQueue.ring, TQueue.toNat_ofNat (q.begin_lt.trans hcap)]
    exact q.begin_lt
  · rw [TQueue.ring, TQueue.toNat_ofNat (q.end_lt.trans hcap)]
    exact q.end_lt

omit hcap in
theorem holds_init (buffer : ℕ → T) (h : 0 < capacity) :
    Holds capacity (init buffer (UInt16.ofNat capacity)) [] :=
  ⟨TQueue.init buffer capacity h, rfl, TQueue.ring_init buffer h, rfl⟩

end Ring

open Machine in
/-- **`TQueue` is a bounded queue**: every sequence of operations on a new ring is answered as on a
list, the list never gets longer than the capacity, and the indices stay below it. -/
theorem ring_refines_fifo {T : Type*} (buffer : ℕ → T) {capacity : ℕ} (hpos : 1 ≤ capacity)
    (hle : capacity ≤ 32767) (ops : List (Op T)) :
    let r := Ring.init buffer (UInt16.ofNat capacity)
    let l : List T := []
    answers Ring.step r ops = answers (Fifo.step capacity) l ops ∧
      (after (Fifo.step capacity) l ops).length ≤ capacity ∧
      (after Ring.step r ops).beginIndex.toNat < capacity ∧
      (after Ring.step r ops).endIndex.toNat < capacity := by
  have hcap : capacity < 2 ^ 16 := by omega
  obtain ⟨hanswers, hholds⟩ := simulation (fun r l op => Ring.step_related hcap r l op)
    (Ring.holds_init buffer hpos) ops
  exact ⟨hanswers, Ring.index_lt_of_holds hcap hholds⟩

open Machine in
/-- A ring of one buffer, on which the second message finds no room. -/
theorem ring_refines_fifo_one :
    answers Ring.step (Ring.init (fun _ => 0) 1)
        [.push 5, .push 6, .full, .front, .pop, .pop, .empty, .push 7, .clear, .size, .front] =
      [.done, .done, .flag true, .message (some 5), .done, .done, .flag true, .done, .done,
        .number 0, .message none] :=
  (ring_refines_fifo (fun _ => 0) (le_refl 1) (by omega) _).1.trans (by decide)

end KS3.Comm
