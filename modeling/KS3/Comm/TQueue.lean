import Mathlib

/-!
# `TQueue`: a queue in a ring of buffers

The queue keeps two indices and two flags, `isFull` and `isEmpty`, which tell the two cases apart
in which the indices meet. The indices stay below the size of the ring, so their type
`unsigned short` never wraps, and they are natural numbers here.

What the queue holds is the list `toList`; `toList_push`, `toList_pop`, `toList_clear` and
`front_eq` say what the operations do to it.
-/

namespace KS3.Comm

/-- `TQueue<T>`. The indices are the members `begin` and `end`. -/
structure TQueue (T : Type*) where
  msgBufferSize : ℕ
  beginIndex : ℕ
  endIndex : ℕ
  msgBuffer : ℕ → T
  isFull : Bool
  isEmpty : Bool
  begin_lt : beginIndex < msgBufferSize
  end_lt : endIndex < msgBufferSize
  meet_iff : beginIndex = endIndex ↔ isFull ∨ isEmpty
  not_both : ¬ (isFull ∧ isEmpty)

namespace TQueue

variable {T : Type*}

/-- The queue after construction, on memory with any contents. -/
def init (buffer : ℕ → T) (bufSize : ℕ) (h : 0 < bufSize) : TQueue T where
  msgBufferSize := bufSize
  beginIndex := 0
  endIndex := 0
  msgBuffer := buffer
  isFull := false
  isEmpty := true
  begin_lt := h
  end_lt := h
  meet_iff := by simp
  not_both := by simp

/-- The index behind `i` in a ring of `n` buffers. -/
def next (n i : ℕ) : ℕ := if i + 1 = n then 0 else i + 1

theorem next_lt {n i : ℕ} (h : i < n) : next n i < n := by
  unfold next
  split_ifs <;> omega

/-- `clear`. -/
def clear (q : TQueue T) : TQueue T where
  msgBufferSize := q.msgBufferSize
  beginIndex := q.beginIndex
  endIndex := q.beginIndex
  msgBuffer := q.msgBuffer
  isFull := false
  isEmpty := true
  begin_lt := q.begin_lt
  end_lt := q.begin_lt
  meet_iff := by simp
  not_both := by simp

/-- `size`. -/
def size (q : TQueue T) : ℕ :=
  if q.isEmpty then 0
  else if q.endIndex > q.beginIndex then q.endIndex - q.beginIndex
  else q.msgBufferSize - q.beginIndex + q.endIndex

/-- `push`. -/
def push (q : TQueue T) (msg : T) : TQueue T :=
  if h : q.isFull then q
  else
    { msgBufferSize := q.msgBufferSize
      beginIndex := q.beginIndex
      endIndex := next q.msgBufferSize q.endIndex
      msgBuffer := Function.update q.msgBuffer q.endIndex msg
      isFull := if next q.msgBufferSize q.endIndex = q.beginIndex then true else q.isFull
      isEmpty := false
      begin_lt := q.begin_lt
      end_lt := next_lt q.end_lt
      meet_iff := by simp [h, eq_comm]
      not_both := by simp }

/-- `front`. -/
def front (q : TQueue T) : Option T := if q.isEmpty then none else some (q.msgBuffer q.beginIndex)

/-- `pop`. -/
def pop (q : TQueue T) : TQueue T :=
  if h : q.isEmpty then
    { q with
      isFull := false
      meet_iff := by simp [h, q.meet_iff]
      not_both := by simp }
  else
    { msgBufferSize := q.msgBufferSize
      beginIndex := next q.msgBufferSize q.beginIndex
      endIndex := q.endIndex
      msgBuffer := q.msgBuffer
      isFull := false
      isEmpty := if q.endIndex = next q.msgBufferSize q.beginIndex then true else q.isEmpty
      begin_lt := next_lt q.begin_lt
      end_lt := q.end_lt
      meet_iff := by simp [h, eq_comm]
      not_both := by simp }

/-- What the queue holds, the oldest message first. -/
def toList (q : TQueue T) : List T :=
  (List.range q.size).map fun k => q.msgBuffer ((q.beginIndex + k) % q.msgBufferSize)

/-! ## The size -/

section Size

variable (q : TQueue T)

@[simp] theorem length_toList : q.toList.length = q.size := by simp [toList]

theorem empty_iff : q.isEmpty ↔ q.size = 0 := by
  have hb := q.begin_lt
  unfold size
  split_ifs with hempty hlt
  · simp [hempty]
  · simp [hempty]
    omega
  · simp [hempty]
    omega

theorem full_iff : q.isFull ↔ q.size = q.msgBufferSize := by
  have hb := q.begin_lt
  have he := q.end_lt
  have hmeet := q.meet_iff
  have hboth := q.not_both
  unfold size
  split_ifs with hempty hlt
  · have hfull : ¬ q.isFull := fun h => hboth ⟨h, hempty⟩
    exact iff_of_false hfull (by omega)
  · have hfull : ¬ q.isFull := fun h => by have := hmeet.2 (.inl h); omega
    exact iff_of_false hfull (by omega)
  · constructor
    · intro h
      have := hmeet.2 (.inl h)
      omega
    · intro h
      exact (hmeet.1 (by omega)).resolve_right hempty

theorem size_le : q.size ≤ q.msgBufferSize := by
  have hb := q.begin_lt
  have he := q.end_lt
  unfold size
  split_ifs <;> omega

/-- The message that is pushed next comes behind those the queue holds. -/
theorem endIndex_eq : q.endIndex = (q.beginIndex + q.size) % q.msgBufferSize := by
  have hb := q.begin_lt
  have he := q.end_lt
  have hmeet := q.meet_iff
  unfold size
  split_ifs with hempty hlt
  · rw [Nat.add_zero, Nat.mod_eq_of_lt hb, hmeet.2 (.inr hempty)]
  · rw [Nat.add_sub_cancel' hlt.le, Nat.mod_eq_of_lt he]
  · have hsum : q.beginIndex + (q.msgBufferSize - q.beginIndex + q.endIndex) =
        q.endIndex + q.msgBufferSize := by omega
    rw [hsum, Nat.add_mod_right, Nat.mod_eq_of_lt he]

theorem next_eq {n i : ℕ} (h : i < n) : next n i = (i + 1) % n := by
  unfold next
  split_ifs with hlast
  · rw [hlast, Nat.mod_self]
  · rw [Nat.mod_eq_of_lt (by omega)]

end Size

/-! ## The operations on what the queue holds -/

section Operations

variable (q : TQueue T)

theorem push_of_full (h : q.isFull) (msg : T) : q.push msg = q := by rw [push, dif_pos h]

theorem size_push (h : ¬ q.isFull) (msg : T) : (q.push msg).size = q.size + 1 := by
  have hb := q.begin_lt
  have he := q.end_lt
  have hmeet := q.meet_iff
  rw [push, dif_neg h]
  simp only [size, next]
  split_ifs <;> simp_all <;> omega

theorem msgBufferSize_push (msg : T) : (q.push msg).msgBufferSize = q.msgBufferSize := by
  unfold push
  split_ifs <;> rfl

/-- A message is pushed behind the others, if there is room for it. -/
theorem toList_push (msg : T) :
    (q.push msg).toList = if q.isFull then q.toList else q.toList ++ [msg] := by
  split_ifs with hfull
  · rw [push_of_full q hfull]
  · have hlt : q.size < q.msgBufferSize :=
      lt_of_le_of_ne q.size_le fun h => hfull (q.full_iff.2 h)
    rw [toList, size_push q hfull, List.range_succ, List.map_append, push, dif_neg hfull]
    dsimp only
    congr 1
    · refine List.map_congr_left fun k hk => ?_
      have hne : (q.beginIndex + k) % q.msgBufferSize ≠ q.endIndex := by
        rw [endIndex_eq]
        intro heq
        have hmod : k ≡ q.size [MOD q.msgBufferSize] := Nat.ModEq.add_left_cancel' _ heq
        rw [Nat.ModEq, Nat.mod_eq_of_lt hlt,
          Nat.mod_eq_of_lt ((List.mem_range.1 hk).trans hlt)] at hmod
        exact absurd hmod (List.mem_range.1 hk).ne
      exact Function.update_of_ne hne ..
    · rw [List.map_singleton, ← endIndex_eq, Function.update_self]

theorem size_pop : q.pop.size = q.size - 1 := by
  have hb := q.begin_lt
  have he := q.end_lt
  have hnext : next q.msgBufferSize q.beginIndex =
      if q.beginIndex + 1 = q.msgBufferSize then 0 else q.beginIndex + 1 := rfl
  by_cases hempty : q.isEmpty
  · rw [pop, dif_pos hempty]
    simp [size, hempty]
  · rw [pop, dif_neg hempty]
    simp only [size, hempty, Bool.if_true_left, Bool.or_false, decide_eq_true_eq,
      Bool.false_eq_true, if_false]
    split_ifs at hnext ⊢ <;> omega

theorem msgBufferSize_pop : q.pop.msgBufferSize = q.msgBufferSize := by
  unfold pop
  split_ifs <;> rfl

/-- The oldest message is popped. -/
theorem toList_pop : q.pop.toList = q.toList.tail := by
  rw [toList, size_pop, toList]
  by_cases hempty : q.isEmpty
  · simp [q.empty_iff.1 hempty]
  · obtain ⟨n, hn⟩ := Nat.exists_eq_succ_of_ne_zero fun h => hempty (q.empty_iff.2 h)
    rw [hn, List.range_succ_eq_map, List.map_cons, List.tail_cons, List.map_map, pop,
      dif_neg hempty]
    refine List.map_congr_left fun k _ => ?_
    simp only [next_eq q.begin_lt, Function.comp_apply, Nat.mod_add_mod]
    congr 2
    omega

theorem toList_clear : q.clear.toList = [] := rfl

theorem front_eq : q.front = q.toList.head? := by
  unfold front
  split_ifs with hempty
  · simp [toList, q.empty_iff.1 hempty]
  · obtain ⟨n, hn⟩ := Nat.exists_eq_succ_of_ne_zero fun h => hempty (q.empty_iff.2 h)
    simp [toList, hn, List.range_succ_eq_map, Nat.mod_eq_of_lt q.begin_lt]

end Operations

end TQueue

end KS3.Comm
