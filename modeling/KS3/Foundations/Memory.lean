import Mathlib

/-!
# Byte memory

Memory is seen from a pointer: `m k` is the octet `k` places behind it, and nothing bounds `k`,
so that a read or a store past the end of an object is expressible. `read` takes a block of
octets out as a list, `store` and `write` put one octet and a block of octets in, and `word` is
the 16-bit value two octets hold, the low one first.

`Determined` says that what is made of a memory depends on its first octets only; `splice` puts
other octets behind these, to show that it does not (`not_determined`).
-/

namespace KS3

/-- The octets behind a pointer. -/
abbrev Mem := ℕ → UInt8

/-! ## Little-endian words -/

/-- The low octet of a 16-bit value. -/
def loByte (w : UInt16) : UInt8 := UInt8.ofNat (w.toNat % 256)

/-- The high octet of a 16-bit value. -/
def hiByte (w : UInt16) : UInt8 := UInt8.ofNat (w.toNat / 256)

/-- The 16-bit value with the given octets. -/
def ofBytes (lo hi : UInt8) : UInt16 := UInt16.ofNat (lo.toNat + 256 * hi.toNat)

theorem toNat_ofBytes (lo hi : UInt8) : (ofBytes lo hi).toNat = lo.toNat + 256 * hi.toNat := by
  have hlo := lo.toNat_lt
  have hhi := hi.toNat_lt
  simp only [ofBytes, UInt16.toNat_ofNat']
  omega

@[simp] theorem ofBytes_lo_hi (w : UInt16) : ofBytes (loByte w) (hiByte w) = w := by
  have hw := w.toNat_lt
  apply UInt16.toNat_inj.1
  simp only [toNat_ofBytes, loByte, hiByte, UInt8.toNat_ofNat']
  omega

@[simp] theorem loByte_ofBytes (lo hi : UInt8) : loByte (ofBytes lo hi) = lo := by
  have hlo := lo.toNat_lt
  apply UInt8.toNat_inj.1
  simp only [loByte, toNat_ofBytes, UInt8.toNat_ofNat']
  omega

@[simp] theorem hiByte_ofBytes (lo hi : UInt8) : hiByte (ofBytes lo hi) = hi := by
  have hlo := lo.toNat_lt
  have hhi := hi.toNat_lt
  apply UInt8.toNat_inj.1
  simp only [hiByte, toNat_ofBytes, UInt8.toNat_ofNat']
  omega

namespace Mem

/-- The memory seen from `i` places further. -/
def shift (m : Mem) (i : ℕ) : Mem := fun k => m (i + k)

/-- Store one octet. -/
def store (m : Mem) (i : ℕ) (b : UInt8) : Mem := Function.update m i b

/-- The `n` octets from place `i` on. -/
def read (m : Mem) (i n : ℕ) : List UInt8 := (List.range n).map fun k => m (i + k)

/-- Copy a block of octets to place `i`. -/
def write (m : Mem) (i : ℕ) (bs : List UInt8) : Mem :=
  fun k => if i ≤ k then bs.getD (k - i) (m k) else m k

/-- The 16-bit value at place `i`. -/
def word (m : Mem) (i : ℕ) : UInt16 := ofBytes (m i) (m (i + 1))

/-- The memory that holds the octets of a list and zeros behind them. -/
def ofList (bs : List UInt8) : Mem := fun k => bs.getD k 0

variable (m : Mem)

@[simp] theorem shift_apply (i k : ℕ) : m.shift i k = m (i + k) := rfl

theorem store_self (i : ℕ) (b : UInt8) : m.store i b i = b := Function.update_self ..

theorem store_of_ne {i k : ℕ} (h : k ≠ i) (b : UInt8) : m.store i b k = m k :=
  Function.update_of_ne h ..

/-! ## Blocks -/

@[simp] theorem length_read (i n : ℕ) : (m.read i n).length = n := by simp [read]

@[simp] theorem read_zero (i : ℕ) : m.read i 0 = [] := rfl

theorem read_succ (i n : ℕ) : m.read i (n + 1) = m.read i n ++ [m (i + n)] := by
  simp [read, List.range_succ]

theorem read_add (i n k : ℕ) : m.read i (n + k) = m.read i n ++ m.read (i + n) k := by
  simp [read, List.range_add, Function.comp_def, Nat.add_assoc]

theorem read_succ_eq_cons (i n : ℕ) : m.read i (n + 1) = m i :: m.read (i + 1) n := by
  rw [Nat.add_comm, read_add]
  rfl

theorem read_shift (i j n : ℕ) : (m.shift i).read j n = m.read (i + j) n := by
  simp [read, Nat.add_assoc]

theorem getD_read {i n k : ℕ} (h : k < n) (d : UInt8) : (m.read i n).getD k d = m (i + k) := by
  simp [read, h]

/-- Two blocks are equal when their octets are. -/
theorem read_congr {m m' : Mem} {i j n : ℕ} (h : ∀ k < n, m (i + k) = m' (j + k)) :
    m.read i n = m'.read j n := by
  apply List.map_congr_left
  intro k hk
  exact h k (List.mem_range.1 hk)

/-- A store past a block leaves it. -/
theorem read_store_of_le {i n k : ℕ} (h : i + n ≤ k) (b : UInt8) :
    (m.store k b).read i n = m.read i n :=
  read_congr fun j hj => m.store_of_ne (by omega) b

/-- A block known as a list gives the octets of memory. -/
theorem eq_getD_of_read {bs : List UInt8} {i : ℕ} (h : m.read i bs.length = bs) {k : ℕ}
    (hk : k < bs.length) : m (i + k) = bs.getD k 0 := by
  rw [← m.getD_read hk 0, h]

/-- Memory that starts with a list is the list there. -/
theorem eq_ofList_of_read {bs : List UInt8} (h : m.read 0 bs.length = bs) {k : ℕ}
    (hk : k < bs.length) : m k = ofList bs k := by
  have hk' := m.eq_getD_of_read h hk
  rwa [Nat.zero_add] at hk'

/-- A list lies at the beginning of its memory. -/
theorem read_ofList (bs : List UInt8) : (ofList bs).read 0 bs.length = bs := by
  apply List.ext_getElem (by simp)
  intro k _ hk
  simp [read, ofList, hk]

theorem word_of_read {bs : List UInt8} (h : m.read 0 bs.length = bs) {k : ℕ}
    (hk : k + 1 < bs.length) : m.word k = (ofList bs).word k := by
  rw [word, word, m.eq_ofList_of_read h (by omega), m.eq_ofList_of_read h hk]

theorem ofList_read {n k : ℕ} (h : k < n) : ofList (m.read 0 n) k = m k := by
  rw [ofList, getD_read _ h, Nat.zero_add]

theorem word_ofList_read {n k : ℕ} (h : k + 1 < n) : (ofList (m.read 0 n)).word k = m.word k := by
  rw [word, word, m.ofList_read (by omega), m.ofList_read h]

theorem take_read {k n : ℕ} (h : k ≤ n) (i : ℕ) : (m.read i n).take k = m.read i k := by
  obtain ⟨d, rfl⟩ := Nat.exists_eq_add_of_le h
  rw [read_add, List.take_left' (length_read ..)]

theorem drop_read (i k d : ℕ) : (m.read i (k + d)).drop k = m.read (i + k) d := by
  rw [read_add, List.drop_left' (length_read ..)]

theorem write_of_lt {i k : ℕ} (h : k < i) (bs : List UInt8) : m.write i bs k = m k :=
  if_neg (by omega)

theorem write_add {i k : ℕ} (bs : List UInt8) (h : k < bs.length) :
    m.write i bs (i + k) = bs.getD k 0 := by
  simp [write, h]

theorem write_of_le {i k : ℕ} (bs : List UInt8) (h : i + bs.length ≤ k) :
    m.write i bs k = m k := by
  simp only [write]
  split
  · rw [List.getD_eq_default _ _ (by omega)]
  · rfl

@[simp] theorem write_nil (i : ℕ) : m.write i [] = m := by
  funext k
  simp [write]

/-- An octet is stored like a block of one. -/
theorem store_eq_write (i : ℕ) (b : UInt8) : m.store i b = m.write i [b] := by
  funext k
  by_cases hk : k = i
  · rw [hk, store_self, write, if_pos le_rfl, Nat.sub_self]
    rfl
  · rw [store_of_ne _ hk, write]
    split
    · rw [List.getD_eq_default _ _ (by simp; omega)]
    · rfl

theorem write_append (i : ℕ) (as bs : List UInt8) :
    (m.write i as).write (i + as.length) bs = m.write i (as ++ bs) := by
  funext k
  rcases lt_or_ge k i with hk | hk
  · rw [write_of_lt _ (by omega), write_of_lt _ hk, write_of_lt _ hk]
  obtain ⟨j, rfl⟩ := Nat.exists_eq_add_of_le hk
  rcases lt_or_ge j as.length with hj | hj
  · rw [write_of_lt _ (by omega), write_add _ _ hj, write_add _ _ (by simp; omega),
      List.getD_append _ _ _ _ hj]
  rcases lt_or_ge (j - as.length) bs.length with hb | hb
  · have hj' : i + j = i + as.length + (j - as.length) := by omega
    rw [hj', write_add _ _ hb, ← hj', write_add _ _ (by simp; omega),
      List.getD_append_right _ _ _ _ hj]
  · rw [write_of_le _ _ (by omega), write_of_le _ _ (by omega),
      write_of_le _ _ (by simp; omega)]

/-- A block reads back as it was written. -/
theorem read_write (i : ℕ) (bs : List UInt8) : (m.write i bs).read i bs.length = bs := by
  apply List.ext_getElem (length_read ..)
  intro k h₁ h₂
  rw [← List.getD_eq_getElem _ 0 h₁, getD_read _ h₂, write_add _ _ h₂,
    List.getD_eq_getElem _ _ h₂]

/-- A word reads back as it was written. -/
theorem word_write (i : ℕ) (w : UInt16) : (m.write i [loByte w, hiByte w]).word i = w := by
  have hlo : m.write i [loByte w, hiByte w] (i + 0) = loByte w := write_add _ _ (by simp)
  have hhi : m.write i [loByte w, hiByte w] (i + 1) = hiByte w := write_add _ _ (by simp)
  rw [Nat.add_zero] at hlo
  rw [word, hlo, hhi, ofBytes_lo_hi]

/-- A block below a written one is unchanged. -/
theorem read_write_of_le {i n k : ℕ} (h : i + n ≤ k) (bs : List UInt8) :
    (m.write k bs).read i n = m.read i n :=
  read_congr fun j hj => m.write_of_lt (by omega) bs

/-- A block above a written one is unchanged. -/
theorem read_write_of_ge {i n k : ℕ} (bs : List UInt8) (h : k + bs.length ≤ i) :
    (m.write k bs).read i n = m.read i n :=
  read_congr fun _ _ => m.write_of_le bs (by omega)

/-! ## Memories with a common beginning -/

variable {m}

/-- Two memories with the same first `n` octets. -/
def Agree (m m' : Mem) (n : ℕ) : Prop := ∀ k < n, m' k = m k

theorem Agree.word {m' : Mem} {n k : ℕ} (h : Agree m m' n) (hk : k + 1 < n) :
    m'.word k = m.word k := by
  rw [Mem.word, Mem.word, h k (by omega), h (k + 1) hk]

theorem Agree.read {m' : Mem} {n i k : ℕ} (h : Agree m m' n) (hk : i + k ≤ n) :
    m'.read i k = m.read i k :=
  read_congr fun j hj => h (i + j) (by omega)

/-- The first `n` octets of one memory and the others of another one. -/
def splice (m t : Mem) (n : ℕ) : Mem := fun k => if k < n then m k else t k

theorem splice_of_lt {t : Mem} {n k : ℕ} (h : k < n) : splice m t n k = m k := if_pos h

theorem splice_of_le {t : Mem} {n k : ℕ} (h : n ≤ k) : splice m t n k = t k :=
  if_neg (Nat.not_lt.2 h)

theorem agree_splice (t : Mem) (n : ℕ) : Agree m (splice m t n) n := fun _ hk => splice_of_lt hk

section Determined

variable {β : Type*} {f : Mem → β}

/-- What `f` makes of a memory is determined by the first `n` octets. -/
def Determined (f : Mem → β) (m : Mem) (n : ℕ) : Prop := ∀ m', Agree m m' n → f m' = f m

/-- Two ways to go on behind the first octets that make a difference. -/
theorem not_determined {n : ℕ} (t t' : Mem) (h : f (splice m t n) ≠ f (splice m t' n)) :
    ¬ Determined f m n := by
  intro hdet
  exact h ((hdet _ (agree_splice t n)).trans (hdet _ (agree_splice t' n)).symm)

end Determined

end Mem

end KS3
