import KS3.Foundations.Memory

/-!
# Circular arrays

An array of `N` octets is walked round: behind its last octet comes its first one. `cells` are the
octets from a place on, and `put` copies a block to a place in at most two pieces, as a program
does with two calls of `memcpy`.

* `cells_add`: the cells from a place on, cut in two;
* `cells_of_le`, `cells_of_ge`: cells that do not, and that do, go past the end of the array;
* `cells_put`, `cells_put_before`: a block reads back as it was put, and the cells before it, up
  to one turn, stay.
-/

namespace KS3.Circular

/-- The `n` octets from place `r` on, round an array of `N` octets. -/
def cells (m : Mem) (N r n : ℕ) : List UInt8 := (List.range n).map fun k => m ((r + k) % N)

/-- Copy a block to place `w`, and what goes past the end of the array to its beginning. -/
def put (m : Mem) (N w : ℕ) (bs : List UInt8) : Mem :=
  if w + bs.length < N then m.write w bs
  else (m.write w (bs.take (N - w))).write 0 (bs.drop (N - w))

variable (m : Mem) {N : ℕ}

@[simp] theorem length_cells (r n : ℕ) : (cells m N r n).length = n := by simp [cells]

theorem cells_add (r n k : ℕ) :
    cells m N r (n + k) = cells m N r n ++ cells m N ((r + n) % N) k := by
  simp [cells, List.range_add, Function.comp_def, Nat.add_assoc]

theorem cells_one {r : ℕ} (h : r < N) : cells m N r 1 = [m r] := by
  simp [cells, Nat.mod_eq_of_lt h]

theorem cells_of_le {r n : ℕ} (h : r + n ≤ N) : cells m N r n = m.read r n := by
  apply List.map_congr_left
  intro k hk
  rw [Nat.mod_eq_of_lt (by have := List.mem_range.1 hk; omega)]

theorem cells_of_ge {r n : ℕ} (hr : r ≤ N) (hn : n ≤ N) (h : N ≤ r + n) :
    cells m N r n = m.read r (N - r) ++ m.read 0 (n - (N - r)) := by
  obtain ⟨k, rfl⟩ := Nat.exists_eq_add_of_le (show N - r ≤ n by omega)
  have hend : (r + (N - r)) % N = 0 := by rw [Nat.add_sub_cancel' hr, Nat.mod_self]
  rw [cells_add, hend, cells_of_le m (by omega), cells_of_le m (by omega), Nat.add_sub_cancel_left]

theorem put_singleton {w : ℕ} (h : w < N) (b : UInt8) : put m N w [b] = m.store w b := by
  have hwrite : m.write w [b] = m.store w b := by
    funext k
    rcases lt_trichotomy k w with hk | rfl | hk
    · rw [m.write_of_lt hk, m.store_of_ne hk.ne]
    · rw [m.store_self]
      simpa using m.write_add (i := k) [b] (show 0 < [b].length by simp)
    · rw [m.write_of_le _ (by simpa using hk), m.store_of_ne hk.ne']
  rw [put]
  split_ifs with hlt
  · exact hwrite
  · have hpiece : 1 ≤ N - w := by omega
    rw [List.take_of_length_le (by simpa using hpiece),
      List.drop_of_length_le (by simpa using hpiece), Mem.write_nil, hwrite]

/-- What `put` leaves `k` places behind the one it copies to. -/
theorem put_apply {w k : ℕ} (hw : w < N) (hk : k < N) {bs : List UInt8} (hbs : bs.length ≤ N) :
    put m N w bs ((w + k) % N) = if k < bs.length then bs.getD k 0 else m ((w + k) % N) := by
  have htake : (bs.take (N - w)).length = min (N - w) bs.length := List.length_take
  have hdrop : (bs.drop (N - w)).length = bs.length - (N - w) := List.length_drop
  rcases lt_or_ge (w + k) N with hlt | hge
  · rw [Nat.mod_eq_of_lt hlt, put]
    split_ifs with hwrap hin hin
    · exact m.write_add bs hin
    · exact m.write_of_le bs (by omega)
    · rw [Mem.write_of_le _ _ (by omega), m.write_add _ (by omega), List.getD_eq_getElem?_getD,
        List.getD_eq_getElem?_getD, List.getElem?_take_of_lt (by omega)]
    · rw [Mem.write_of_le _ _ (by omega), m.write_of_le _ (by omega)]
  · have hmod : (w + k) % N = w + k - N := by
      rw [Nat.mod_eq_sub_mod hge, Nat.mod_eq_of_lt (by omega)]
    rw [hmod, put]
    split_ifs with hwrap hin hin
    · omega
    · exact m.write_of_lt (by omega) bs
    · have hplace : w + k - N = 0 + (k - (N - w)) := by omega
      rw [hplace, Mem.write_add _ _ (by omega), List.getD_eq_getElem?_getD,
        List.getD_eq_getElem?_getD, List.getElem?_drop]
      congr 2
      omega
    · rw [Mem.write_of_le _ _ (by omega), m.write_of_lt (by omega)]

/-- **A block reads back** as it was put. -/
theorem cells_put {w : ℕ} (hw : w < N) {bs : List UInt8} (hbs : bs.length ≤ N) :
    cells (put m N w bs) N w bs.length = bs := by
  apply List.ext_getElem (length_cells ..)
  intro k _ hk
  have hput := put_apply m hw (hk.trans_le hbs) hbs
  rw [if_pos hk, List.getD_eq_getElem _ _ hk] at hput
  simpa [cells] using hput

/-- **The cells before a block**, up to one turn, are not changed by it. -/
theorem cells_put_before {r n w : ℕ} (hN : 0 < N) (hw : (r + n) % N = w) {bs : List UInt8}
    (hbs : n + bs.length ≤ N) : cells (put m N w bs) N r n = cells m N r n := by
  apply List.map_congr_left
  intro k hk
  have hk := List.mem_range.1 hk
  -- the cell is reached from `w` by going on round the array
  have hplace : (r + k) % N = (w + (N - n + k)) % N := by
    have hround : r + n + (N - n + k) = r + k + N := by omega
    rw [← hw, Nat.mod_add_mod, hround, Nat.add_mod_right]
  rw [hplace, put_apply m (hw ▸ Nat.mod_lt _ hN) (by omega) (by omega), if_neg (by omega)]

end KS3.Circular
