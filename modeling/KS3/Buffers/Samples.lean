import KS3.Buffers.Container

/-!
# Samples in a data buffer

The two functions `TDataBuffer::write` that take samples from memory: one sample of `t_size`
octets, and up to `n` of them while there is room. Indices are 16-bit counters, the test for room
is made with 32 bits. The loops carry the places they store to, so that a store past `data` would
be visible; a loop that never ends has no outcome.

The inner loop of the second function starts again at the beginning of `b` for every sample
(`writeSamples_eq`), so each sample stored is a copy of the first one.

* `samples_iff`: it does what it is for, which is the work of single writes in a row, exactly when
  the samples it stores are all equal.
-/

namespace KS3.Buffers

/-- The outcome of a loop that stores into `data`: the value of `index`, the octets and the places
stored to. -/
structure Stored where
  index : ℕ
  data : Mem
  stores : List ℕ

/-- The loop `for(uint16_t i = 0; i < t_size; ) data[index++] = b[i++]`, with `fuel` rounds. -/
def copySample (b : Mem) (t_size : UInt32) : ℕ → ℕ → Stored → Option Stored
  | 0, _, _ => none
  | fuel + 1, i, s =>
    if i < t_size.toNat then
      copySample b t_size fuel ((i + 1) % 2 ^ 16)
        { index := (s.index + 1) % 2 ^ 16
          data := s.data.store s.index (b i)
          stores := s.stores ++ [s.index] }
    else
      some s

/-- The outcome of `write`: what it returns, the buffer and the places stored to. -/
structure WriteOut where
  rc : ℕ
  buffer : TDataBuffer
  stores : List ℕ

namespace TDataBuffer

/-- `size * t_size`, in 32 bits. -/
def offset (d : TDataBuffer) (t_size : UInt32) : ℕ := d.size.toNat * t_size.toNat % 2 ^ 32

/-- `write(b, t_size)`: one sample. -/
def write (d : TDataBuffer) (b : Mem) (t_size : UInt32) : Option TDataBuffer :=
  (copySample b t_size (t_size.toNat + 1) 0 ⟨d.offset t_size % 2 ^ 16, d.data, []⟩).map
    fun s => { d with size := d.size + 1, data := s.data }

/-- There is room for a sample: `(kMaxDataSize - size * t_size) >= t_size`, in 32 bits. -/
def HasRoom (d : TDataBuffer) (t_size : UInt32) : Prop :=
  t_size.toNat ≤ (kMaxDataSize + 2 ^ 32 - d.offset t_size) % 2 ^ 32

instance (d : TDataBuffer) (t_size : UInt32) : Decidable (d.HasRoom t_size) :=
  inferInstanceAs (Decidable (_ ≤ _))

/-- The `while` loop of `write(b, t_size, n)`, with `fuel` rounds. -/
def samplesLoop (b : Mem) (t_size : UInt32) (n : UInt16) :
    ℕ → ℕ → ℕ → TDataBuffer → List ℕ → Option WriteOut
  | 0, _, _, _, _ => none
  | fuel + 1, j, index, d, stores =>
    if j < n.toNat ∧ d.HasRoom t_size then
      (copySample b t_size (t_size.toNat + 1) 0 ⟨index, d.data, stores⟩).bind fun s =>
        samplesLoop b t_size n fuel ((j + 1) % 2 ^ 16) s.index
          { d with size := d.size + 1, data := s.data } s.stores
    else
      some ⟨j, d, stores⟩

/-- `write(b, t_size, n)`: up to `n` samples. -/
def writeSamples (d : TDataBuffer) (b : Mem) (t_size : UInt32) (n : UInt16) : Option WriteOut :=
  samplesLoop b t_size n (n.toNat + 1) 0 (d.offset t_size % 2 ^ 16) d []

/-- `j` single writes in a row, of the samples of `b` one after the other. -/
def writeEach (b : Mem) (t_size : UInt32) : ℕ → TDataBuffer → Option TDataBuffer
  | 0, d => some d
  | j + 1, d => (d.write b t_size).bind (writeEach (b.shift t_size.toNat) t_size j)

end TDataBuffer

/-! ## The loops -/

/-- **One sample** goes to the octets from `index` on. -/
theorem copySample_eq (b : Mem) (t_size : UInt32) (ht : t_size.toNat < 2 ^ 16) (k : ℕ) {i fuel : ℕ}
    (s : Stored) (hk : i + k = t_size.toNat) (hfuel : k < fuel) (hindex : s.index + k < 2 ^ 16) :
    copySample b t_size fuel i s = some
      { index := s.index + k
        data := s.data.write s.index (b.read i k)
        stores := s.stores ++ List.range' s.index k } := by
  induction k generalizing i fuel s with
  | zero =>
    obtain ⟨fuel, rfl⟩ := Nat.exists_eq_succ_of_ne_zero hfuel.ne'
    rw [copySample, if_neg (by omega)]
    simp
  | succ k ih =>
    obtain ⟨fuel, rfl⟩ := Nat.exists_eq_succ_of_ne_zero (Nat.ne_zero_of_lt hfuel)
    rw [copySample, if_pos (by omega), Nat.mod_eq_of_lt (by omega),
      Nat.mod_eq_of_lt (show s.index + 1 < 2 ^ 16 by omega),
      ih _ (by omega) (by omega) (by simpa using by omega)]
    have hdata : (s.data.write s.index [b i]).write (s.index + 1) (b.read (i + 1) k) =
        s.data.write s.index (b.read i (k + 1)) := by
      rw [Mem.read_succ_eq_cons]
      exact s.data.write_append s.index [b i] _
    have hnext : s.index + 1 + k = s.index + (k + 1) := by omega
    rw [Mem.store_eq_write, hdata, hnext, List.append_assoc, List.range'_succ]
    rfl

namespace TDataBuffer

section Fits

variable {d : TDataBuffer} {t_size : UInt32} (b : Mem)

theorem offset_eq (hfit : d.size.toNat * t_size.toNat ≤ kMaxDataSize) :
    d.offset t_size = d.size.toNat * t_size.toNat :=
  Nat.mod_eq_of_lt (hfit.trans_lt (by decide))

theorem offset_mod (hfit : d.size.toNat * t_size.toNat ≤ kMaxDataSize) :
    d.offset t_size % 2 ^ 16 = d.size.toNat * t_size.toNat := by
  rw [offset_eq hfit]
  exact Nat.mod_eq_of_lt (hfit.trans_lt (by decide))

theorem hasRoom_iff (hfit : d.size.toNat * t_size.toNat ≤ kMaxDataSize) :
    d.HasRoom t_size ↔ (d.size.toNat + 1) * t_size.toNat ≤ kMaxDataSize := by
  have hmax : kMaxDataSize = 504 := rfl
  rw [HasRoom, offset_eq hfit, Nat.succ_mul]
  omega

/-- Where several more samples fit, there is room for the first of them. -/
theorem room_of_fits {r : ℕ}
    (hfits : (d.size.toNat + (r + 1)) * t_size.toNat ≤ kMaxDataSize) :
    (d.size.toNat + 1) * t_size.toNat ≤ kMaxDataSize ∧
      d.size.toNat * t_size.toNat ≤ kMaxDataSize :=
  ⟨(Nat.mul_le_mul_right _ (by omega)).trans hfits,
    (Nat.mul_le_mul_right _ (by omega)).trans hfits⟩

variable (hpos : 1 ≤ t_size.toNat)

include hpos in
/-- A sample more is counted without a wrap. -/
theorem toNat_size_add_one (hroom : (d.size.toNat + 1) * t_size.toNat ≤ kMaxDataSize) :
    (d.size + 1).toNat = d.size.toNat + 1 := by
  have hmax : kMaxDataSize = 504 := rfl
  have hle := Nat.le_mul_of_pos_right (d.size.toNat + 1) hpos
  rw [UInt16.toNat_add, UInt16.toNat_one, Nat.mod_eq_of_lt (by omega)]

/-- The copy of a sample for which there is room. -/
theorem copySample_room (hroom : (d.size.toNat + 1) * t_size.toNat ≤ kMaxDataSize)
    (stores : List ℕ) :
    copySample b t_size (t_size.toNat + 1) 0 ⟨d.size.toNat * t_size.toNat, d.data, stores⟩ = some
      { index := (d.size.toNat + 1) * t_size.toNat
        data := d.data.write (d.size.toNat * t_size.toNat) (b.read 0 t_size.toNat)
        stores := stores ++ List.range' (d.size.toNat * t_size.toNat) t_size.toNat } := by
  have hmax : kMaxDataSize = 504 := rfl
  rw [Nat.succ_mul] at hroom ⊢
  exact copySample_eq b t_size (by omega) t_size.toNat _ (Nat.zero_add _) (Nat.lt_succ_self _)
    (show d.size.toNat * t_size.toNat + t_size.toNat < 2 ^ 16 by omega)

/-- What is written behind a sample. -/
theorem write_sample (m : Mem) (s t : ℕ) (bs : List UInt8) :
    (m.write (s * t) (b.read 0 t)).write ((s + 1) * t) bs =
      m.write (s * t) (b.read 0 t ++ bs) := by
  have hend : (s + 1) * t = s * t + (b.read 0 t).length := by
    rw [Mem.length_read, Nat.succ_mul]
  rw [hend, Mem.write_append]

theorem add_one_add_ofNat (size : UInt16) (r : ℕ) :
    size + 1 + UInt16.ofNat r = size + UInt16.ofNat (r + 1) := by
  rw [UInt16.ofNat_add, UInt16.add_assoc, UInt16.add_comm 1]
  rfl

include hpos in
/-- **The loop over the samples**: `r` more of them are stored, each a copy of the first one. -/
theorem samplesLoop_eq {n : UInt16} (r : ℕ) {j fuel : ℕ} {d : TDataBuffer} (stores : List ℕ)
    (hn : j + r ≤ n.toNat) (hfits : (d.size.toNat + r) * t_size.toNat ≤ kMaxDataSize)
    (hstop : j + r = n.toNat ∨ kMaxDataSize < (d.size.toNat + r + 1) * t_size.toNat)
    (hfuel : r < fuel) :
    samplesLoop b t_size n fuel j (d.size.toNat * t_size.toNat) d stores = some
      { rc := j + r
        buffer := { d with
          size := d.size + UInt16.ofNat r
          data := d.data.write (d.size.toNat * t_size.toNat)
            (List.replicate r (b.read 0 t_size.toNat)).flatten }
        stores := stores ++ List.range' (d.size.toNat * t_size.toNat) (r * t_size.toNat) } := by
  induction r generalizing j fuel d stores with
  | zero =>
    obtain ⟨fuel, rfl⟩ := Nat.exists_eq_succ_of_ne_zero hfuel.ne'
    have hend : ¬ (j < n.toNat ∧ d.HasRoom t_size) := by
      rw [hasRoom_iff hfits]
      rintro ⟨hj, hroom⟩
      rcases hstop with h | h
      · omega
      · exact absurd hroom (Nat.not_le.2 h)
    rw [samplesLoop, if_neg hend]
    simp
  | succ r ih =>
    obtain ⟨fuel, rfl⟩ := Nat.exists_eq_succ_of_ne_zero (Nat.ne_zero_of_lt hfuel)
    obtain ⟨hroom, hfit⟩ := room_of_fits hfits
    have hsize := toNat_size_add_one hpos hroom
    have hlt := n.toNat_lt
    rw [samplesLoop, if_pos ⟨by omega, (hasRoom_iff hfit).2 hroom⟩, copySample_room b hroom,
      Option.bind_some, Nat.mod_eq_of_lt (by omega), ← hsize]
    have hcount : d.size.toNat + 1 + r = d.size.toNat + (r + 1) := by omega
    refine (ih (d := { d with
      size := d.size + 1
      data := d.data.write (d.size.toNat * t_size.toNat) (b.read 0 t_size.toNat) }) _
      (by omega) (by rw [hsize, hcount]; exact hfits)
      (by rw [hsize, hcount]; exact hstop.imp_left (by omega)) (by omega)).trans ?_
    have hlen : t_size.toNat + r * t_size.toNat = (r + 1) * t_size.toNat := by
      rw [Nat.succ_mul, Nat.add_comm]
    simp only [hsize, write_sample, List.append_assoc, List.replicate_succ, List.flatten_cons,
      add_one_add_ofNat]
    rw [Nat.succ_mul, List.range'_append_1, hlen, Nat.add_assoc, Nat.add_comm 1 r]

/-- `j` single writes store the samples of `b` in order. -/
theorem writeEach_eq (j : ℕ) {d : TDataBuffer} (hpos : 1 ≤ t_size.toNat)
    (hfits : (d.size.toNat + j) * t_size.toNat ≤ kMaxDataSize) :
    writeEach b t_size j d = some { d with
      size := d.size + UInt16.ofNat j
      data := d.data.write (d.size.toNat * t_size.toNat) (b.read 0 (j * t_size.toNat)) } := by
  induction j generalizing d b with
  | zero => simp [writeEach]
  | succ j ih =>
    obtain ⟨hroom, hfit⟩ := room_of_fits hfits
    have hsize := toNat_size_add_one hpos hroom
    have hcount : d.size.toNat + 1 + j = d.size.toNat + (j + 1) := by omega
    have hread : b.read 0 ((j + 1) * t_size.toNat) =
        b.read 0 t_size.toNat ++ (b.shift t_size.toNat).read 0 (j * t_size.toNat) := by
      rw [Nat.succ_mul, Nat.add_comm, Mem.read_add, Mem.read_shift, Nat.zero_add, Nat.add_zero]
    rw [writeEach, write, offset_mod hfit, copySample_room b hroom, Option.map_some,
      Option.bind_some]
    refine (ih _ (by rw [hsize, hcount]; exact hfits)).trans ?_
    simp only [hsize, write_sample, hread, add_one_add_ofNat]

end Fits

/-! ## What comes out -/

section Samples

variable (d : TDataBuffer) (b : Mem) (t_size : UInt32) (n : UInt16)

/-- How many of `n` samples there is room for. -/
def fitting : ℕ := min n.toNat ((kMaxDataSize - d.size.toNat * t_size.toNat) / t_size.toNat)

variable {d t_size}

theorem fitting_fits (hfit : d.size.toNat * t_size.toNat ≤ kMaxDataSize) :
    (d.size.toNat + d.fitting t_size n) * t_size.toNat ≤ kMaxDataSize := by
  have hle : d.fitting t_size n * t_size.toNat ≤ kMaxDataSize - d.size.toNat * t_size.toNat :=
    (Nat.mul_le_mul_right _ (Nat.min_le_right _ _)).trans (Nat.div_mul_le_self _ _)
  rw [Nat.add_mul]
  omega

theorem fitting_stop (hpos : 1 ≤ t_size.toNat) :
    d.fitting t_size n = n.toNat ∨
      kMaxDataSize < (d.size.toNat + d.fitting t_size n + 1) * t_size.toNat := by
  rcases Nat.le_total n.toNat
    ((kMaxDataSize - d.size.toNat * t_size.toNat) / t_size.toNat) with h | h
  · exact .inl (Nat.min_eq_left h)
  · refine .inr ?_
    have hlt := Nat.lt_mul_div_succ (kMaxDataSize - d.size.toNat * t_size.toNat) hpos
    rw [fitting, Nat.min_eq_right h, Nat.add_assoc, Nat.add_mul, Nat.mul_comm (_ + 1)]
    omega

/-- **What `write(b, t_size, n)` does**: it stores as many samples as fit, all of them copies of the
first sample of `b`. -/
theorem writeSamples_eq (hfit : d.size.toNat * t_size.toNat ≤ kMaxDataSize)
    (hpos : 1 ≤ t_size.toNat) :
    d.writeSamples b t_size n = some
      { rc := d.fitting t_size n
        buffer := { d with
          size := d.size + UInt16.ofNat (d.fitting t_size n)
          data := d.data.write (d.size.toNat * t_size.toNat)
            (List.replicate (d.fitting t_size n) (b.read 0 t_size.toNat)).flatten }
        stores := List.range' (d.size.toNat * t_size.toNat)
          (d.fitting t_size n * t_size.toNat) } := by
  have hle : d.fitting t_size n ≤ n.toNat := Nat.min_le_left _ _
  rw [writeSamples, offset_mod hfit, samplesLoop_eq b hpos (d.fitting t_size n) [] (by omega)
    (fitting_fits n hfit) (by simpa using fitting_stop n hpos) (Nat.lt_succ_of_le hle),
    Nat.zero_add, List.nil_append]

/-- Copies of the first sample are the samples of `b` exactly when these are all equal. -/
theorem flatten_replicate_eq_iff (t j : ℕ) :
    (List.replicate j (b.read 0 t)).flatten = b.read 0 (j * t) ↔
      ∀ k < j, b.read (k * t) t = b.read 0 t := by
  induction j with
  | zero => simp
  | succ j ih =>
    have hlen : (List.replicate j (b.read 0 t)).flatten.length = (b.read 0 (j * t)).length := by
      simp
    rw [List.replicate_succ', List.flatten_concat, Nat.succ_mul, Mem.read_add, Nat.zero_add]
    refine ⟨fun h k hk => ?_, fun h => ?_⟩
    · obtain ⟨hinit, hlast⟩ := List.append_inj h hlen
      rcases Nat.lt_succ_iff_lt_or_eq.1 hk with hk | rfl
      · exact ih.1 hinit k hk
      · exact hlast.symm
    · rw [ih.2 fun k hk => h k (Nat.lt_succ_of_lt hk), h j (Nat.lt_succ_self j)]

variable (d t_size)

/-- What `write(b, t_size, n)` is for: it stores the first samples of `b` in order, as many as fit
and `n` at most, and nothing else, as single writes in a row do. -/
structure StoresSamples (out : WriteOut) : Prop where
  rc : out.rc = d.fitting t_size n
  size : out.buffer.size.toNat = d.size.toNat + d.fitting t_size n
  stored : out.buffer.data.read (d.size.toNat * t_size.toNat) (d.fitting t_size n * t_size.toNat) =
    b.read 0 (d.fitting t_size n * t_size.toNat)
  frame : ∀ k, k < d.size.toNat * t_size.toNat ∨
    (d.size.toNat + d.fitting t_size n) * t_size.toNat ≤ k → out.buffer.data k = d.data k
  inBounds : ∀ i ∈ out.stores, i < kMaxDataSize
  each : writeEach b t_size (d.fitting t_size n) d = some out.buffer

/-- **Several samples**: `write(b, t_size, n)` stores the samples of `b` exactly when those that fit
are all equal to the first one. -/
theorem samples_iff (hfit : d.size.toNat * t_size.toNat ≤ kMaxDataSize)
    (hpos : 1 ≤ t_size.toNat) :
    (∃ out, d.writeSamples b t_size n = some out ∧ d.StoresSamples b t_size n out) ↔
      ∀ k < d.fitting t_size n, b.read (k * t_size.toNat) t_size.toNat = b.read 0 t_size.toNat := by
  have hfits := fitting_fits n hfit
  have hmax : kMaxDataSize = 504 := rfl
  have hcount : d.size.toNat + d.fitting t_size n ≤ kMaxDataSize :=
    (Nat.le_mul_of_pos_right _ hpos).trans hfits
  have hlen : (List.replicate (d.fitting t_size n) (b.read 0 t_size.toNat)).flatten.length =
      d.fitting t_size n * t_size.toNat := by
    simp
  rw [writeSamples_eq b n hfit hpos, ← flatten_replicate_eq_iff]
  refine ⟨?_, fun h => ⟨_, rfl, ?_⟩⟩
  · rintro ⟨out, hout, h⟩
    obtain rfl := Option.some.inj hout
    have hstored := h.stored
    rwa [← hlen, Mem.read_write, hlen] at hstored
  · exact
      { rc := rfl
        size := by
          rw [UInt16.toNat_add, UInt16.toNat_ofNat', Nat.add_mod_mod,
            Nat.mod_eq_of_lt (by omega)]
        stored := by
          rw [← hlen, Mem.read_write, hlen, h]
        frame := fun k hk => by
          rcases hk with hk | hk
          · exact Mem.write_of_lt _ hk _
          · rw [Nat.add_mul] at hk
            exact Mem.write_of_le _ _ (by rwa [hlen])
        inBounds := fun i hi => by
          have hlast := List.mem_range'_1.1 hi
          rw [Nat.add_mul] at hfits
          omega
        each := by
          rw [writeEach_eq b _ hpos hfits, h] }

end Samples

/-- A buffer without samples. -/
def emptyBuffer : TDataBuffer := ⟨0, 0, 0, fun _ => 0⟩

/-- Of the samples 1 and 2 of one octet, the first one is stored twice. -/
theorem samples_repeated :
    ¬ ∃ out, emptyBuffer.writeSamples (Mem.ofList [1, 2]) 1 2 = some out ∧
      emptyBuffer.StoresSamples (Mem.ofList [1, 2]) 1 2 out := by
  rw [writeSamples_eq _ _ (by decide) (by decide)]
  rintro ⟨out, hout, h⟩
  obtain rfl := Option.some.inj hout
  exact absurd h.stored (by decide)

/-- Two samples of two octets each, which are equal. -/
theorem samples_equal :
    emptyBuffer.size.toNat * (2 : UInt32).toNat ≤ kMaxDataSize ∧ 1 ≤ (2 : UInt32).toNat ∧
      ∃ out, emptyBuffer.writeSamples (Mem.ofList [5, 6, 5, 6]) 2 2 = some out ∧
        emptyBuffer.StoresSamples (Mem.ofList [5, 6, 5, 6]) 2 2 out :=
  ⟨by decide, by decide,
    (samples_iff emptyBuffer (Mem.ofList [5, 6, 5, 6]) 2 2 (by decide) (by decide)).2 (by decide)⟩

end TDataBuffer

end KS3.Buffers
