import KS3.Foundations.Run
import KS3.Comm.TBuffer

/-!
# What a `TBuffer` holds over whole runs

A buffer of octets is there to give them back in the order they came. `evolve` says what an
operation does to the list of octets in the buffer, `Served` what it has to answer, and `twin` runs
a buffer and the list side by side.

The buffer follows the list but for four cases (`Admissible`). A block of no octets written into an
empty buffer makes it full, and so does any block written into an empty buffer of one octet, which
by the count of `free` has no room. A block of no octets read from a full buffer empties it. And a
buffer constructed full has `iwrite` behind its array until it is flushed or written a block.

* `isFifo_iff`: a run follows the list exactly when none of its steps is one of these;
* `accounts_iff`: `free`, `dataSize` and the two ways to write agree exactly in a full buffer.
-/

namespace KS3.Comm.TBuffer

/-! ## Lists of octets -/

/-- What the list of octets becomes by an operation that returns `k`. -/
def evolve (l : List UInt8) (op : Op) (k : ℕ) : List UInt8 :=
  match op with
  | .write c => l ++ [c].take k
  | .writeBlock buf n => l ++ (buf.read 0 n.toNat).take k
  | .read => l.tail
  | .readBlock _ => l.drop k
  | .flush => []
  | .copy => l

/-- What an operation answers when the buffer holds the list. -/
def Served (l : List UInt8) (op : Op) (a : Answer) : Prop :=
  match op with
  | .write _ => a.result ≤ 1
  | .writeBlock _ n => a.result ≤ n.toNat
  | .read => a.result = (l.headD 0).toNat
  | .readBlock n => a.result = min n.toNat l.length ∧ a.delivered = l.take a.result
  | .flush => True
  | .copy => True

/-- A buffer and a list side by side. -/
def twin (s : TBuffer × List UInt8) (op : Op) : TBuffer × List UInt8 :=
  ((s.1.step op).2, evolve s.2 op (s.1.step op).1.result)

/-- The buffer holds the list, counts it and has its indices inside its array. -/
structure Agrees (s : TBuffer × List UInt8) : Prop where
  content_eq : s.1.content = s.2
  dataSize_eq : s.1.dataSize = s.2.length
  iread_mem : 0 ≤ s.1.iread ∧ s.1.iread < s.1.size
  iwrite_mem : 0 ≤ s.1.iwrite ∧ s.1.iwrite < s.1.size

/-- A run follows the list: the list is counted at its beginning, every operation is answered as
the list asks, and buffer and list agree after it. -/
def IsFifo (s : TBuffer × List UInt8) (ops : List Op) : Prop :=
  s.1.dataSize = s.2.length ∧
    ∀ m ∈ Run.steps twin s ops, Served m.1.2 m.2 (m.1.1.step m.2).1 ∧ Agrees (twin m.1 m.2)

/-! ## The steps that go wrong -/

/-- An operation that does not make the buffer lose its list. -/
def Admissible (s : TBuffer × List UInt8) (op : Op) : Prop :=
  match op with
  | .flush => True
  | .writeBlock _ n => s.2 = [] → n ≠ 0 ∧ s.1.size ≠ 1
  | .readBlock n => ((s.2.length : ℤ) = s.1.size → n ≠ 0) ∧ s.1.iwrite ≠ s.1.size
  | .write _ => s.1.iwrite ≠ s.1.size
  | .read => s.1.iwrite ≠ s.1.size
  | .copy => s.1.iwrite ≠ s.1.size

instance (s : TBuffer × List UInt8) (op : Op) : Decidable (Admissible s op) :=
  match op with
  | .flush => inferInstanceAs (Decidable True)
  | .writeBlock _ n => inferInstanceAs (Decidable (s.2 = [] → n ≠ 0 ∧ s.1.size ≠ 1))
  | .readBlock n =>
    inferInstanceAs (Decidable (((s.2.length : ℤ) = s.1.size → n ≠ 0) ∧ s.1.iwrite ≠ s.1.size))
  | .write _ => inferInstanceAs (Decidable (s.1.iwrite ≠ s.1.size))
  | .read => inferInstanceAs (Decidable (s.1.iwrite ≠ s.1.size))
  | .copy => inferInstanceAs (Decidable (s.1.iwrite ≠ s.1.size))

/-- The buffer holds the list and its indices stand inside the array. -/
def Holds (s : TBuffer × List UInt8) : Prop := s.1.Ok ∧ s.1.content = s.2

/-- The buffer was constructed full: its index stands behind the array. -/
structure Brim (s : TBuffer × List UInt8) : Prop where
  size_pos : 1 ≤ s.1.size
  size_lt : s.1.size < 32768
  iread_eq : s.1.iread = 0
  iwrite_eq : s.1.iwrite = s.1.size
  full : s.1.full = true
  content_eq : s.1.content = s.2

theorem agrees_of_holds {s : TBuffer × List UInt8} (h : Holds s) : Agrees s := by
  obtain ⟨hok, hcontent⟩ := h
  refine ⟨hcontent, ?_, ⟨hok.iread_nonneg, hok.iread_lt⟩, hok.iwrite_nonneg, hok.iwrite_lt⟩
  rw [← hcontent, length_content]

section Steps

variable {b : TBuffer} (h : b.Ok)

include h

/-- Nothing written into an empty buffer makes it full. -/
theorem dataSize_pushed_nil (hzero : b.dataSize = 0) : ((b.pushed []).dataSize : ℤ) = b.size := by
  have hroom : (([] : List UInt8).length : ℤ) + b.dataSize ≤ b.size := by
    simpa using dataSize_le h
  rw [← pushed_size b [], ← full_iff (ok_pushed h hroom), pushed_full]
  have hsize := dataSize_eq h
  obtain ⟨-, h₂, h₃, h₄, h₅, -⟩ := h
  rw [hzero, List.length_nil, Nat.cast_zero, add_zero] at *
  rw [turn, if_pos h₅, if_pos (by split_ifs at hsize <;> omega)]

/-- Nothing read from a full buffer empties it. -/
theorem dataSize_popped_zero (hfull : b.full) : (b.popped 0).dataSize = 0 := by
  have hsize := dataSize_eq (ok_popped h (Nat.zero_le _))
  have hmeet := h.meet hfull
  rw [popped_full, if_neg Bool.false_ne_true, popped_iread, popped_iwrite, Nat.cast_zero,
    add_zero, turn, if_pos h.iread_lt, if_pos hmeet.le] at hsize
  omega

/-- A block of which octets are accepted, or that finds octets in the buffer. -/
theorem content_writeBlock (buf : Mem) (n : UInt16)
    (hsome : min n.toNat b.free ≠ 0 ∨ b.dataSize ≠ 0) :
    (b.pushed (buf.read 0 (min n.toNat b.free))).content =
      b.content ++ (buf.read 0 n.toNat).take (min n.toNat b.free) := by
  have hfree := free_eq h
  have hle := dataSize_le h
  rw [buf.take_read (min_le_left _ _)]
  refine content_pushed h ?_ (by simpa using hsome)
  rw [Mem.length_read]
  split_ifs at hfree <;> omega

end Steps

/-! ## One operation -/

section Twin

variable {s : TBuffer × List UInt8}

/-- Every operation is answered as the list asks. -/
theorem served_step {b : TBuffer} (h : b.Ok) (op : Op) : Served b.content op (b.step op).1 := by
  cases op with
  | write c =>
    simp only [Served, step, write_eq h]
    split_ifs <;> simp
  | writeBlock buf n =>
    simp only [Served, step, writeBlock_eq h]
    exact min_le_left _ _
  | read => simp only [Served, step, read_eq h]
  | readBlock n => simp only [Served, step, readBlock_eq h, length_content, and_self]
  | flush => trivial
  | copy => trivial

/-- A block that is admissible is accepted in part, or finds octets in the buffer. -/
theorem some_of_admissible {b : TBuffer} (h : b.Ok) {buf : Mem} {n : UInt16}
    (hop : Admissible (b, b.content) (.writeBlock buf n)) :
    min n.toNat b.free ≠ 0 ∨ b.dataSize ≠ 0 := by
  by_cases hzero : b.dataSize = 0
  · obtain ⟨hn, hone⟩ := hop (List.length_eq_zero_iff.1 ((length_content b).trans hzero))
    have hn' : n.toNat ≠ 0 := fun heq => hn (UInt16.toNat_inj.1 heq)
    have hpos := h.size_pos
    have hnot : ¬ b.full := fun hfull => by
      have heq := (full_iff h).1 hfull
      omega
    have hfree := free_eq h
    rw [if_neg hnot] at hfree
    dsimp only at hone
    omega
  · exact .inr hzero

/-- A block that is read admissibly gives an octet, or the buffer is not full. -/
theorem some_of_admissible_read {b : TBuffer} (h : b.Ok) {n : UInt16}
    (hop : Admissible (b, b.content) (.readBlock n)) : min n.toNat b.dataSize ≠ 0 ∨ ¬ b.full := by
  by_cases hfull : b.full
  · have heq := (full_iff h).1 hfull
    have hpos := h.size_pos
    have hn : n ≠ 0 := hop.1 (by rw [length_content]; exact heq)
    have hn' : n.toNat ≠ 0 := fun heq => hn (UInt16.toNat_inj.1 heq)
    left
    omega
  · exact .inr hfull

/-- **One operation** that is admissible is answered as the list asks, and the buffer holds the
list after it. -/
theorem holds_twin (h : Holds s) {op : Op} (hop : Admissible s op) :
    Served s.2 op (s.1.step op).1 ∧ Holds (twin s op) := by
  obtain ⟨b, l⟩ := s
  obtain ⟨hok, rfl⟩ : b.Ok ∧ b.content = l := h
  refine ⟨served_step hok op, ok_step hok op, ?_⟩
  cases op with
  | write c =>
    simp only [twin, step, evolve, write_eq hok]
    split_ifs with hfull
    · simp
    · have hle := dataSize_le hok
      have hne : (b.dataSize : ℤ) ≠ b.size := fun heq => hfull ((full_iff hok).2 heq)
      exact content_pushed hok (by rw [List.length_singleton]; omega) (.inl (by simp))
  | writeBlock buf n =>
    simp only [twin, step, evolve, writeBlock_eq hok]
    exact content_writeBlock hok buf n (some_of_admissible hok hop)
  | read =>
    simp only [twin, step, evolve, read_eq hok]
    split_ifs with hzero
    · rw [List.length_eq_zero_iff.1 ((length_content b).trans hzero)]
      rfl
    · rw [content_popped hok (by omega) (.inl one_ne_zero), List.drop_one]
  | readBlock n =>
    simp only [twin, step, evolve, readBlock_eq hok]
    exact content_popped hok (min_le_right _ _) (some_of_admissible_read hok hop)
  | flush => rfl
  | copy => rfl

/-- Buffer and list agree after an operation only if it is admissible. -/
theorem admissible_of_agrees (h : Holds s) {op : Op} (hagrees : Agrees (twin s op)) :
    Admissible s op := by
  obtain ⟨b, l⟩ := s
  obtain ⟨hok, rfl⟩ : b.Ok ∧ b.content = l := h
  have hinside : b.iwrite ≠ b.size := hok.iwrite_lt.ne
  have hcount := hagrees.dataSize_eq
  cases op with
  | write c => exact hinside
  | writeBlock buf n =>
    intro hnil
    have hzero : b.dataSize = 0 := (length_content b).symm.trans (congrArg List.length hnil)
    have hfree := free_eq hok
    have hlt := hok.size_pos
    by_contra hnot
    -- the block is not accepted and the buffer is marked full
    have hnone : min n.toNat b.free = 0 := by
      rcases not_and_or.1 hnot with hn | hone
      · rw [not_not.1 hn]
        exact Nat.zero_min _
      · have hone : b.size = 1 := not_not.1 hone
        split_ifs at hfree <;> omega
    have hmarked := dataSize_pushed_nil hok hzero
    simp only [twin, step, evolve, writeBlock_eq hok, hnone, Mem.read_zero, List.take_zero,
      List.append_nil, length_content] at hcount
    omega
  | read => exact hinside
  | readBlock n =>
    refine ⟨fun hlength hn => ?_, hinside⟩
    have hfull : b.full := (full_iff hok).2 (by rw [← length_content]; exact hlength)
    have hlt := hok.size_pos
    have hnone : min n.toNat b.dataSize = 0 := by
      rw [hn]
      exact Nat.zero_min _
    simp only [twin, step, evolve, readBlock_eq hok, hnone, dataSize_popped_zero hok hfull,
      List.drop_zero, length_content] at hcount hlength
    omega
  | flush => trivial
  | copy => exact hinside

/-- Writing a block into a buffer constructed full accepts nothing and brings the index back. -/
theorem brim_writeBlock (h : Brim s) (buf : Mem) (n : UInt16) :
    s.1.writeBlock buf n = (0, { s.1 with iwrite := 0 }) := by
  obtain ⟨h₁, h₂, hread, hwrite, hfull, -⟩ := h
  have hfree : s.1.free = 0 := by rw [free, if_pos hfull]
  have hn1 : (if s.1.free > n.toNat then n.toNat else s.1.free) = 0 := by
    rw [hfree]
    exact if_neg (Nat.not_lt_zero _)
  have hd : uint16 (s.1.size - s.1.iwrite) = 0 := by
    rw [hwrite, sub_self]
    rfl
  have hout : ¬ s.1.iwrite + ((0 : ℕ) : ℤ) < s.1.size := by
    rw [hwrite, Nat.cast_zero, add_zero]
    exact lt_irrefl _
  simp only [writeBlock, hn1, if_neg hout, hd, Mem.read_zero, Mem.write_nil, hread, hfull, ite_self]
  rfl

/-- A buffer constructed full holds its list once an admissible operation has brought its index
back. -/
theorem brim_twin (h : Brim s) {op : Op} (hop : Admissible s op) :
    Served s.2 op (s.1.step op).1 ∧ Holds (twin s op) := by
  have hwrite := h.iwrite_eq
  cases op with
  | write c => exact absurd hwrite hop
  | writeBlock buf n =>
    simp only [Served, twin, step, evolve, brim_writeBlock h, List.take_zero, List.append_nil]
    obtain ⟨h₁, h₂, hread, -, hfull, hcontent⟩ := h
    have hpos : (0 : ℤ) < s.1.size := h₁
    refine ⟨Nat.zero_le _, ⟨h₂, hread.ge, hread.trans_lt hpos, le_rfl, hpos, fun _ => hread⟩, ?_⟩
    rw [← hcontent, content, content]
    congr 1
    simp only [dataSize, hfull, if_true]
  | read => exact absurd hwrite hop
  | readBlock n => exact absurd hwrite hop.2
  | flush =>
    have hpos : (0 : ℤ) < s.1.size := h.size_pos
    exact ⟨trivial, ⟨h.size_lt, le_rfl, hpos, le_rfl, hpos, Bool.noConfusion⟩, rfl⟩
  | copy => exact absurd hwrite hop

theorem admissible_of_agrees_brim (h : Brim s) {op : Op} (hagrees : Agrees (twin s op)) :
    Admissible s op := by
  have hinside := hagrees.iwrite_mem.2
  have hread : s.1.read.2.iwrite = s.1.iwrite ∧ s.1.read.2.size = s.1.size := by
    rw [read]
    split_ifs <;> exact ⟨rfl, rfl⟩
  have hblock : ∀ n, (s.1.readBlock n).2.iwrite = s.1.iwrite ∧
      (s.1.readBlock n).2.size = s.1.size := by
    intro n
    simp only [readBlock]
    split_ifs <;> exact ⟨rfl, rfl⟩
  cases op with
  | write c =>
    rw [twin, step, write, if_pos h.full] at hinside
    exact hinside.ne
  | writeBlock buf n =>
    intro hnil
    have hsize := congrArg List.length (h.content_eq.trans hnil)
    have h₁ := h.size_pos
    have h₂ := h.size_lt
    rw [length_content, dataSize, if_pos h.full, uint16, List.length_nil] at hsize
    omega
  | read =>
    rw [twin, step, hread.1, hread.2] at hinside
    exact hinside.ne
  | readBlock n =>
    rw [twin, step, (hblock n).1, (hblock n).2] at hinside
    exact absurd h.iwrite_eq hinside.ne
  | flush => trivial
  | copy => exact hinside.ne

end Twin

/-! ## Runs -/

section Constructors

variable (abuffer : Mem) {asize : UInt16}

/-- A size of at least one has not wrapped. -/
theorem size_eq_of_pos (hsize : 1 ≤ int16 asize.toNat) :
    int16 asize.toNat = asize.toNat ∧ asize.toNat < 32768 := by
  have hlt := asize.toNat_lt
  rw [int16] at hsize ⊢
  omega

theorem ok_init (hsize : 1 ≤ int16 asize.toNat) : (init abuffer asize).Ok := by
  have hfit := size_eq_of_pos hsize
  have hpos : (0 : ℤ) < int16 asize.toNat := hsize
  exact ⟨hfit.1.trans_lt (by omega), le_rfl, hpos, le_rfl, hpos, Bool.noConfusion⟩

theorem content_initFilled {len : UInt16} (hsize : 1 ≤ int16 asize.toNat)
    (hle : len.toNat ≤ asize.toNat) :
    (initFilled abuffer asize len).content = abuffer.read 0 len.toNat := by
  obtain ⟨hasize, hfit⟩ := size_eq_of_pos hsize
  have hilen : int16 len.toNat = len.toNat := by
    rw [int16]
    omega
  have hdata : (initFilled abuffer asize len).dataSize = len.toNat := by
    simp only [dataSize, initFilled, hasize, hilen]
    by_cases heq : len = asize
    · simp only [heq, if_true, uint16]
      omega
    · simp only [if_neg heq, Bool.false_eq_true, if_false, uint16]
      rw [if_pos (by omega)]
      omega
  rw [content, hdata]
  simp only [initFilled, hasize]
  exact Circular.cells_of_le _ (by simpa using hle)

end Constructors

/-- The constructors of a new buffer. -/
inductive Constructor
  | empty (abuffer : Mem) (asize : UInt16)
  | filled (abuffer : Mem) (asize len : UInt16)

namespace Constructor

/-- The buffer constructed. -/
def buffer : Constructor → TBuffer
  | empty abuffer asize => init abuffer asize
  | filled abuffer asize len => initFilled abuffer asize len

/-- The octets it is meant to hold. -/
def list : Constructor → List UInt8
  | empty _ _ => []
  | filled abuffer _ len => abuffer.read 0 len.toNat

/-- How many these are. -/
def len : Constructor → UInt16
  | empty _ _ => 0
  | filled _ _ len => len

/-- A new buffer holds its octets, or was constructed full. -/
theorem holds_or_brim (c : Constructor) (hsize : 1 ≤ c.buffer.size)
    (hlen : (c.len.toNat : ℤ) ≤ c.buffer.size) :
    Holds (c.buffer, c.list) ∨ Brim (c.buffer, c.list) := by
  cases c with
  | empty abuffer asize => exact .inl ⟨ok_init abuffer hsize, rfl⟩
  | filled abuffer asize len =>
    obtain ⟨hasize, hfit⟩ := size_eq_of_pos hsize
    have hle : len.toNat ≤ asize.toNat := by
      simp only [buffer, initFilled, Constructor.len, hasize] at hlen
      omega
    have hilen : int16 len.toNat = len.toNat := by
      rw [int16]
      omega
    have hcontent := content_initFilled abuffer hsize hle
    simp only [buffer, initFilled, hasize] at hsize
    by_cases heq : len = asize
    · right
      refine ⟨?_, ?_, rfl, ?_, ?_, hcontent⟩
      all_goals
        simp only [buffer, initFilled, hasize, heq, if_true]
      · exact hsize
      · omega
    · have hne : len.toNat ≠ asize.toNat := fun h => heq (UInt16.toNat_inj.1 h)
      left
      refine ⟨⟨?_, le_rfl, ?_, ?_, ?_, ?_⟩, hcontent⟩
      all_goals
        simp only [buffer, initFilled, hasize, hilen, if_neg heq]
      · omega
      · omega
      · omega
      · omega
      · exact Bool.noConfusion

end Constructor

/-- **The octets of a buffer over a run**: from any constructor, a run of operations follows the
list of octets exactly when all its operations are admissible. -/
theorem isFifo_iff (c : Constructor) (hsize : 1 ≤ c.buffer.size)
    (hlen : (c.len.toNat : ℤ) ≤ c.buffer.size) (ops : List Op) :
    IsFifo (c.buffer, c.list) ops ↔
      ∀ m ∈ Run.steps twin (c.buffer, c.list) ops, Admissible m.1 m.2 := by
  have hstart := c.holds_or_brim hsize hlen
  have hcount : c.buffer.dataSize = c.list.length := by
    rcases hstart with hholds | hbrim
    · exact (agrees_of_holds hholds).dataSize_eq
    · exact (length_content _).symm.trans (congrArg List.length hbrim.content_eq)
  rw [IsFifo, and_iff_right hcount]
  refine Run.forall_steps_iff (Q := fun s => Holds s ∨ Brim s)
    (R := fun s op => Served s.2 op (s.1.step op).1 ∧ Agrees (twin s op)) ?_ ?_ hstart ops
  · intro s op hs
    constructor
    · rintro ⟨-, hagrees⟩
      rcases hs with hholds | hbrim
      · exact admissible_of_agrees hholds hagrees
      · exact admissible_of_agrees_brim hbrim hagrees
    · intro hop
      have hstep : Served s.2 op (s.1.step op).1 ∧ Holds (twin s op) :=
        hs.elim (fun hholds => holds_twin hholds hop) fun hbrim => brim_twin hbrim hop
      exact ⟨hstep.1, agrees_of_holds hstep.2⟩
  · intro s op hs hop
    exact .inl (hs.elim (fun hholds => holds_twin hholds hop) fun hbrim => brim_twin hbrim hop).2

/-- A buffer of four octets, two of them there from the beginning, is filled and emptied. -/
theorem isFifo_of_four :
    IsFifo ((Constructor.filled (Mem.ofList [1, 2]) 4 2).buffer, [1, 2])
      [.write 3, .write 4, .write 5, .readBlock 3, .writeBlock (Mem.ofList [6, 7, 8]) 3,
        .read, .copy, .readBlock 9, .flush] :=
  (isFifo_iff (.filled (Mem.ofList [1, 2]) 4 2) (by decide +kernel) (by decide +kernel) _).2
    (by decide +kernel)

/-- A block of no octets makes an empty buffer of eight full. -/
theorem not_isFifo_of_eight :
    ¬ IsFifo ((Constructor.empty (Mem.ofList []) 8).buffer, [])
      [.writeBlock (Mem.ofList []) 0] := by
  rintro ⟨-, hsteps⟩
  have hcount := (hsteps _ (List.mem_singleton.2 rfl)).2.dataSize_eq
  exact absurd hcount (by decide +kernel)

/-! ## Capacity -/

/-- How many octets of a list successive calls of `write(c)` accept. -/
def accepted : TBuffer → List UInt8 → ℕ
  | _, [] => 0
  | b, c :: cs => (b.write c).1 + accepted (b.write c).2 cs

/-- The buffer counts its capacity in one way: free and used octets make up its size, a single
octet is refused when none is free, and a block is accepted as far as there is room, as its octets
one by one are. -/
structure Accounts (b : TBuffer) : Prop where
  sum_eq : (b.free : ℤ) + b.dataSize = b.size
  refused_iff : ∀ c, (b.write c).1 = 0 ↔ b.free = 0
  block_eq : ∀ buf n, 1 ≤ n.toNat →
    (b.writeBlock buf n).1 = min n.toNat (b.size - b.dataSize).toNat ∧
      (b.writeBlock buf n).1 = accepted b (buf.read 0 n.toNat)

section Capacity

variable {b : TBuffer} (h : b.Ok)

include h

theorem sum_eq_iff : (b.free : ℤ) + b.dataSize = b.size ↔ b.full := by
  have hfree := free_eq h
  have hfull := full_iff h
  rw [hfull]
  split_ifs at hfree with hb
  · have := hfull.1 hb
    omega
  · have : (b.dataSize : ℤ) ≠ b.size := fun heq => hb (hfull.2 heq)
    omega

/-- A single octet is refused by a full buffer only. -/
theorem write_eq_zero_iff (c : UInt8) : (b.write c).1 = 0 ↔ b.full := by
  rw [write_eq h]
  split_ifs with hfull <;> simp [hfull]

theorem refused_iff (c : UInt8) :
    ((b.write c).1 = 0 ↔ b.free = 0) ↔ b.full ∨ (b.dataSize : ℤ) + 1 ≠ b.size := by
  have hfree := free_eq h
  rw [write_eq_zero_iff h]
  by_cases hfull : b.full
  · rw [if_pos hfull] at hfree
    simp [hfull, show b.free = 0 by omega]
  · rw [if_neg hfull] at hfree
    simp only [hfull, Bool.false_eq_true, false_iff, false_or]
    omega

omit h in
/-- **Octets one by one** are accepted as far as there is room. -/
theorem accepted_eq (h : b.Ok) (cs : List UInt8) :
    accepted b cs = min cs.length (b.size - b.dataSize).toNat := by
  induction cs generalizing b with
  | nil => simp [accepted]
  | cons c cs ih =>
    have hle := dataSize_le h
    have hfull := full_iff h
    have hok := ok_step h (.write c)
    rw [step] at hok
    rw [accepted, ih hok, write_eq h]
    split_ifs with hb
    · have := hfull.1 hb
      simp
      omega
    · have hne : (b.dataSize : ℤ) ≠ b.size := fun heq => hb (hfull.2 heq)
      dsimp only
      rw [pushed_size, dataSize_pushed h (by rw [List.length_singleton]; omega)
        (.inl (by simp)), List.length_singleton, List.length_cons]
      omega

theorem block_eq_iff (buf : Mem) (n : UInt16) :
    ((b.writeBlock buf n).1 = min n.toNat (b.size - b.dataSize).toNat ∧
      (b.writeBlock buf n).1 = accepted b (buf.read 0 n.toNat)) ↔
      b.full ∨ (n.toNat : ℤ) + b.dataSize < b.size := by
  have hfree := free_eq h
  have hle := dataSize_le h
  have hfull := full_iff h
  rw [accepted_eq h, Mem.length_read, and_self, writeBlock_eq h]
  by_cases hb : b.full
  · have := hfull.1 hb
    rw [if_pos hb] at hfree
    exact iff_of_true (by dsimp only; omega) (.inl hb)
  · have hne : (b.dataSize : ℤ) ≠ b.size := fun heq => hb (hfull.2 heq)
    rw [if_neg hb] at hfree
    dsimp only
    simp only [hb, Bool.false_eq_true, false_or]
    omega

theorem accounts_iff_full : Accounts b ↔ b.full := by
  constructor
  · intro haccounts
    exact (sum_eq_iff h).1 haccounts.sum_eq
  · intro hfull
    refine ⟨(sum_eq_iff h).2 hfull, fun c => (refused_iff h c).2 (.inl hfull), ?_⟩
    intro buf n _
    exact (block_eq_iff h buf n).2 (.inl hfull)

end Capacity

/-- **The capacity of a buffer over a run**: after any operations on an empty buffer, the ways to
count agree exactly if the buffer is full; one less than its room is free otherwise, a single octet
is wrongly expected to be refused only where one octet has room, and a block is accepted like its
octets only if it leaves room for one. -/
theorem accounts_iff (abuffer : Mem) (asize : UInt16) (hsize : 1 ≤ (init abuffer asize).size)
    (ops : List Op) :
    let b := Run.final (fun b op => (step b op).2) (init abuffer asize) ops
    (Accounts b ↔ b.full) ∧
      ((b.free : ℤ) + b.dataSize = b.size ↔ b.full) ∧
      (∀ c, ((b.write c).1 = 0 ↔ b.free = 0) ↔ b.full ∨ (b.dataSize : ℤ) + 1 ≠ b.size) ∧
      ∀ buf n, ((b.writeBlock buf n).1 = min n.toNat (b.size - b.dataSize).toNat ∧
        (b.writeBlock buf n).1 = accepted b (buf.read 0 n.toNat)) ↔
          b.full ∨ (n.toNat : ℤ) + b.dataSize < b.size := by
  intro b
  have hok : b.Ok := Run.always_final (I := Ok) (fun b op hb => ok_step hb op)
    (ok_init abuffer hsize) ops
  exact ⟨accounts_iff_full hok, sum_eq_iff hok, refused_iff hok, block_eq_iff hok⟩

/-- In a buffer of two octets that holds one, another has room and none is free. -/
theorem accounts_iff_two :
    let b := Run.final (fun b op => (step b op).2) (init (Mem.ofList []) 2) [.write 7]
    ¬ Accounts b ∧ b.free = 0 ∧ (b.write 8).1 = 1 ∧ (b.writeBlock (Mem.ofList [8]) 1).1 = 0 := by
  refine ⟨fun haccounts => ?_, by decide +kernel, by decide +kernel, by decide +kernel⟩
  have hfull := (accounts_iff (Mem.ofList []) 2 (by decide +kernel) [.write 7]).1.1 haccounts
  exact absurd hfull (by decide +kernel)

/-- An empty buffer of one octet counts none free. -/
theorem not_accounts_of_one : ¬ Accounts (init (Mem.ofList []) 1) := by
  intro haccounts
  exact absurd haccounts.sum_eq (by decide +kernel)

end KS3.Comm.TBuffer
