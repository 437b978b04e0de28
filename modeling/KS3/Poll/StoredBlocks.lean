import KS3.Poll.SlavePoll
import KS3.Buffers.Storage

/-!
# Where a stored block comes from

A data message has two sizes: `dataSize` in its header, which the parser has compared with what was
received, and the number of samples in the block behind the header, by which `writeBuffer` copies.
Nothing compares the two, so a block may go on behind the end of its message.

* `outcome_eq`: what a data message comes to is what `writeBuffer` makes of its block, if the block
  is passed on;
* `stored_determined_iff`: the result and the stored block depend on the octets of the message only,
  exactly when the message settles that nothing is stored, or has the whole block in it.
-/

namespace KS3.Poll.SlavePoll

open Comm DataIO Protocol Buffers TDataBuffersContainer

/-! ## What a data message comes to -/

/-- The result of `handleData` for a message, and the container after it. -/
def outcome (p : SlavePoll) (q : TQueue TTxRequest) (c : TDataBuffersContainer) (src : UInt16)
    (msg : Mem) : ℤ × TDataBuffersContainer :=
  ((p.handleData writeData q c src (blockOfMem (msg.shift 6)) (msg.word 2)).1,
    (p.handleMsgAppType writeData q c msg src).2.2)

theorem outcome_eq (p : SlavePoll) (q : TQueue TTxRequest) (c : TDataBuffersContainer)
    (src : UInt16) {msg : Mem} (hid : msg.word 2 = kDataId) :
    p.outcome q c src msg =
      if p.Passes src (blockOfMem (msg.shift 6)) then
        c.writeBuffer (blockOfMem (msg.shift 6)) kDataId.toUInt32
      else (0, c) := by
  rw [outcome, handleMsgAppType_data writeData p q c src hid rfl, handleData_eq, hid]
  split_ifs <;> rfl

/-- A block is copied, refused for its size, or finds no buffer. -/
theorem writeBuffer_data (c : TDataBuffersContainer) (block : TDataBuffer) :
    c.writeBuffer block kDataId.toUInt32 =
      match c.lockFreeBuffer.1 with
      | none => (kNoBuffers, c.lockFreeBuffer.2)
      | some n =>
        if block.dataSize ≤ kMaxDataSize then
          (serviceInfoSize + block.dataSize, c.lockFreeBuffer.2.setBuffer n
            { c.lockFreeBuffer.2.buffers n with
              buffer := (c.lockFreeBuffer.2.buffers n).buffer.copy block block.dataSize })
        else (kIncorrectSize, c.lockFreeBuffer.2) := by
  rw [writeBuffer, if_neg (by simp)]
  rcases c.lockFreeBuffer with ⟨_ | n, c'⟩ <;> rfl

theorem writeBuffer_ne_zero (c : TDataBuffersContainer) (block : TDataBuffer) :
    (c.writeBuffer block kDataId.toUInt32).1 ≠ 0 := by
  rw [writeBuffer_data]
  cases c.lockFreeBuffer.1 with
  | none => exact (by decide : kNoBuffers ≠ 0)
  | some n =>
    dsimp only
    split_ifs
    · simp only [serviceInfoSize]
      omega
    · exact (by decide : kIncorrectSize ≠ 0)

/-! ## Blocks and their octets -/

section Blocks

variable {msg msg' : Mem}

theorem packet_blockOfMem (msg : Mem) : (blockOfMem (msg.shift 6)).packet = msg.word 6 := rfl

theorem dataSize_blockOfMem (msg : Mem) :
    (blockOfMem (msg.shift 6)).dataSize = (msg.word 8).toNat * kDataSampleSize := rfl

/-- The tick is made of two words. -/
theorem sync_inj {a b a' b' : UInt16}
    (h : a.toUInt32 ||| (b.toUInt32 <<< 16) = a'.toUInt32 ||| (b'.toUInt32 <<< 16)) :
    a = a' ∧ b = b' := by
  have hvalue : ∀ x y : UInt16, (x.toUInt32 ||| (y.toUInt32 <<< 16)).toNat =
      y.toNat * 2 ^ 16 + x.toNat := by
    intro x y
    have hx := x.toNat_lt
    have hy := y.toNat_lt
    have hshift : (y.toUInt32 <<< 16).toNat = y.toNat <<< 16 := by
      simp [Nat.shiftLeft_eq]
      omega
    rw [UInt32.toNat_or, hshift, UInt16.toNat_toUInt32, Nat.or_comm,
      ← Nat.shiftLeft_add_eq_or_of_lt hx, Nat.shiftLeft_eq]
  have hnat := congrArg UInt32.toNat h
  rw [hvalue, hvalue] at hnat
  have ha := a.toNat_lt
  have ha' := a'.toNat_lt
  exact ⟨UInt16.toNat_inj.1 (by omega), UInt16.toNat_inj.1 (by omega)⟩

/-- A block that lies in the octets on which two messages agree is copied alike. -/
theorem copy_congr {n : ℕ} (h : Mem.Agree msg msg' (6 + n))
    (hin : serviceInfoSize + (msg.word 8).toNat * kDataSampleSize ≤ n) (b : TDataBuffer) :
    b.copy (blockOfMem (msg'.shift 6)) (blockOfMem (msg'.shift 6)).dataSize =
      b.copy (blockOfMem (msg.shift 6)) (blockOfMem (msg.shift 6)).dataSize := by
  simp only [serviceInfoSize] at hin
  have hsize : msg'.word 8 = msg.word 8 := h.word (by omega)
  rw [dataSize_blockOfMem, dataSize_blockOfMem, hsize]
  simp only [TDataBuffer.copy, blockOfMem]
  have hword : ∀ k < 7, (msg'.shift 6).word k = (msg.shift 6).word k := fun k hk =>
    (h.word (k := 6 + k) (by omega))
  rw [hword 0 (by omega), hword 2 (by omega), hword 4 (by omega), hword 6 (by omega),
    Mem.read_shift, Mem.read_shift, Mem.read_shift, Mem.read_shift, h.read (by omega)]

/-- Equal copies have equal octets. -/
theorem octet_eq_of_copy_eq {n : ℕ} (hfour : 4 ≤ n)
    (hsize : (msg'.word 8).toNat = (msg.word 8).toNat)
    (hn : n < serviceInfoSize + (msg.word 8).toNat * kDataSampleSize) {b : TDataBuffer}
    (heq : b.copy (blockOfMem (msg'.shift 6)) (blockOfMem (msg'.shift 6)).dataSize =
      b.copy (blockOfMem (msg.shift 6)) (blockOfMem (msg.shift 6)).dataSize) :
    msg' (6 + n) = msg (6 + n) := by
  simp only [serviceInfoSize] at hn
  rcases lt_or_ge n 8 with h₈ | h₈
  · -- one of the octets of the tick
    obtain ⟨hlo, hhi⟩ := sync_inj (congrArg TDataBuffer.sync heq)
    have hoctets : ∀ k, (msg'.shift 6).word k = (msg.shift 6).word k →
        msg' (6 + k) = msg (6 + k) ∧ msg' (6 + (k + 1)) = msg (6 + (k + 1)) := by
      intro k hk
      have h₀ := congrArg loByte hk
      have h₁ := congrArg hiByte hk
      rw [Mem.word, Mem.word, loByte_ofBytes, loByte_ofBytes] at h₀
      rw [Mem.word, Mem.word, hiByte_ofBytes, hiByte_ofBytes] at h₁
      exact ⟨h₀, h₁⟩
    have hn' : n = 4 ∨ n = 5 ∨ n = 6 ∨ n = 7 := by omega
    rcases hn' with rfl | rfl | rfl | rfl
    · exact (hoctets 4 hlo).1
    · exact (hoctets 4 hlo).2
    · exact (hoctets 6 hhi).1
    · exact (hoctets 6 hhi).2
  · -- one of the octets of the samples
    have hlt : n - 8 < (msg.word 8).toNat * kDataSampleSize := by omega
    have hdata := congrFun (congrArg TDataBuffer.data heq) (0 + (n - 8))
    rw [dataSize_blockOfMem, dataSize_blockOfMem, hsize] at hdata
    simp only [TDataBuffer.copy, blockOfMem] at hdata
    rw [Mem.write_add _ _ (by rwa [Mem.length_read]), Mem.write_add _ _ (by rwa [Mem.length_read]),
      Mem.getD_read _ hlt, Mem.getD_read _ hlt] at hdata
    simp only [Mem.shift_apply] at hdata
    have hplace : 6 + (8 + (0 + (n - 8))) = 6 + n := by omega
    rwa [hplace] at hdata

end Blocks

/-! ## When the message settles the outcome -/

/-- The largest number of samples a buffer has room for. -/
def maxSamples : ℕ := kMaxDataSize / kDataSampleSize

/-- The octets of a message settle what becomes of it: it is not from the slave the machine is at,
or it shows that nothing is stored, because its packet number is the remembered one, no buffer can
be had or its block is too large, or it has its whole block in it. -/
def Settled (p : SlavePoll) (c : TDataBuffersContainer) (src : UInt16) (msg : Mem) : Prop :=
  src ≠ p.polled.address ∨
    (1 ≤ appDataSize msg ∧ msg 6 ≠ loByte p.polled.packet ∧ c.lockFreeBuffer.1 = none) ∨
    (2 ≤ appDataSize msg ∧ (msg.word 6 = p.polled.packet ∨ c.lockFreeBuffer.1 = none)) ∨
    (3 ≤ appDataSize msg ∧ maxSamples < (msg 8).toNat) ∨
    (4 ≤ appDataSize msg ∧ (maxSamples < (msg.word 8).toNat ∨
      serviceInfoSize + (msg.word 8).toNat * kDataSampleSize ≤ appDataSize msg))

section Settled

variable {p : SlavePoll} {q : TQueue TTxRequest} {c : TDataBuffersContainer} {src : UInt16}
  {msg msg' : Mem}

theorem word_two_of_agree (h : Mem.Agree msg msg' (6 + appDataSize msg))
    (hid : msg.word 2 = kDataId) : msg'.word 2 = kDataId :=
  (h.word (by omega)).trans hid

/-- Blocks that are copied alike are stored alike. -/
theorem writeBuffer_congr {block block' : TDataBuffer} (hsize : block'.dataSize = block.dataSize)
    (hcopy : block.dataSize ≤ kMaxDataSize → ∀ b : TDataBuffer,
      b.copy block' block'.dataSize = b.copy block block.dataSize) :
    c.writeBuffer block' kDataId.toUInt32 = c.writeBuffer block kDataId.toUInt32 := by
  rw [writeBuffer_data, writeBuffer_data]
  cases c.lockFreeBuffer.1 with
  | none => rfl
  | some n =>
    dsimp only
    by_cases hle : block.dataSize ≤ kMaxDataSize
    · rw [hsize, if_pos hle, if_pos hle, ← hsize, hcopy hle, hsize]
    · rw [hsize, if_neg hle, if_neg hle]

/-- Blocks that are too large are refused alike. -/
theorem writeBuffer_of_large {block block' : TDataBuffer} (h : kMaxDataSize < block.dataSize)
    (h' : kMaxDataSize < block'.dataSize) :
    c.writeBuffer block' kDataId.toUInt32 = c.writeBuffer block kDataId.toUInt32 := by
  rw [writeBuffer_data, writeBuffer_data]
  cases c.lockFreeBuffer.1 with
  | none => rfl
  | some n =>
    dsimp only
    rw [if_neg (by omega), if_neg (by omega)]

theorem large_iff (msg : Mem) :
    kMaxDataSize < (blockOfMem (msg.shift 6)).dataSize ↔ maxSamples < (msg.word 8).toNat := by
  rw [dataSize_blockOfMem]
  simp only [kMaxDataSize, maxSamples, kDataSampleSize]
  omega

/-- The outcome for messages with one packet number. -/
theorem outcome_congr (hid : msg.word 2 = kDataId) (hid' : msg'.word 2 = kDataId)
    (hpacket : msg'.word 6 = msg.word 6)
    (hwrite : c.writeBuffer (blockOfMem (msg'.shift 6)) kDataId.toUInt32 =
      c.writeBuffer (blockOfMem (msg.shift 6)) kDataId.toUInt32) :
    p.outcome q c src msg' = p.outcome q c src msg := by
  rw [outcome_eq p q c src hid, outcome_eq p q c src hid', hwrite]
  refine if_congr ?_ rfl rfl
  rw [Passes, Passes, packet_blockOfMem, packet_blockOfMem, hpacket]

/-- A message that settles its outcome. -/
theorem determined_of_settled (hid : msg.word 2 = kDataId) (h : p.Settled c src msg) :
    Mem.Determined (p.outcome q c src) msg (6 + appDataSize msg) := by
  intro msg' hagree
  have hid' := word_two_of_agree hagree hid
  by_cases hsrc : src = p.polled.address
  · rcases h.resolve_left (not_not.2 hsrc) with ⟨hn, hlo, hnone⟩ | ⟨hn, hsettled⟩ | ⟨hn, hlarge⟩ |
      ⟨hn, hsettled⟩
    · -- no buffer can be had, whatever the high octet of the packet number is
      have hpasses : ∀ m : Mem, m 6 = msg 6 → p.Passes src (blockOfMem (m.shift 6)) := by
        refine fun m hm => ⟨hsrc, fun heq => hlo ?_⟩
        rw [← heq, packet_blockOfMem, Mem.word, loByte_ofBytes, hm]
      rw [outcome_eq p q c src hid, outcome_eq p q c src hid', if_pos (hpasses msg rfl),
        if_pos (hpasses msg' (hagree 6 (by omega))), writeBuffer_data, writeBuffer_data, hnone]
    · have hpacket : msg'.word 6 = msg.word 6 := hagree.word (by omega)
      rcases hsettled with hknown | hnone
      · rw [outcome_eq p q c src hid, outcome_eq p q c src hid',
          if_neg fun h => h.2 (hpacket.trans hknown), if_neg fun h => h.2 hknown]
      · refine outcome_congr hid hid' hpacket ?_
        rw [writeBuffer_data, writeBuffer_data, hnone]
    · have hsize : ∀ m : Mem, m 8 = msg 8 → maxSamples < (m.word 8).toNat := by
        intro m hm
        rw [Mem.word, toNat_ofBytes, hm]
        omega
      exact outcome_congr hid hid' (hagree.word (by omega)) (writeBuffer_of_large
        ((large_iff msg).2 (hsize msg rfl)) ((large_iff msg').2 (hsize msg' (hagree 8 (by omega)))))
    · have hsize : msg'.word 8 = msg.word 8 := hagree.word (by omega)
      refine outcome_congr hid hid' (hagree.word (by omega)) ?_
      rcases hsettled with hlarge | hin
      · exact writeBuffer_of_large ((large_iff msg).2 hlarge)
          ((large_iff msg').2 (by rwa [hsize]))
      · refine writeBuffer_congr ?_ fun _ => copy_congr hagree hin
        rw [dataSize_blockOfMem, dataSize_blockOfMem, hsize]
  · rw [outcome_eq p q c src hid, outcome_eq p q c src hid', if_neg fun h => hsrc h.1,
      if_neg fun h => hsrc h.1]

/-! ## When it does not -/

/-- A message too short for its packet number: behind it may be the remembered one. -/
theorem not_determined_of_packet (hid : msg.word 2 = kDataId)
    (hn : appDataSize msg = 0 ∨ appDataSize msg = 1 ∧ msg 6 = loByte p.polled.packet) :
    ¬ Mem.Determined (p.outcome q c p.polled.address) msg (6 + appDataSize msg) := by
  let t : UInt8 → Mem := fun hi k => if k = 6 then loByte p.polled.packet else hi
  have hword : ∀ hi, (Mem.splice msg (t hi) (6 + appDataSize msg)).word 6 =
      ofBytes (loByte p.polled.packet) hi := by
    intro hi
    have h₇ : Mem.splice msg (t hi) (6 + appDataSize msg) 7 = hi := by
      rw [Mem.splice_of_le (by omega)]
      rfl
    have h₆ : Mem.splice msg (t hi) (6 + appDataSize msg) 6 = loByte p.polled.packet := by
      rcases hn with hzero | ⟨hone, hlo⟩
      · rw [Mem.splice_of_le (by omega)]
        rfl
      · rw [Mem.splice_of_lt (by omega), hlo]
    rw [Mem.word, h₆, h₇]
  refine Mem.not_determined (t (hiByte p.polled.packet)) (t (hiByte p.polled.packet + 1)) ?_
  rw [outcome_eq p q c _ (word_two_of_agree (Mem.agree_splice _ _) hid),
    outcome_eq p q c _ (word_two_of_agree (Mem.agree_splice _ _) hid)]
  have hknown : ¬ p.Passes p.polled.address (blockOfMem
      ((Mem.splice msg (t (hiByte p.polled.packet)) (6 + appDataSize msg)).shift 6)) := by
    refine fun h => h.2 ?_
    rw [packet_blockOfMem, hword, ofBytes_lo_hi]
  have hnew : p.Passes p.polled.address (blockOfMem
      ((Mem.splice msg (t (hiByte p.polled.packet + 1)) (6 + appDataSize msg)).shift 6)) := by
    refine ⟨rfl, fun heq => ?_⟩
    rw [packet_blockOfMem, hword] at heq
    have hhi := congrArg hiByte heq
    rw [hiByte_ofBytes] at hhi
    simp at hhi
  rw [if_neg hknown, if_pos hnew]
  exact fun heq => writeBuffer_ne_zero _ _ (congrArg Prod.fst heq).symm

/-- The message shows that its block is a new one. -/
def New (p : SlavePoll) (msg : Mem) : Prop :=
  (1 ≤ appDataSize msg ∧ msg 6 ≠ loByte p.polled.packet) ∨
    (2 ≤ appDataSize msg ∧ msg.word 6 ≠ p.polled.packet)

theorem passes_of_new (h : p.New msg) (hagree : Mem.Agree msg msg' (6 + appDataSize msg)) :
    p.Passes p.polled.address (blockOfMem (msg'.shift 6)) := by
  refine ⟨rfl, fun heq => ?_⟩
  rw [packet_blockOfMem] at heq
  rcases h with ⟨hn, hlo⟩ | ⟨hn, hne⟩
  · refine hlo ?_
    rw [← heq, Mem.word, loByte_ofBytes, hagree 6 (by omega)]
  · exact hne ((hagree.word (by omega)).symm.trans heq)

/-- A new block in a message too short for its number of samples: what is behind it may be a
number that is too large, or one that is not. -/
theorem not_determined_of_size (hid : msg.word 2 = kDataId) (hnew : p.New msg) {k : ℕ}
    (hlock : c.lockFreeBuffer.1 = some k)
    (hn : appDataSize msg ≤ 2 ∨ appDataSize msg = 3 ∧ (msg 8).toNat ≤ maxSamples) :
    ¬ Mem.Determined (p.outcome q c p.polled.address) msg (6 + appDataSize msg) := by
  let t : UInt8 → Mem := fun hi k => if k = 9 then hi else 0
  have hsize : ∀ hi, ∃ lo : UInt8, lo.toNat ≤ maxSamples ∧
      ((Mem.splice msg (t hi) (6 + appDataSize msg)).word 8).toNat = lo.toNat + 256 * hi.toNat := by
    intro hi
    refine ⟨Mem.splice msg (t hi) (6 + appDataSize msg) 8, ?_, ?_⟩
    · rcases hn with htwo | ⟨hthree, hle⟩
      · rw [Mem.splice_of_le (by omega)]
        exact (by decide : (0 : UInt8).toNat ≤ maxSamples)
      · rwa [Mem.splice_of_lt (by omega)]
    · have h₉ : Mem.splice msg (t hi) (6 + appDataSize msg) (8 + 1) = hi := by
        rw [Mem.splice_of_le (by omega)]
        rfl
      rw [Mem.word, h₉, toNat_ofBytes]
  refine Mem.not_determined (t 0) (t 1) ?_
  rw [outcome_eq p q c _ (word_two_of_agree (Mem.agree_splice _ _) hid),
    outcome_eq p q c _ (word_two_of_agree (Mem.agree_splice _ _) hid),
    if_pos (passes_of_new hnew (Mem.agree_splice _ _)),
    if_pos (passes_of_new hnew (Mem.agree_splice _ _)), writeBuffer_data, writeBuffer_data, hlock]
  obtain ⟨lo, hlo, hword⟩ := hsize 0
  obtain ⟨lo', hlo', hword'⟩ := hsize 1
  have hsmall : (blockOfMem ((Mem.splice msg (t 0) (6 + appDataSize msg)).shift 6)).dataSize ≤
      kMaxDataSize := by
    refine Nat.le_of_not_lt fun hlarge => ?_
    rw [large_iff, hword] at hlarge
    have hzero : (0 : UInt8).toNat = 0 := rfl
    omega
  have hlarge : ¬ (blockOfMem ((Mem.splice msg (t 1) (6 + appDataSize msg)).shift 6)).dataSize ≤
      kMaxDataSize := by
    refine Nat.not_le.2 ((large_iff _).2 ?_)
    rw [hword']
    have hone : (1 : UInt8).toNat = 1 := rfl
    simp only [maxSamples, kMaxDataSize, kDataSampleSize]
    omega
  dsimp only
  rw [if_pos hsmall, if_neg hlarge]
  intro heq
  have hrc := congrArg Prod.fst heq
  simp only [serviceInfoSize, kIncorrectSize] at hrc
  omega

/-- A new block that goes on behind its message is copied from there. -/
theorem not_determined_of_overrun (hid : msg.word 2 = kDataId) (hnew : p.New msg) {k : ℕ}
    (hlock : c.lockFreeBuffer.1 = some k) (hn : 4 ≤ appDataSize msg)
    (hle : (msg.word 8).toNat ≤ maxSamples)
    (hover : appDataSize msg < serviceInfoSize + (msg.word 8).toNat * kDataSampleSize) :
    ¬ Mem.Determined (p.outcome q c p.polled.address) msg (6 + appDataSize msg) := by
  intro hdet
  have hagree : Mem.Agree msg (Mem.splice msg (fun k => msg k + 1) (6 + appDataSize msg))
      (6 + appDataSize msg) := Mem.agree_splice _ _
  have heq := hdet _ hagree
  have hsize := hagree.word (k := 8) (by omega)
  have hsmall : ¬ kMaxDataSize < (blockOfMem (msg.shift 6)).dataSize := by
    rw [large_iff]
    omega
  rw [outcome_eq p q c _ hid, outcome_eq p q c _ (word_two_of_agree hagree hid),
    if_pos (passes_of_new hnew hagree), if_pos (passes_of_new hnew fun _ _ => rfl),
    writeBuffer_data, writeBuffer_data, hlock] at heq
  dsimp only at heq
  have hdata : (blockOfMem ((Mem.splice msg (fun k => msg k + 1)
      (6 + appDataSize msg)).shift 6)).dataSize = (blockOfMem (msg.shift 6)).dataSize := by
    rw [dataSize_blockOfMem, dataSize_blockOfMem, hsize]
  rw [if_pos (hdata.le.trans (Nat.le_of_not_lt hsmall)), if_pos (Nat.le_of_not_lt hsmall)] at heq
  have hbuffer := congrFun (congrArg (fun o => o.2.buffers) heq) k
  simp only [setBuffer_self] at hbuffer
  have hoctet := octet_eq_of_copy_eq hn (congrArg UInt16.toNat hsize) hover
    (congrArg BufferInfo.buffer hbuffer)
  rw [Mem.splice_of_le le_rfl] at hoctet
  simp at hoctet

end Settled

/-- **Where a stored block comes from.** For every message with a block of data, in every state of
the machine and of the container, the result and the stored block are determined by the octets of
the message exactly when these settle the outcome. -/
theorem stored_determined_iff (p : SlavePoll) (q : TQueue TTxRequest) (c : TDataBuffersContainer)
    (src : UInt16) (msg : Mem) (hid : msg.word 2 = kDataId) :
    Mem.Determined (p.outcome q c src) msg (6 + appDataSize msg) ↔ p.Settled c src msg := by
  refine ⟨fun hdet => ?_, determined_of_settled hid⟩
  by_contra hnot
  simp only [Settled, not_or, not_and, not_not, not_lt, not_le] at hnot
  obtain ⟨rfl, hone, htwo, hthree, hfour⟩ := hnot
  -- the packet number, the number of samples, and the octets copied, in this order
  by_cases hpacket : appDataSize msg = 0 ∨ appDataSize msg = 1 ∧ msg 6 = loByte p.polled.packet
  · exact not_determined_of_packet hid hpacket hdet
  · have hzero : appDataSize msg ≠ 0 := fun h => hpacket (.inl h)
    have hnew : p.New msg := by
      by_cases hlo : msg 6 = loByte p.polled.packet
      · have hshort : appDataSize msg ≠ 1 := fun h => hpacket (.inr ⟨h, hlo⟩)
        exact .inr ⟨by omega, (htwo (by omega)).1⟩
      · exact .inl ⟨by omega, hlo⟩
    obtain ⟨k, hlock⟩ : ∃ k, c.lockFreeBuffer.1 = some k := by
      refine Option.ne_none_iff_exists'.1 ?_
      rcases hnew with ⟨hn, hlo⟩ | ⟨hn, -⟩
      · exact hone hn hlo
      · exact (htwo hn).2
    by_cases hshort : appDataSize msg ≤ 2 ∨ appDataSize msg = 3 ∧ (msg 8).toNat ≤ maxSamples
    · exact not_determined_of_size hid hnew hlock hshort hdet
    · have hn : 4 ≤ appDataSize msg := by
        by_contra hlt
        exact hshort (.inr ⟨by omega, hthree (by omega)⟩)
      exact not_determined_of_overrun hid hnew hlock hn (hfour hn).1 (hfour hn).2 hdet

/-- A machine at the slave with the address 1, from which it has no packet yet. -/
def atSlaveOne : SlavePoll := (init 0 0 fun _ => 1).start

/-- An empty queue of requests. -/
def noRequests : TQueue TTxRequest := .init (fun _ => ⟨0, 0, 0, 0, 0⟩) 1 (by decide)

/-- A message with a block of one sample that ends behind the block's header. -/
def shortMessage (behind : UInt8) : Mem :=
  Mem.ofList [0x80, 0, 0x6B, 0, 8, 0, 7, 0, 1, 0, 5, 0, 0, 0, behind]

/-- With the whole block in the message, the outcome is settled. -/
theorem stored_determined_iff_whole :
    Mem.Determined (atSlaveOne.outcome noRequests Store.blank.container 1)
      (Mem.ofList [0x80, 0, 0x6B, 0, 20, 0, 7, 0, 1, 0, 5, 0, 0, 0, 1, 2, 3, 4, 5, 6, 7, 8, 9, 10,
        11, 12]) 26 :=
  (stored_determined_iff atSlaveOne _ _ 1 _ (by decide)).2
    (.inr (.inr (.inr (.inr ⟨by decide, .inr (by decide)⟩))))

/-- A message of 14 octets: the octet behind it is stored with the block. -/
theorem stored_octet_behind_message :
    ¬ Mem.Determined (atSlaveOne.outcome noRequests Store.blank.container 1) (shortMessage 0)
      (6 + appDataSize (shortMessage 0)) := by
  intro hdet
  have hagree : ∀ k < 6 + appDataSize (shortMessage 0), shortMessage 9 k = shortMessage 0 k := by
    decide +kernel
  have heq := hdet (shortMessage 9) hagree
  have hoctet := congrArg (fun o => (o.2.buffers 0).buffer.data 0) heq
  exact absurd hoctet (by decide +kernel)

end KS3.Poll.SlavePoll
