import KS3.Protocol.TxBounds

/-!
# Reading a block of parameters

`handleMsgPReadBlock` answers a request for several parameters in a row. The reply is built in the
static object `msgParameterBlock`, a header of twelve octets and an array of 48 values; the number
of values is compared with the payload of the instance, not with the length of the array, and the
result of reading a parameter is not looked at.

* `mem_stores_fillBlock`, `reply_eq`: which elements are stored to, and what the reply is made of;
* `blockRead_answered_iff`: the stores stay in the array and the request is answered, exactly when
  the reply fits the limit of the link and no parameter behind the 48th can be read;
* `reply_determined_iff`: the reply depends on the request and the parameters alone, exactly when
  every parameter asked for can be read. Else an element that an earlier request has left is sent.

The memory of the object goes on behind the array, so that stores past its end are expressible.
-/

namespace KS3.Protocol

open DataIO

/-! ## The parameters -/

/-- What the parameters are read from: whether the build is one for debugging, the numbers of full
and of free buffers, the registers and the clock. -/
structure Parameters where
  debug : Bool
  fullBuffers : UInt16
  freeBuffers : UInt16
  r14 : UInt32
  r15 : UInt32
  now : UInt32

namespace Parameters

/-- `VERSION_N`. -/
def versionN (debug : Bool) : UInt32 := (1 : UInt32) <<< 8 ||| (if debug then 0x80 else 0)

/-- `data_buffers::handleParameters`, for the operation `kOpRead`: the value stored, if the result
is `ResultOk`. -/
def handleParameters (s : Parameters) (n : UInt16) : Option UInt32 :=
  if n = 40 then some s.fullBuffers.toUInt32
  else if n = 41 then some s.freeBuffers.toUInt32
  else none

/-- `TDevice_Parameters::__read`: the value stored, if the result is `true`. With the result `false`
nothing is stored. -/
def read (s : Parameters) (n : UInt16) : Option UInt32 :=
  if 40 ≤ n ∧ n ≤ 41 then s.handleParameters n
  else if n = 0 then some 2501
  else if n = 1 then some (versionN s.debug)
  else if n = 2 then some 52975
  else if n = 3 then some 9
  else if n = 4 then some 115200
  else if n = 14 then some s.r14
  else if n = 15 then some s.r15
  else if n = 21 then some s.now
  else none

/-- The numbers of the parameters that can be read. -/
def Readable (n : UInt16) : Prop := n ∈ ([0, 1, 2, 3, 4, 14, 15, 21, 40, 41] : List UInt16)

instance (n : UInt16) : Decidable (Readable n) := inferInstanceAs (Decidable (_ ∈ _))

/-- The range of the numbers that `data_buffers` answers for. -/
theorem range_iff (n : UInt16) : 40 ≤ n ∧ n ≤ 41 ↔ n = 40 ∨ n = 41 := by
  have h40 : (40 : UInt16).toNat = 40 := rfl
  have h41 : (41 : UInt16).toNat = 41 := rfl
  rw [UInt16.le_iff_toNat_le, UInt16.le_iff_toNat_le, ← UInt16.toNat_inj, ← UInt16.toNat_inj, h40,
    h41]
  omega

/-- Whether a parameter can be read does not depend on the values. -/
theorem read_eq_none_iff (s : Parameters) (n : UInt16) : s.read n = none ↔ ¬ Readable n := by
  simp only [Readable, List.mem_cons, List.not_mem_nil, or_false]
  constructor
  · rintro h (rfl | rfl | rfl | rfl | rfl | rfl | rfl | rfl | rfl | rfl)
    all_goals exact absurd h (Option.some_ne_none _)
  · simp only [not_or]
    rintro ⟨h₀, h₁, h₂, h₃, h₄, h₁₄, h₁₅, h₂₁, hrange⟩
    rw [← not_or, ← range_iff] at hrange
    rw [read, if_neg hrange, if_neg h₀, if_neg h₁, if_neg h₂, if_neg h₃, if_neg h₄, if_neg h₁₄,
      if_neg h₁₅, if_neg h₂₁]

theorem exists_read (s : Parameters) {n : UInt16} (h : Readable n) : ∃ v, s.read n = some v := by
  have hne : s.read n ≠ none := fun hnone => (s.read_eq_none_iff n).1 hnone h
  exact Option.ne_none_iff_exists'.1 hne

end Parameters

/-! ## The reply -/

/-- The object `msgParameterBlock`, with what follows it in memory, and the indices of the array
that were stored to. -/
structure BlockOut where
  block : Mem
  stores : List ℕ

/-- What `handleMsgPReadBlock` comes to: the result of `addMessage`, the object and the indices
that were stored to, and the instance. -/
structure ReadBlockOut (τ : Type*) extends BlockOut where
  rc : ℤ
  inst : TProtocolInstance τ

namespace ReadBlock

/-- `sizeof(TMsgParameterBlockHeader)`. -/
def sizeofHeader : ℕ := 12

/-- The length of the array `data`: `MaxParametersBlockSize/sizeof(uint32_t)`. -/
def dataLength : ℕ := 192 / 4

/-- `getPayload` of `protocolInst_HiIO`: the member is `MaxPacketPayload` from the constructor on,
`setPayload` does not change it. -/
def getPayload : UInt16 := 244

/-- `MsgApp_RegBlock`. -/
def msgAppRegBlock : UInt16 := 0x08

/-- The object before the first request: the constructor has set the id, the type and the number of
errors, everything else is zero. -/
def initial (behind : Mem) : Mem :=
  (Mem.ofList ([msgAppType, 0] ++ wordBytes msgAppRegBlock)).splice behind
    (sizeofHeader + 4 * dataLength)

/-- The variable `size`, for the size in the request. -/
def blockSize (size : UInt8) : ℕ :=
  if size.toNat > getPayload.toNat / 4 then getPayload.toNat / 4 else size.toNat

/-- `setParameters`. -/
def setParameters (h : Mem) (b : UInt16) (sz : ℕ) : Mem :=
  let h := (h.write 6 (wordBytes b)).store 8 (UInt8.ofNat sz)
  h.write 4 (wordBytes (UInt16.ofNat ((h 8).toNat * 4 + sizeofHeader - sizeofTMsgAppTypeHeader)))

/-- `Parameters.read(msg->base + i, &msgParameterBlock.data[i])`. -/
def readParameter (s : Parameters) (base : UInt16) (out : BlockOut) (i : ℕ) : BlockOut :=
  match s.read (base + UInt16.ofNat i) with
  | some v => ⟨out.block.write (sizeofHeader + 4 * i) (longBytes v), out.stores ++ [i]⟩
  | none => out

/-- The loop over the parameters. -/
def readParameters (s : Parameters) (base : UInt16) (out : BlockOut) (size : ℕ) : BlockOut :=
  (List.range size).foldl (readParameter s base) out

/-- What `handleMsgPReadBlock` does before `addMessage`. -/
def fillBlock (s : Parameters) (msg block : Mem) : BlockOut :=
  let h := setParameters (block.store 1 (msg 1)) (msg.word 2) (blockSize (msg 4))
  readParameters s (msg.word 2) ⟨h, []⟩ (blockSize (msg 4))

/-- `handleMsgPReadBlock`. -/
def handleMsgPReadBlock {τ : Type*} (low : Lower τ) (s : Parameters) (msg block : Mem)
    (p : TProtocolInstance τ) : ReadBlockOut τ :=
  let out := fillBlock s msg block
  let (rc, p) := p.addMessage low out.block (out.block.shift sizeofTMsgAppTypeHeader)
  ⟨out, rc, p⟩

/-- The octets of the reply that is passed to `addMessage`. -/
def reply (s : Parameters) (msg block : Mem) : List UInt8 :=
  let out := fillBlock s msg block
  encoded out.block (out.block.shift sizeofTMsgAppTypeHeader)

/-- What a message does to the object: `RxMessageHandler` calls `handleMsgPReadBlock` for
`MsgReadBlock`, and nothing else uses the object. -/
def handled (block : Mem) (e : Parameters × Mem) : Mem :=
  if e.2 0 = msgReadBlock then (fillBlock e.1 e.2 block).block else block

/-! ## What the object holds -/

/-- The element of the array with the given index, as octets. -/
def slot (m : Mem) (i : ℕ) : List UInt8 := m.read (sizeofHeader + 4 * i) 4

theorem blockSize_eq (size : UInt8) : blockSize size = min size.toNat (getPayload.toNat / 4) := by
  rw [blockSize]
  split_ifs <;> omega

theorem blockSize_le (size : UInt8) : blockSize size ≤ 61 := by
  rw [blockSize_eq]
  exact min_le_right _ _

section Loop

variable (s : Parameters) (base : UInt16) (out : BlockOut)

theorem readParameters_succ (n : ℕ) :
    readParameters s base out (n + 1) = readParameter s base (readParameters s base out n) n := by
  rw [readParameters, List.range_succ, List.foldl_append]
  rfl

/-- The elements stored to are those of the parameters that can be read. -/
theorem stores_readParameters (n : ℕ) :
    (readParameters s base out n).stores =
      out.stores ++ (List.range n).filter fun i => Parameters.Readable (base + UInt16.ofNat i) := by
  induction n with
  | zero => simp [readParameters]
  | succ n ih =>
    rw [readParameters_succ, readParameter, List.range_succ, List.filter_append,
      ← List.append_assoc, ← ih]
    by_cases hread : Parameters.Readable (base + UInt16.ofNat n)
    · obtain ⟨v, hv⟩ := s.exists_read hread
      rw [hv, List.filter_singleton, decide_eq_true hread, cond_true]
    · rw [(s.read_eq_none_iff _).2 hread, List.filter_singleton, decide_eq_false hread, cond_false,
        List.append_nil]

/-- The header is not stored to by the loop. -/
theorem block_readParameters_of_lt (n : ℕ) {k : ℕ} (hk : k < sizeofHeader) :
    (readParameters s base out n).block k = out.block k := by
  induction n with
  | zero => rfl
  | succ n ih =>
    rw [readParameters_succ, readParameter, ← ih]
    cases s.read (base + UInt16.ofNat n) with
    | none => rfl
    | some v => exact Mem.write_of_lt _ (by omega) _

/-- **An element after the loop** is the parameter, if it was read, and else what it was. -/
theorem slot_readParameters (n i : ℕ) :
    slot (readParameters s base out n).block i =
      if i < n then (s.read (base + UInt16.ofNat i)).elim (slot out.block i) longBytes
      else slot out.block i := by
  induction n with
  | zero => rfl
  | succ n ih =>
    rw [readParameters_succ, readParameter]
    rcases lt_trichotomy i n with hlt | rfl | hgt
    · rw [if_pos (by omega)]
      rw [if_pos hlt] at ih
      rw [← ih]
      cases s.read (base + UInt16.ofNat n) with
      | none => rfl
      | some v => exact Mem.read_write_of_le _ (by omega) _
    · rw [if_pos (by omega)]
      rw [if_neg (by omega)] at ih
      cases s.read (base + UInt16.ofNat i) with
      | none => exact ih
      | some v => exact Mem.read_write _ _ (longBytes v)
    · rw [if_neg (by omega)]
      rw [if_neg (by omega)] at ih
      rw [← ih]
      cases s.read (base + UInt16.ofNat n) with
      | none => rfl
      | some v => exact Mem.read_write_of_ge _ _ (by simp only [length_longBytes]; omega)

end Loop

/-- The data of a reply, element by element. -/
theorem read_data (m : Mem) (n : ℕ) :
    m.read sizeofHeader (4 * n) = (List.range n).flatMap (slot m) := by
  induction n with
  | zero => rfl
  | succ n ih =>
    rw [Nat.mul_succ, Mem.read_add, ih, List.range_succ, List.flatMap_append,
      List.flatMap_singleton]
    rfl

/-! ## The header -/

/-- The octets of the header that only the constructor sets. -/
structure Constructed (m : Mem) : Prop where
  id : m 0 = msgAppType
  type : m.read 2 2 = wordBytes msgAppRegBlock
  rest : m.read 9 3 = [0, 0, 0]

theorem constructed_initial (behind : Mem) : Constructed (initial behind) where
  id := rfl
  type := rfl
  rest := rfl

/-- The octets of the header of a reply. -/
def header (sequenceNumber : UInt8) (base : UInt16) (size : ℕ) : List UInt8 :=
  [msgAppType, sequenceNumber] ++ wordBytes msgAppRegBlock ++
    wordBytes (UInt16.ofNat (4 * size + 6)) ++ wordBytes base ++ [UInt8.ofNat size, 0, 0, 0]

@[simp] theorem length_header (sequenceNumber : UInt8) (base : UInt16) (size : ℕ) :
    (header sequenceNumber base size).length = sizeofHeader := rfl

variable {block : Mem} (s : Parameters) (msg : Mem)

/-- The header of the object when the parameters are set. -/
theorem read_setParameters (h : Constructed block) (sequenceNumber : UInt8) (base : UInt16)
    {size : ℕ} (hsize : size < 2 ^ 8) :
    (setParameters (block.store 1 sequenceNumber) base size).read 0 sizeofHeader =
      header sequenceNumber base size := by
  obtain ⟨hid, htype, hrest⟩ := h
  simp only [Mem.read, List.range, List.range.loop, List.map_cons, List.map_nil, wordBytes,
    List.cons.injEq, and_true, Nat.reduceAdd] at htype hrest
  obtain ⟨h₂, h₃⟩ := htype
  obtain ⟨h₉, h₁₀, h₁₁⟩ := hrest
  have hoctet : (UInt8.ofNat size).toNat = size := by
    rw [UInt8.toNat_ofNat']
    omega
  have hdata : (UInt8.ofNat size).toNat * 4 + sizeofHeader - sizeofTMsgAppTypeHeader =
      4 * size + 6 := by
    rw [hoctet, sizeofHeader, sizeofTMsgAppTypeHeader]
    omega
  rw [setParameters]
  simp only [Mem.store_self, hdata]
  simp [Mem.read, Mem.write, Mem.store, Function.update, sizeofHeader, header, wordBytes,
    List.range, List.range.loop, hid, h₂, h₃, h₉, h₁₀, h₁₁]

/-- The array is not stored to when the parameters are set. -/
theorem slot_setParameters (sequenceNumber : UInt8) (base : UInt16) (size i : ℕ) :
    slot (setParameters (block.store 1 sequenceNumber) base size) i = slot block i := by
  refine Mem.read_congr fun k _ => ?_
  simp only [setParameters]
  rw [Mem.write_of_le _ _ (by simp [wordBytes, sizeofHeader]; omega),
    Mem.store_of_ne _ (by simp only [sizeofHeader]; omega),
    Mem.write_of_le _ _ (by simp [wordBytes, sizeofHeader]; omega),
    Mem.store_of_ne _ (by simp only [sizeofHeader]; omega)]

/-- The object with the header of a reply is as the constructor left it, but for the header. -/
theorem constructed_of_read {sequenceNumber : UInt8} {base : UInt16} {size : ℕ}
    (h : block.read 0 sizeofHeader = header sequenceNumber base size) : Constructed block := by
  have hoctet : ∀ k < sizeofHeader, block k = (header sequenceNumber base size).getD k 0 := by
    intro k hk
    rw [← h, Mem.getD_read _ hk, Nat.zero_add]
  refine ⟨hoctet 0 (by decide), ?_, ?_⟩
  · rw [Mem.read_succ, Mem.read_succ, hoctet 2 (by decide), hoctet 3 (by decide)]
    rfl
  · rw [Mem.read_succ, Mem.read_succ, Mem.read_succ, hoctet 9 (by decide), hoctet 10 (by decide),
      hoctet 11 (by decide)]
    rfl

/-! ## What a request does to the object -/

/-- The elements stored to. -/
theorem mem_stores_fillBlock {i : ℕ} :
    i ∈ (fillBlock s msg block).stores ↔
      i < blockSize (msg 4) ∧ Parameters.Readable (msg.word 2 + UInt16.ofNat i) := by
  rw [fillBlock, stores_readParameters, List.nil_append, List.mem_filter, List.mem_range,
    decide_eq_true_iff]

/-- The header of the reply. -/
theorem read_fillBlock (h : Constructed block) :
    (fillBlock s msg block).block.read 0 sizeofHeader =
      header (msg 1) (msg.word 2) (blockSize (msg 4)) := by
  have hle := blockSize_le (msg 4)
  rw [← read_setParameters h (msg 1) (msg.word 2) (by omega)]
  refine Mem.read_congr fun k hk => ?_
  rw [fillBlock, Nat.zero_add, block_readParameters_of_lt _ _ _ _ hk]

/-- An element of the reply is the parameter, if it can be read, and else what the object held. -/
theorem slot_fillBlock {i : ℕ} (hi : i < blockSize (msg 4)) :
    slot (fillBlock s msg block).block i =
      (s.read (msg.word 2 + UInt16.ofNat i)).elim (slot block i) longBytes := by
  rw [fillBlock, slot_readParameters, if_pos hi, slot_setParameters]

/-- **Every message keeps what the constructor has set.** -/
theorem constructed_handled (h : Constructed block) (e : Parameters × Mem) :
    Constructed (handled block e) := by
  rw [handled]
  split_ifs
  · exact constructed_of_read (read_fillBlock e.1 e.2 h)
  · exact h

theorem constructed_final (behind : Mem) (es : List (Parameters × Mem)) :
    Constructed (Run.final handled (initial behind) es) :=
  Run.always_final (I := Constructed) (fun _ e h => constructed_handled h e)
    (constructed_initial behind) es

/-- The size of the data behind the header of the reply. -/
theorem appDataSize_fillBlock (h : Constructed block) :
    appDataSize (fillBlock s msg block).block = 4 * blockSize (msg 4) + 6 := by
  have hle := blockSize_le (msg 4)
  have hword : (fillBlock s msg block).block.word 4 =
      (Mem.ofList (header (msg 1) (msg.word 2) (blockSize (msg 4)))).word 4 :=
    Mem.word_of_read _ (read_fillBlock s msg h) (by rw [length_header]; decide)
  have hsize : (Mem.ofList (header (msg 1) (msg.word 2) (blockSize (msg 4)))).word 4 =
      UInt16.ofNat (4 * blockSize (msg 4) + 6) := ofBytes_lo_hi _
  rw [appDataSize, hword, hsize, UInt16.toNat_ofNat']
  omega

/-- The reply is the beginning of the object. -/
theorem reply_eq_read (h : Constructed block) :
    reply s msg block =
      (fillBlock s msg block).block.read 0 (sizeofHeader + 4 * blockSize (msg 4)) := by
  have hid := (constructed_of_read (read_fillBlock s msg h)).id
  rw [reply, encoded, if_pos hid, appDataSize_fillBlock s msg h, Mem.read_shift, Nat.add_zero]
  have hsplit := (fillBlock s msg block).block.read_add 0 sizeofTMsgAppTypeHeader
    (4 * blockSize (msg 4) + 6)
  rw [Nat.zero_add] at hsplit
  rw [← hsplit]
  congr 1
  simp only [sizeofHeader, sizeofTMsgAppTypeHeader]
  omega

/-- **What the reply is made of**: its header, and the elements of the array one by one. -/
theorem reply_eq (h : Constructed block) :
    reply s msg block = header (msg 1) (msg.word 2) (blockSize (msg 4)) ++
      (List.range (blockSize (msg 4))).flatMap fun i =>
        (s.read (msg.word 2 + UInt16.ofNat i)).elim (slot block i) longBytes := by
  rw [reply_eq_read s msg h, Mem.read_add, Nat.zero_add, read_fillBlock s msg h, read_data]
  congr 1
  exact List.flatMap_congr fun i hi => slot_fillBlock s msg (List.mem_range.1 hi)

/-! ## The answer -/

section Answer

variable {τ : Type*} (low : Lower τ) {p : TProtocolInstance τ}

/-- What `handleMsgPReadBlock` does with an empty packet. -/
theorem handleMsgPReadBlock_eq (hblock : Constructed block) (h : p.layer3.InBounds)
    (hempty : p.layer3.txIndex = 0) :
    ∃ copies : List Copy, handleMsgPReadBlock low s msg block p =
      if sizeofHeader + 4 * blockSize (msg 4) ≤ p.layer3.maxTxAppSize then
        ⟨fillBlock s msg block, 0, { p with
          layer3 := p.layer3.append (reply s msg block)
          copies := p.copies ++ copies }⟩
      else ⟨fillBlock s msg block, -1, p⟩ := by
  have hdata := appDataSize_fillBlock s msg hblock
  have hle := blockSize_le (msg 4)
  have hid := (constructed_of_read (read_fillBlock s msg hblock)).id
  have hsize : messageSize (fillBlock s msg block).block =
      some (sizeofHeader + 4 * blockSize (msg 4)) := by
    rw [messageSize, if_pos hid, hdata, sizeofHeader, sizeofTMsgAppTypeHeader, Option.some.injEq]
    omega
  have hw : ¬ Layer3Tx.Wraps (fillBlock s msg block).block := by
    rw [Layer3Tx.Wraps, hdata]
    omega
  obtain ⟨copies, hadd⟩ := TProtocolInstance.addMessage_of_empty low h hempty hsize hw
    ((fillBlock s msg block).block.shift sizeofTMsgAppTypeHeader)
  refine ⟨copies, ?_⟩
  simp only [handleMsgPReadBlock, hadd]
  split_ifs <;> rfl

/-- The values in the reply. -/
def values (block : Mem) : List UInt32 :=
  (List.range (blockSize (msg 4))).map fun i =>
    (s.read (msg.word 2 + UInt16.ofNat i)).getD
      (ofWords (block.word (sizeofHeader + 4 * i)) (block.word (sizeofHeader + 4 * i + 2)))

theorem length_values (block : Mem) : (values s msg block).length = blockSize (msg 4) := by
  rw [values, List.length_map, List.length_range]

theorem flatMap_values (block : Mem) :
    (values s msg block).flatMap longBytes = (List.range (blockSize (msg 4))).flatMap fun i =>
      (s.read (msg.word 2 + UInt16.ofNat i)).elim (slot block i) longBytes := by
  rw [values, List.flatMap_map]
  refine List.flatMap_congr fun i _ => ?_
  cases s.read (msg.word 2 + UInt16.ofNat i) with
  | none => exact longBytes_ofWords block _
  | some v => rfl

/-- **A request is answered**: only elements of the array are stored to, the reply is accepted, and
the packet holds one reply, with as many values as were asked for or the payload has place for; the
parameters that can be read are among them. -/
structure Answered (p : TProtocolInstance τ) (out : ReadBlockOut τ) : Prop where
  stores_lt : ∀ i ∈ out.stores, i < dataLength
  accepted : out.rc = 0
  packets : out.inst.packets = p.packets
  payload : ∃ vs : List UInt32, vs.length = min (msg 4).toNat (getPayload.toNat / 4) ∧
    (∀ i < vs.length, ∀ v, s.read (msg.word 2 + UInt16.ofNat i) = some v → vs[i]? = some v) ∧
    out.inst.layer3.payload = header (msg 1) (msg.word 2) vs.length ++ vs.flatMap longBytes

/-- The reply in the packet, when it is accepted. -/
theorem payload_append_reply (hblock : Constructed block) {t : Layer3Tx} (hempty : t.txIndex = 0) :
    (t.append (reply s msg block)).payload = header (msg 1) (msg.word 2) (blockSize (msg 4)) ++
      (values s msg block).flatMap longBytes := by
  have hle := blockSize_le (msg 4)
  have hlen : (reply s msg block).length = sizeofHeader + 4 * blockSize (msg 4) := by
    rw [reply_eq s msg hblock, ← flatMap_values, List.length_append, length_header,
      length_flatMap_longBytes, length_values]
  rw [Layer3Tx.payload_append (by rw [hempty, hlen, sizeofHeader]; omega), Layer3Tx.payload, hempty,
    Mem.read_zero, List.nil_append, reply_eq s msg hblock, flatMap_values]

/-- A reply fits the limit of the link for datagrams; that of the serial line if it has at most 58
values. -/
theorem fits_iff (t : ProtocolType) (size : UInt8) :
    sizeofHeader + 4 * blockSize size ≤ (HiIo.limit t).toNat ↔
      (t = .kProtocolDataIo → size.toNat ≤ 58) := by
  have hpayload : getPayload.toNat / 4 = 61 := rfl
  rw [blockSize_eq, hpayload, sizeofHeader]
  cases t with
  | kProtocolDataIo =>
    have hmax : (HiIo.limit .kProtocolDataIo).toNat = 244 := rfl
    rw [hmax, forall_prop_of_true rfl]
    omega
  | kProtocolApp =>
    have hmax : (HiIo.limit .kProtocolApp).toNat = 1472 := rfl
    rw [hmax]
    exact iff_of_true (by omega) nofun

/-- **When a request is answered**: exactly when the reply fits the limit of the link and no
parameter is read to a place behind the array. The object is the one any earlier messages have
left. -/
theorem blockRead_answered_iff (behind : Mem) (es : List (Parameters × Mem)) (t : ProtocolType)
    (hlimit : p.layer3.maxTxAppSize = (HiIo.limit t).toNat) (hempty : p.layer3.txIndex = 0) :
    Answered s msg p
        (handleMsgPReadBlock low s msg (Run.final handled (initial behind) es) p) ↔
      (t = .kProtocolDataIo → (msg 4).toNat ≤ 58) ∧
      ∀ i, dataLength ≤ i → i < min (msg 4).toNat (getPayload.toNat / 4) →
        ¬ Parameters.Readable (msg.word 2 + UInt16.ofNat i) := by
  have hblock := constructed_final behind es
  generalize Run.final handled (initial behind) es = block at hblock
  have hsize := blockSize_eq (msg 4)
  have hbounds : p.layer3.InBounds := by
    refine ⟨by omega, ?_⟩
    rw [hlimit]
    exact UInt16.toNat_lt _
  have hfits := fits_iff t (msg 4)
  rw [← hlimit] at hfits
  obtain ⟨copies, hhandle⟩ := handleMsgPReadBlock_eq s msg low hblock hbounds hempty
  rw [hhandle, ← hsize, ← hfits]
  constructor
  · rintro ⟨hstores, haccepted, -, -⟩
    split_ifs at hstores haccepted with hroom
    · refine ⟨hroom, fun i hi hlt hread => ?_⟩
      exact absurd (hstores i ((mem_stores_fillBlock s msg).2 ⟨hlt, hread⟩)) (by omega)
    · cases haccepted
  · rintro ⟨hroom, hunread⟩
    rw [if_pos hroom]
    refine ⟨fun i hi => ?_, rfl, rfl, values s msg block, ?_, ?_, ?_⟩
    · obtain ⟨hlt, hread⟩ := (mem_stores_fillBlock s msg).1 hi
      by_contra hge
      exact hunread i (Nat.not_lt.1 hge) hlt hread
    · rw [length_values, hsize]
    · intro i hi v hv
      rw [length_values] at hi
      rw [values, List.getElem?_map, List.getElem?_range hi, Option.map_some, hv]
      rfl
    · rw [length_values]
      exact payload_append_reply s msg hblock hempty

/-- An empty packet. -/
def emptyPacket (t : ProtocolType) : TProtocolInstance Unit :=
  ⟨⟨fun _ => 0, 0, (HiIo.limit t).toNat⟩, 1, HiIo.link t, (), [], []⟩

/-- Parameters that are all zero. -/
def zeroed : Parameters := ⟨false, 0, 0, 0, 0, 0⟩

/-- A request for 48 values over the serial line, the last of them the version. -/
theorem blockRead_answered_full :
    let msg := Mem.ofList [0x13, 7, 0xD2, 0xFF, 48, 0]
    Answered zeroed msg (emptyPacket .kProtocolDataIo)
      (handleMsgPReadBlock TxSide.nothingBelow zeroed msg
        (Run.final handled (initial fun _ => 0) []) (emptyPacket .kProtocolDataIo)) :=
  (blockRead_answered_iff zeroed (Mem.ofList [0x13, 7, 0xD2, 0xFF, 48, 0]) TxSide.nothingBelow
    (fun _ => 0) [] .kProtocolDataIo rfl rfl).2 ⟨fun _ => by decide, fun i hi hlt => by
      have hsize : min 48 (getPayload.toNat / 4) = dataLength := rfl
      exact absurd (hlt.trans_le hsize.le) (by omega)⟩

/-- A request for 255 values over the serial line, the first five parameters from the 49th on: they
are stored behind the array, and the reply is refused. -/
theorem blockRead_answered_broken :
    let msg := Mem.ofList [0x13, 7, 0xD0, 0xFF, 255, 0]
    let out := handleMsgPReadBlock TxSide.nothingBelow zeroed msg
      (Run.final handled (initial fun _ => 0) []) (emptyPacket .kProtocolDataIo)
    out.stores = [48, 49, 50, 51, 52] ∧ out.rc = -1 ∧ out.inst.layer3.payload = [] ∧
      ¬ Answered zeroed msg (emptyPacket .kProtocolDataIo) out := by
  refine ⟨by decide +kernel, by decide +kernel, by decide +kernel, fun h => ?_⟩
  exact absurd h.accepted (by decide +kernel)

end Answer

/-! ## What earlier requests have left -/

theorem initial_of_lt (behind : Mem) {k : ℕ} (h₄ : 4 ≤ k) (hk : k < sizeofHeader + 4 * dataLength) :
    initial behind k = 0 := by
  rw [initial, Mem.splice_of_lt hk]
  exact List.getD_eq_default _ _ h₄

/-- The array is zero before the first request. -/
theorem slot_initial (behind : Mem) {i : ℕ} (hi : i < dataLength) :
    slot (initial behind) i = [0, 0, 0, 0] := by
  have hzero : slot (initial behind) i = Mem.read (fun _ => 0) 0 4 := by
    refine Mem.read_congr fun k hk => initial_of_lt behind ?_ ?_
    · simp only [sizeofHeader]
      omega
    · omega
  exact hzero

/-- A request after which the given element of the array is the identifier of the device. -/
def probe (i : ℕ) : Mem :=
  Mem.ofList ([msgReadBlock, 0] ++ wordBytes (0 - UInt16.ofNat i) ++ [UInt8.ofNat (i + 1), 0])

theorem slot_probe (block : Mem) {i : ℕ} (hi : i < dataLength) :
    slot (handled block (s, probe i)) i = longBytes 2501 := by
  have hlt : i < 48 := hi
  have hbase : (probe i).word 2 = 0 - UInt16.ofNat i := ofBytes_lo_hi _
  have hsize : blockSize (probe i 4) = i + 1 := by
    have hoctet : (probe i 4).toNat = i + 1 := by
      have hfour : probe i 4 = UInt8.ofNat (i + 1) := rfl
      rw [hfour, UInt8.toNat_ofNat']
      omega
    have hpayload : getPayload.toNat / 4 = 61 := rfl
    rw [blockSize_eq, hoctet, hpayload]
    omega
  have hid : probe i 0 = msgReadBlock := rfl
  rw [handled, if_pos hid, slot_fillBlock s (probe i) (by omega), hbase, UInt16.sub_add_cancel]
  rfl

/-- An element of the reply. -/
theorem slot_reply (h : Constructed block) {i : ℕ} (hi : i < blockSize (msg 4)) :
    slot (Mem.ofList (reply s msg block)) i =
      (s.read (msg.word 2 + UInt16.ofNat i)).elim (slot block i) longBytes := by
  rw [← slot_fillBlock s msg hi, reply_eq_read s msg h]
  exact Mem.read_congr fun k hk => Mem.ofList_read _ (by omega)

/-- **When a reply has no leftovers**: for a request of at most 48 values, the reply is the same
whatever messages came before, exactly when every parameter asked for can be read. -/
theorem reply_determined_iff (behind : Mem) (hsize : (msg 4).toNat ≤ dataLength) :
    (∀ es es' : List (Parameters × Mem),
        reply s msg (Run.final handled (initial behind) es) =
          reply s msg (Run.final handled (initial behind) es')) ↔
      ∀ i < (msg 4).toNat, Parameters.Readable (msg.word 2 + UInt16.ofNat i) := by
  have hblock : blockSize (msg 4) = (msg 4).toNat := by
    have hle : dataLength ≤ getPayload.toNat / 4 := by decide
    rw [blockSize_eq]
    omega
  constructor
  · intro h i hi
    by_contra hunread
    -- the element is zero in the first run and the identifier of the device in the second
    have hslot : ∀ es, slot (Mem.ofList (reply s msg (Run.final handled (initial behind) es))) i =
        slot (Run.final handled (initial behind) es) i := by
      intro es
      rw [slot_reply s msg (constructed_final behind es) (hblock ▸ hi),
        (s.read_eq_none_iff _).2 hunread]
      rfl
    have hsame := hslot [(s, probe i)]
    rw [← h [], hslot [], Run.final_nil, slot_initial behind (by omega), Run.final_cons,
      Run.final_nil, slot_probe s _ (by omega)] at hsame
    exact absurd hsame (by decide)
  · intro h es es'
    rw [reply_eq s msg (constructed_final behind es), reply_eq s msg (constructed_final behind es')]
    congr 1
    refine List.flatMap_congr fun i hi => ?_
    obtain ⟨v, hv⟩ := s.exists_read (h i (hblock ▸ List.mem_range.1 hi))
    rw [hv]
    rfl

/-- The reply to a request for the first five parameters, at first and after a request that has
left other values in the array. -/
theorem reply_determined_five :
    let msg := Mem.ofList [0x13, 7, 0, 0, 5, 0]
    reply zeroed msg (Run.final handled (initial fun _ => 0) []) =
      reply zeroed msg (Run.final handled (initial fun _ => 0)
        [(zeroed, Mem.ofList [0x13, 6, 1, 0, 4, 0])]) :=
  (reply_determined_iff zeroed (Mem.ofList [0x13, 7, 0, 0, 5, 0]) (fun _ => 0) (by decide)).2
    (by decide) _ _

/-- The reply to a request for parameter 100, which cannot be read: zero at first, and after a
request for parameter 0 the identifier of the device. -/
theorem reply_leftover :
    let msg := Mem.ofList [0x13, 7, 100, 0, 1, 0]
    reply zeroed msg (Run.final handled (initial fun _ => 0) []) =
        header 7 100 1 ++ longBytes 0 ∧
      reply zeroed msg (Run.final handled (initial fun _ => 0)
        [(zeroed, Mem.ofList [0x13, 6, 0, 0, 1, 0])]) = header 7 100 1 ++ longBytes 2501 ∧
      ¬ ∀ es es' : List (Parameters × Mem),
        reply zeroed msg (Run.final handled (initial fun _ => 0) es) =
          reply zeroed msg (Run.final handled (initial fun _ => 0) es') := by
  refine ⟨by decide +kernel, by decide +kernel, fun h => ?_⟩
  exact absurd (h [] [(zeroed, Mem.ofList [0x13, 6, 0, 0, 1, 0])]) (by decide +kernel)

end ReadBlock

end KS3.Protocol
