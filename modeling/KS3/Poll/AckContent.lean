import KS3.Poll.Acknowledge
import KS3.Protocol.MasterRuns

/-!
# What an acknowledge says

A packet number goes from the block to the arguments of `sendDataAck`, to the parameters of a
request, to the octets that `TMasterTx::addMessage` puts into a packet, and to the slave that takes
the packet apart. `sendDataAck` has a variable for the size of its data and passes it as the data as
well: the slave always reads the number 2. The acknowledge that `handleMsgAppType` adds for a block
that was stored has the number in it (`ackStored_names`).

`acknowledges_name_iff`: the acknowledges that `handleData` queues for a block name it exactly when
there are none, as the queue is full, or when its number happens to be 2.
-/

namespace KS3.Poll

open Comm DataIO Protocol Buffers SlavePoll

/-! ## The way of a request to the slave -/

/-- A message acknowledges the block with the given packet number. -/
structure NamesBlock (msg : Mem) (pn : UInt16) : Prop where
  id : msg 0 = msgAppType
  type : msg.word 2 = msgAppDataAcknowledge
  dataSize : msg.word 4 = 2
  packet : msg.word 6 = pn

section Decode

variable {τ : Type*} (bus : LocalBus τ) (m : TMasterTx τ)

/-- A slave that has the packet in its memory gets a message with the given property where
`addMessage` put the request. -/
def Decodes (rq : TTxRequest) (P : Mem → Prop) : Prop :=
  let packet := (m.addMessage bus rq rq.Asks).protocol.layer3
  ∀ memory : Mem, memory.read 0 packet.payload.length = packet.payload →
    ∃ msg r, Layer3Rx.getMessagePtr ⟨memory, m.protocol.layer3.txIndex, packet.txIndex⟩ =
      .ok (msg, r) ∧ P msg

/-- The acknowledges that a call of `handleData` adds to the queue name the block. -/
def AcknowledgesName {σ : Type*} (dataHandler : TDataBuffer → UInt16 → σ → ℤ × σ) (p : SlavePoll)
    (q : TQueue TTxRequest) (s : σ) (src : UInt16) (block : TDataBuffer) (dataId : UInt16) : Prop :=
  ∀ rq ∈ (p.handleData dataHandler q s src block dataId).2.2.1.toList.drop q.toList.length,
    Acknowledges rq rq.address → Decodes bus m rq fun msg => NamesBlock msg block.packet

/-- The request for an acknowledge with the given data. -/
def ackRequest (src : UInt16) (data flags : UInt32) : TTxRequest :=
  ⟨msgAppType.toUInt16, src, 0x110002, data, flags⟩

/-- The octets of an acknowledge with the given data. -/
def ackOctets (sequenceNumber : UInt8) (data : UInt32) : List UInt8 :=
  [msgAppType, sequenceNumber, 0x11, 0, 2, 0] ++ wordBytes (loWord data)

variable (src : UInt16) (data flags : UInt32)

theorem ok_ackRequest : (ackRequest src data flags).Ok :=
  ⟨.inr (.inr (.inr rfl)), fun _ => (by decide : (loWord 0x110002).toNat ≤ 4)⟩

theorem message_ackRequest (sequenceNumber reserved : UInt8) :
    (ackRequest src data flags).message sequenceNumber reserved =
      some ([msgAppType, sequenceNumber, 0x11, 0, 2, 0],
        wordBytes (loWord data) ++ wordBytes (hiWord data)) := by
  have hhi : wordBytes (hiWord 0x110002) = [0x11, 0] := by decide
  have hlo : wordBytes (loWord 0x110002) = [2, 0] := by decide
  have hmessage : (ackRequest src data flags).message sequenceNumber reserved =
      some ([msgAppType, sequenceNumber] ++ wordBytes (hiWord 0x110002) ++
        wordBytes (loWord 0x110002), wordBytes (loWord data) ++ wordBytes (hiWord data)) := rfl
  rw [hmessage, hhi, hlo]
  rfl

theorem octetsOf_ackRequest (rqAnswer : Bool) :
    ∃ sequenceNumber, m.octetsOf bus (ackRequest src data flags) rqAnswer =
      ackOctets sequenceNumber data := by
  refine ⟨if rqAnswer then m.sn else 0xFF, ?_⟩
  rw [TMasterTx.octetsOf, message_ackRequest]
  rfl

/-- The octets are a well-formed message. -/
def ackMessage (sequenceNumber : UInt8) : Message where
  bytes := ackOctets sequenceNumber data
  size_eq := rfl
  header_le _ := (by decide : 6 ≤ 8)

variable {data}

/-- The slave takes the message from its place in the packet. -/
theorem getMessagePtr_ack {memory : Mem} {i : ℕ} {sequenceNumber : UInt8} (hi : i + 8 < 2 ^ 16)
    (h : memory.read i 8 = ackOctets sequenceNumber data) :
    Layer3Rx.getMessagePtr ⟨memory, i, i + 8⟩ =
      .ok (memory.shift i, ⟨memory, i + 8, i + 8⟩) :=
  Layer3Rx.getMessagePtr_mk hi (by omega)
    ((ackMessage data sequenceNumber).messageSize_shift h) le_rfl

/-- The number in the message is the low half of the data of the request. -/
theorem namesBlock_iff {memory : Mem} {i : ℕ} {sequenceNumber : UInt8} {pn : UInt16}
    (h : memory.read i 8 = ackOctets sequenceNumber data) :
    NamesBlock (memory.shift i) pn ↔ loWord data = pn := by
  have hread : (memory.shift i).read 0 (ackOctets sequenceNumber data).length =
      ackOctets sequenceNumber data := by
    rw [Mem.read_shift]
    exact h
  have hword : ∀ k, k + 1 < 8 → (memory.shift i).word k =
      (Mem.ofList (ackOctets sequenceNumber data)).word k := fun k hk => Mem.word_of_read _ hread hk
  have hpacket : (memory.shift i).word 6 = loWord data := by
    rw [hword 6 (by omega)]
    exact ofBytes_lo_hi (loWord data)
  constructor
  · intro hnames
    rw [← hpacket, hnames.packet]
  · intro heq
    refine ⟨Mem.eq_ofList_of_read _ hread (k := 0) (Nat.succ_pos 7), ?_, ?_, hpacket.trans heq⟩
    · rw [hword 2 (by omega)]
      rfl
    · rw [hword 4 (by omega)]
      rfl

variable {m} (data)

/-- **What the slave reads** from an acknowledge: the low half of the data of the request. -/
theorem decodes_ackRequest (hroom : TMasterTx.HasRoom m.protocol) (pn : UInt16) :
    Decodes bus m (ackRequest src data flags) (fun msg => NamesBlock msg pn) ↔
      loWord data = pn := by
  obtain ⟨hlen, sn, copies, hadd⟩ := TMasterTx.addMessage_eq bus hroom
    (ok_ackRequest src data flags) (ackRequest src data flags).Asks
  obtain ⟨sequenceNumber, hoctets⟩ := octetsOf_ackRequest bus m src data flags
    (ackRequest src data flags).Asks
  rw [hoctets] at hlen hadd
  have hindex := hroom.index_le
  have hmax := hroom.max_lt
  have hlen' : (ackOctets sequenceNumber data).length = 8 := rfl
  have hpayload : (m.protocol.layer3.append (ackOctets sequenceNumber data)).payload =
      m.protocol.layer3.payload ++ ackOctets sequenceNumber data :=
    Layer3Tx.payload_append (by omega)
  have htx : (m.protocol.layer3.append (ackOctets sequenceNumber data)).txIndex =
      m.protocol.layer3.txIndex + (ackOctets sequenceNumber data).length :=
    Layer3Tx.txIndex_append (by omega)
  have hat : ∀ memory : Mem, memory.read 0 (m.protocol.layer3.payload ++
      ackOctets sequenceNumber data).length = m.protocol.layer3.payload ++
        ackOctets sequenceNumber data →
      memory.read m.protocol.layer3.txIndex 8 = ackOctets sequenceNumber data := by
    intro memory hmemory
    rw [List.length_append, Mem.read_add, Nat.zero_add, Layer3Tx.payload,
      Mem.length_read] at hmemory
    exact (List.append_inj hmemory (by simp)).2
  rw [Decodes, hadd]
  dsimp only
  rw [hpayload, htx, hlen']
  constructor
  · intro h
    obtain ⟨msg, r, hget, hnames⟩ := h (Mem.ofList _) (Mem.read_ofList _)
    rw [getMessagePtr_ack (by omega) (hat _ (Mem.read_ofList _))] at hget
    cases hget
    exact (namesBlock_iff (hat _ (Mem.read_ofList _))).1 hnames
  · intro h memory hmemory
    exact ⟨_, _, getMessagePtr_ack (by omega) (hat memory hmemory),
      (namesBlock_iff (hat memory hmemory)).2 h⟩

end Decode

/-! ## The acknowledges of `handleData` -/

section HandleData

variable {σ τ : Type*} (bus : LocalBus τ) {m : TMasterTx τ}
  (dataHandler : TDataBuffer → UInt16 → σ → ℤ × σ) (p : SlavePoll) (q : TQueue TTxRequest) (s : σ)
  (src : UInt16) (block : TDataBuffer) (dataId : UInt16)

/-- What a `push` adds. -/
theorem drop_push (rq : TTxRequest) :
    (q.push rq).toList.drop q.toList.length = if q.isFull then [] else [rq] := by
  rw [TQueue.toList_push]
  split_ifs
  · exact List.drop_length
  · exact List.drop_left

/-- The request that is added for a block that was stored names it. -/
theorem ackStored_names (hroom : TMasterTx.HasRoom m.protocol) :
    ∀ rq ∈ (ackStored q src block).toList.drop q.toList.length,
      Decodes bus m rq fun msg => NamesBlock msg block.packet := by
  have hpush : ackStored q src block = q.push (ackRequest src block.packet.toUInt32 0) := rfl
  have hlow : loWord block.packet.toUInt32 = block.packet := by
    have hlt := block.packet.toNat_lt
    apply UInt16.toNat_inj.1
    rw [loWord, UInt16.toNat_ofNat', UInt16.toNat_toUInt32]
    omega
  rw [hpush, drop_push]
  split_ifs
  · exact fun rq h => absurd h List.not_mem_nil
  · rw [List.forall_mem_singleton]
    exact (decodes_ackRequest bus src _ _ hroom _).2 hlow

/-- One acknowledge is queued, if there is room for it. -/
theorem drop_handleData :
    (p.handleData dataHandler q s src block dataId).2.2.1.toList.drop q.toList.length =
      if q.isFull then [] else [dataAck src] := by
  have hqueue : (p.handleData dataHandler q s src block dataId).2.2.1 = q.push (dataAck src) := by
    rw [handleData_eq]
    split_ifs <;> rfl
  rw [hqueue, drop_push]

theorem acknowledgesName_iff (hroom : TMasterTx.HasRoom m.protocol) :
    AcknowledgesName bus m dataHandler p q s src block dataId ↔
      q.isFull = true ∨ block.packet = 2 := by
  have hdecodes := decodes_ackRequest bus src 2 (fBreakPacket ||| fRqAnswer) hroom block.packet
  have htwo : loWord 2 = 2 := by decide
  rw [htwo] at hdecodes
  rw [AcknowledgesName, drop_handleData]
  by_cases hfull : q.isFull = true
  · rw [if_pos hfull]
    exact iff_of_true (fun rq h => absurd h List.not_mem_nil) (.inl hfull)
  · rw [if_neg hfull, List.forall_mem_singleton, or_iff_right hfull, eq_comm, ← hdecodes]
    exact ⟨fun h => h (acknowledges_dataAck src), fun h _ => h⟩

/-- **What an acknowledge says.** When `process` puts it into a packet, which then has less than
`maxTxSize` octets, the acknowledge that `handleData` queues for a block names that block exactly
when there is none, as the queue is full, or when the number of the block is 2. -/
theorem acknowledges_name_iff
    (hlimit : m.protocol.layer3.maxTxAppSize = maxLayer2DataSize)
    (hindex : m.protocol.layer3.txIndex < maxTxSize) :
    AcknowledgesName bus m dataHandler p q s src block dataId ↔
      q.isFull = true ∨ block.packet = 2 :=
  acknowledgesName_iff bus dataHandler p q s src block dataId
    (TMasterTx.hasRoom_of_lt hlimit hindex)

end HandleData

/-- What there is when the device starts: its master, and the queue of that. -/
def idleMaster : TMasterTx ℕ := (Line.fresh 100).master

/-- A block with the given number and no data. -/
def emptyBlock (packet : UInt16) : TDataBuffer := ⟨packet, 0, 0, fun _ => 0⟩

/-- A block with the number 2 from the slave 7 is named. -/
theorem acknowledges_name_two :
    AcknowledgesName Line.uart idleMaster writeData (.init 0 0 fun _ => 7) idleMaster.txQueue
      (.init fun _ => emptyBlock 0) 7 (emptyBlock 2) kDataId :=
  (acknowledges_name_iff Line.uart writeData (.init 0 0 fun _ => 7) idleMaster.txQueue
    (.init fun _ => emptyBlock 0) 7 (emptyBlock 2) kDataId rfl (by decide)).2 (.inr rfl)

/-- The acknowledge of the block 5 says 2. -/
theorem not_acknowledges_name_five :
    ¬ AcknowledgesName Line.uart idleMaster writeData (.init 0 0 fun _ => 7) idleMaster.txQueue
      (.init fun _ => emptyBlock 0) 7 (emptyBlock 5) kDataId := by
  have hroom : TMasterTx.HasRoom idleMaster.protocol := ⟨by decide, by decide⟩
  rw [acknowledgesName_iff Line.uart writeData _ _ _ _ _ _ hroom]
  decide

end KS3.Poll
