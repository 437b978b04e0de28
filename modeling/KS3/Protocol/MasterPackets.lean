import KS3.Protocol.TMasterTx

/-!
# The packets of `TMasterTx`

The requests in the queue come from the functions of `protocol.cpp`, and each of them makes a
message of at most ten octets (`TTxRequest.Ok`). A packet has room for 244 octets, and no request is
added to one that has 128 or more, so that `addMessage` never has to send a packet that is half
filled. `process` takes the requests `batch` from the head of the queue and passes down one packet.

* `addMessage_eq`: a request is appended to the packet;
* `fill_spec`: what is taken from the queue and how long the packet is;
* `process_ready`: everything `process` does with requests in the queue.
-/

namespace KS3.Protocol

open Comm DataIO

/-! ## Requests -/

namespace TTxRequest

/-- The length of the message a request makes. -/
def size (rq : TTxRequest) : ℕ :=
  if rq.type = msgParameterWrite.toUInt16 then 8
  else if rq.type = msgParameterRead.toUInt16 then 4
  else if rq.type = msgReadBlock.toUInt16 then 6
  else if rq.type = msgAppType.toUInt16 then 6 + (loWord rq.parameter0).toNat
  else 0

/-- A request as the functions of `protocol.cpp` make it: its type is known, and an application
message has at most four octets of data. -/
structure Ok (rq : TTxRequest) : Prop where
  known : rq.type = msgParameterWrite.toUInt16 ∨ rq.type = msgParameterRead.toUInt16 ∨
    rq.type = msgReadBlock.toUInt16 ∨ rq.type = msgAppType.toUInt16
  short : rq.type = msgAppType.toUInt16 → (loWord rq.parameter0).toNat ≤ 4

variable {rq : TTxRequest}

theorem Ok.size_le (h : rq.Ok) : rq.size ≤ 10 := by
  rw [size]
  split_ifs with h₁ h₂ h₃ h₄
  · omega
  · omega
  · omega
  · have := h.short h₄
    omega
  · omega

theorem Ok.size_pos (h : rq.Ok) : 0 < rq.size := by
  rw [size]
  split_ifs with h₁ h₂ h₃ h₄
  · omega
  · omega
  · omega
  · omega
  · obtain h | h | h | h := h.known <;> contradiction

/-- The size of a record that is no application message. -/
theorem messageSize_record {id : UInt8} (hid : id ≠ msgAppType) (fields : List UInt8) :
    messageSize (Mem.ofList (id :: fields)) = recordSize id := if_neg hid

/-- The size in the header of an application message. -/
theorem appDataSize_header (sequenceNumber : UInt8) (type dataSize : UInt16) :
    appDataSize (Mem.ofList ([msgAppType, sequenceNumber] ++ wordBytes type ++
      wordBytes dataSize)) = dataSize.toNat :=
  congrArg UInt16.toNat (ofBytes_lo_hi dataSize)

theorem not_wraps_record {id : UInt8} (hid : id ≠ msgAppType) (fields : List UInt8) :
    ¬ Layer3Tx.Wraps (Mem.ofList (id :: fields)) := fun h => hid h.1

/-- The record of a request that is as it should be. -/
theorem Ok.message (h : rq.Ok) (sequenceNumber reserved : UInt8) :
    ∃ msg data, rq.message sequenceNumber reserved = some (msg, data) ∧
      messageSize (Mem.ofList msg) = some rq.size ∧ ¬ Layer3Tx.Wraps (Mem.ofList msg) := by
  obtain ⟨type, address, p0, p1, flags⟩ := rq
  obtain rfl | rfl | rfl | rfl := h.known
  · exact ⟨_, _, rfl, messageSize_record (by decide) _, not_wraps_record (by decide) _⟩
  · exact ⟨_, _, rfl, messageSize_record (by decide) _, not_wraps_record (by decide) _⟩
  · exact ⟨_, _, rfl, messageSize_record (by decide) _, not_wraps_record (by decide) _⟩
  · have hshort : (loWord p0).toNat ≤ 4 := h.short rfl
    have hsize := appDataSize_header sequenceNumber (hiWord p0) (loWord p0)
    have hmod : (sizeofTMsgAppTypeHeader + (loWord p0).toNat) % 2 ^ 16 =
        sizeofTMsgAppTypeHeader + (loWord p0).toNat :=
      Nat.mod_eq_of_lt (by rw [sizeofTMsgAppTypeHeader]; omega)
    refine ⟨_, _, rfl, (if_pos rfl).trans ?_, fun hw => ?_⟩
    · rw [hsize, hmod]
      rfl
    · have hbig := hw.2
      rw [hsize] at hbig
      omega

end TTxRequest

namespace TMasterTx

variable {τ : Type*} (bus : LocalBus τ) {m : TMasterTx τ} {rq : TTxRequest}

/-- There is room for one more message in the packet. -/
structure HasRoom (p : TProtocolInstance τ) : Prop where
  index_le : p.layer3.txIndex + 10 ≤ p.layer3.maxTxAppSize
  max_lt : p.layer3.maxTxAppSize < 2 ^ 16

/-- The octets of the message that `addMessage` makes of a request. -/
def octetsOf (m : TMasterTx τ) (rq : TTxRequest) (rqAnswer : Bool) : List UInt8 :=
  match rq.message (if rqAnswer then m.sn else 0xFF) (bus.reserved m.protocol.lower) with
  | none => []
  | some (msg, data) => encoded (Mem.ofList msg) (Mem.ofList data)

/-- **What `addMessage` does** with a request for which there is room. -/
theorem addMessage_eq (hroom : HasRoom m.protocol) (h : rq.Ok) (rqAnswer : Bool) :
    (m.octetsOf bus rq rqAnswer).length = rq.size ∧
      ∃ sn copies, m.addMessage bus rq rqAnswer =
        { m with
          sn := sn
          protocol := { m.protocol with
            layer3 := m.protocol.layer3.append (m.octetsOf bus rq rqAnswer)
            copies := copies }
          txSize := m.protocol.layer3.txIndex + rq.size } := by
  obtain ⟨msg, data, hmsg, hsize, hwraps⟩ := h.message (if rqAnswer then m.sn else 0xFF)
    (bus.reserved m.protocol.lower)
  have hle := h.size_le
  have hindex := hroom.index_le
  have hbounds : m.protocol.layer3.InBounds := ⟨by omega, hroom.max_lt⟩
  have hoctets : m.octetsOf bus rq rqAnswer = encoded (Mem.ofList msg) (Mem.ofList data) := by
    rw [octetsOf, hmsg]
  obtain ⟨hlen, -⟩ := Layer3Tx.addMessage_eq hbounds hsize hwraps (Mem.ofList data)
  obtain ⟨copies, -, hadd⟩ := TProtocolInstance.addMessage3_eq hbounds hsize hwraps
    (Mem.ofList data)
  rw [if_pos (by omega)] at hadd
  have hne : (m.protocol.addMessage3 (Mem.ofList msg) (Mem.ofList data)).1 ≠ -1 := by
    rw [hadd]
    simp
  have hadd' := TProtocolInstance.addMessage_of_ne bus.toLower hne
  refine ⟨by rw [hoctets, hlen], if rqAnswer then nextSeqNumber m.sn else m.sn,
    m.protocol.copies ++ copies, ?_⟩
  rw [addMessage, hmsg]
  dsimp only
  rw [hadd', hadd, hoctets]
  have htx : (m.protocol.layer3.append (encoded (Mem.ofList msg) (Mem.ofList data))).txIndex =
      m.protocol.layer3.txIndex + rq.size := by
    rw [Layer3Tx.txIndex_append (by have := hroom.max_lt; omega), hlen]
  dsimp only
  rw [htx]

/-! ## Filling a packet -/

/-- The requests `taken` have gone from the queue to the packet, and nothing else has changed. -/
structure Filled (m m' : TMasterTx τ) (taken : List TTxRequest) : Prop where
  queue : m.txQueue.toList = taken ++ m'.txQueue.toList
  index : m'.protocol.layer3.txIndex = m.protocol.layer3.txIndex + (taken.map TTxRequest.size).sum
  txSize : m'.txSize = m'.protocol.layer3.txIndex
  limit : m'.protocol.layer3.maxTxAppSize = m.protocol.layer3.maxTxAppSize
  packets : m'.protocol.packets = m.protocol.packets
  lower : m'.protocol.lower = m.protocol.lower
  srcAddress : m'.protocol.srcAddress = m.protocol.srcAddress
  linkID : m'.protocol.linkID = m.protocol.linkID
  address : m'.address = m.address
  state : m'.state = m.state
  timer : m'.timer = m.timer
  timeouts : m'.timeoutSlaveAnswer = m.timeoutSlaveAnswer ∧
    m'.timeoutEndPacket = m.timeoutEndPacket

theorem Filled.trans {m₁ m₂ m₃ : TMasterTx τ} {taken taken' : List TTxRequest}
    (h : Filled m₁ m₂ taken) (h' : Filled m₂ m₃ taken') : Filled m₁ m₃ (taken ++ taken') where
  queue := by rw [h.queue, h'.queue, List.append_assoc]
  index := by rw [h'.index, h.index, List.map_append, List.sum_append, Nat.add_assoc]
  txSize := h'.txSize
  limit := h'.limit.trans h.limit
  packets := h'.packets.trans h.packets
  lower := h'.lower.trans h.lower
  srcAddress := h'.srcAddress.trans h.srcAddress
  linkID := h'.linkID.trans h.linkID
  address := h'.address.trans h.address
  state := h'.state.trans h.state
  timer := h'.timer.trans h.timer
  timeouts := ⟨h'.timeouts.1.trans h.timeouts.1, h'.timeouts.2.trans h.timeouts.2⟩

/-- A request is taken. -/
theorem filled_take (hroom : HasRoom m.protocol) (h : rq.Ok) {rqs : List TTxRequest}
    (hqueue : m.txQueue.toList = rq :: rqs) : Filled m (m.take bus rq) [rq] := by
  obtain ⟨hlen, sn, copies, hadd⟩ := addMessage_eq bus hroom h rq.Asks
  have hle := h.size_le
  have hindex := hroom.index_le
  have hmax := hroom.max_lt
  have htx : (m.protocol.layer3.append (m.octetsOf bus rq rq.Asks)).txIndex =
      m.protocol.layer3.txIndex + rq.size := by
    rw [Layer3Tx.txIndex_append (by omega), hlen]
  rw [take, hadd]
  constructor
  case queue => simp [hqueue, TQueue.toList_pop]
  case index => simp [htx]
  case txSize => simp [htx]
  all_goals first | rfl | exact ⟨rfl, rfl⟩

/-- The requests the loop in `process` takes for an address, with `n` octets in the packet. -/
def batchFrom (address : UInt16) : ℕ → List TTxRequest → List TTxRequest
  | _, [] => []
  | n, rq :: rqs =>
    if address = rq.address then
      rq ::
        if ¬ rq.Breaks ∧ n + rq.size < maxTxSize then batchFrom address (n + rq.size) rqs else []
    else
      []

/-- The requests `process` takes from the queue for one packet. -/
def batch : List TTxRequest → List TTxRequest
  | [] => []
  | rq :: rqs => rq :: if rq.Breaks then [] else batchFrom rq.address rq.size rqs

theorem hasRoom_of_lt {p : TProtocolInstance τ}
    (hlimit : p.layer3.maxTxAppSize = maxLayer2DataSize) (hlt : p.layer3.txIndex < maxTxSize) :
    HasRoom p := by
  rw [maxTxSize] at hlt
  constructor <;> rw [hlimit, maxLayer2DataSize] <;> omega

/-- The loop takes the requests of `batchFrom`. -/
theorem takeMore_spec {rounds : ℕ} (rqAnswer : Bool) {rqs : List TTxRequest}
    (hqueue : m.txQueue.toList = rqs) (hok : ∀ rq ∈ rqs, rq.Ok) (hrounds : rqs.length ≤ rounds)
    (hlimit : m.protocol.layer3.maxTxAppSize = maxLayer2DataSize)
    (hsize : m.txSize = m.protocol.layer3.txIndex)
    (hlt : m.protocol.layer3.txIndex < maxTxSize) :
    let taken := batchFrom m.address m.protocol.layer3.txIndex rqs
    Filled m (m.takeMore bus rounds rqAnswer).2 taken ∧
      (m.takeMore bus rounds rqAnswer).1 = (rqAnswer || taken.any fun rq => rq.Asks) := by
  have hstay : Filled m m [] :=
    ⟨rfl, rfl, hsize, rfl, rfl, rfl, rfl, rfl, rfl, rfl, rfl, rfl, rfl⟩
  induction rounds generalizing m rqAnswer rqs with
  | zero =>
    obtain rfl := List.length_eq_zero_iff.1 (Nat.le_zero.1 hrounds)
    exact ⟨hstay, by simp [takeMore, batchFrom]⟩
  | succ rounds ih =>
    rw [takeMore, TQueue.front_eq, hqueue]
    cases rqs with
    | nil => exact ⟨hstay, by simp [batchFrom]⟩
    | cons rq rqs =>
      simp only [List.head?_cons]
      by_cases haddress : m.address = rq.address
      swap
      · rw [if_neg haddress, batchFrom, if_neg haddress]
        exact ⟨hstay, by simp⟩
      have hrq := hok rq List.mem_cons_self
      have hfilled := filled_take bus (hasRoom_of_lt hlimit hlt) hrq hqueue
      have hindex : (m.take bus rq).protocol.layer3.txIndex =
          m.protocol.layer3.txIndex + rq.size := by
        rw [hfilled.index, List.map_singleton, List.sum_singleton]
      rw [if_pos haddress, batchFrom, if_pos haddress, hfilled.txSize, hindex]
      by_cases hmore : ¬ rq.Breaks ∧ m.protocol.layer3.txIndex + rq.size < maxTxSize
      · have hrest := hfilled.queue
        rw [hqueue, List.singleton_append, List.cons_inj_right] at hrest
        obtain ⟨hmfilled, hanswer⟩ := ih (m := m.take bus rq) (rqAnswer || rq.Asks) hrest.symm
          (fun rq' h => hok rq' (List.mem_cons_of_mem rq h)) (Nat.le_of_succ_le_succ hrounds)
          (hfilled.limit.trans hlimit) hfilled.txSize (by rw [hindex]; exact hmore.2)
          ⟨rfl, rfl, hfilled.txSize, rfl, rfl, rfl, rfl, rfl, rfl, rfl, rfl, rfl, rfl⟩
        rw [hindex, hfilled.address] at hmfilled hanswer
        rw [if_pos hmore, if_pos hmore]
        refine ⟨hfilled.trans hmfilled, ?_⟩
        rw [hanswer, List.any_cons, Bool.or_assoc]
      · rw [if_neg hmore, if_neg hmore]
        exact ⟨hfilled, by simp⟩

/-- The machine with an empty packet for an address. -/
def begun (m : TMasterTx τ) (address : UInt16) : TMasterTx τ :=
  { m with address := address, protocol := m.protocol.startTxPacket }

/-- **What is taken from the queue** for a packet, and whether an answer is asked for. -/
theorem fill_spec {rqs : List TTxRequest} (hqueue : m.txQueue.toList = rq :: rqs)
    (hok : ∀ rq' ∈ rq :: rqs, rq'.Ok)
    (hlimit : m.protocol.layer3.maxTxAppSize = maxLayer2DataSize) :
    Filled (m.begun rq.address) (m.fill bus rq).2 (batch (rq :: rqs)) ∧
      (m.fill bus rq).1 = (batch (rq :: rqs)).any fun rq' => rq'.Asks := by
  have hrq := hok rq List.mem_cons_self
  have hle := hrq.size_le
  have hfilled : Filled (m.begun rq.address) ((m.begun rq.address).take bus rq) [rq] :=
    filled_take bus (hasRoom_of_lt hlimit (by decide : 0 < maxTxSize)) hrq hqueue
  have hindex : ((m.begun rq.address).take bus rq).protocol.layer3.txIndex = rq.size := by
    rw [hfilled.index, List.map_singleton, List.sum_singleton]
    exact Nat.zero_add _
  have hrest := hfilled.queue
  rw [show (m.begun rq.address).txQueue.toList = rq :: rqs from hqueue, List.singleton_append,
    List.cons_inj_right] at hrest
  rw [fill, batch]
  by_cases hbreaks : rq.Breaks
  · rw [if_pos hbreaks, if_pos hbreaks]
    exact ⟨hfilled, by simp⟩
  · rw [if_neg hbreaks, if_neg hbreaks]
    have hmore := takeMore_spec bus rq.Asks hrest.symm
      (fun rq' h => hok rq' (List.mem_cons_of_mem rq h))
      (by rw [hrest, TQueue.length_toList]) (hfilled.limit.trans hlimit) hfilled.txSize
      (by rw [hindex, maxTxSize]; omega)
    rw [hindex, hfilled.address] at hmore
    exact ⟨hfilled.trans hmore.1, hmore.2.trans (by rw [List.any_cons]; rfl)⟩

/-! ## Sending it -/

/-- The octets a packet of the given requests has. -/
def payloadSize (taken : List TTxRequest) : ℕ := (taken.map TTxRequest.size).sum

/-- Layer 1 has more room than a packet of the given requests needs. -/
def RoomFor (m : TMasterTx τ) (taken : List TTxRequest) : Prop :=
  bus.getTxFree m.protocol.lower > 10 + payloadSize taken

instance (taken : List TTxRequest) : Decidable (m.RoomFor bus taken) :=
  inferInstanceAs (Decidable (_ > _))

/-- Whether a packet was passed to `write` of layer 1. -/
def Written : Packet → Bool
  | .frame _ _ _ written => written.isSome
  | .datagram _ _ => false

/-- What a `process` does that takes requests from the queue: they are gone, one packet of them has
been written or refused, and an answer is waited for if one is asked for. -/
structure Processed (m m' : TMasterTx τ) (taken : List TTxRequest) (now : UInt32) : Prop where
  queue : m.txQueue.toList = taken ++ m'.txQueue.toList
  packet : ∃ packet, m'.protocol.packets = m.protocol.packets ++ [packet] ∧
    (Written packet = true ↔ m.RoomFor bus taken)
  index : m'.protocol.layer3.txIndex = 0
  limit : m'.protocol.layer3.maxTxAppSize = m.protocol.layer3.maxTxAppSize
  state : m'.state = if taken.any fun rq => rq.Asks then .stWaitAnswer else .stReadyToTx
  timer : m'.timer = if taken.any fun rq => rq.Asks then now else m.timer
  timeouts : m'.timeoutSlaveAnswer = m.timeoutSlaveAnswer ∧
    m'.timeoutEndPacket = m.timeoutEndPacket

/-- No packet is longer than its last message behind 127 octets. -/
theorem sum_batchFrom_le (address : UInt16) {n : ℕ} {rqs : List TTxRequest}
    (hok : ∀ rq ∈ rqs, rq.Ok) (hn : n < maxTxSize) :
    n + payloadSize (batchFrom address n rqs) < maxTxSize + 10 := by
  induction rqs generalizing n with
  | nil => exact Nat.lt_of_lt_of_le hn (Nat.le_add_right _ _)
  | cons rq rqs ih =>
    have hle := (hok rq List.mem_cons_self).size_le
    rw [batchFrom]
    split_ifs with haddress hmore
    · have hrest := ih (fun rq' h => hok rq' (List.mem_cons_of_mem rq h)) hmore.2
      rw [payloadSize, List.map_cons, List.sum_cons, ← payloadSize]
      omega
    · rw [payloadSize, List.map_singleton, List.sum_singleton]
      omega
    · exact Nat.lt_of_lt_of_le hn (Nat.le_add_right _ _)

/-- What the call of `sendPacket` does with a packet that is not empty: a frame of it is written, or
refused for want of room. -/
theorem send_spec (hpos : m.protocol.layer3.txIndex ≠ 0)
    (hlt : m.protocol.layer3.txIndex + 10 < 2 ^ 16) :
    ∃ n written layer3 lower, (written.isSome ↔ m.protocol.Room bus.toLower) ∧
      layer3.txIndex = 0 ∧ layer3.maxTxAppSize = m.protocol.layer3.maxTxAppSize ∧
      m.send bus =
        { m with
          txSize := n
          protocol := { m.protocol with
            layer3 := layer3
            lower := lower
            packets := m.protocol.packets ++
              [.frame ((dest m.address).getD m.protocol.srcAddress.toUInt8)
                m.protocol.layer3.payload (m.protocol.octets bus.toLower (dest m.address))
                written] } } := by
  obtain ⟨txPacket, hsend⟩ := TProtocolInstance.sendFrame_eq bus.toLower hpos hlt (dest m.address)
  rw [send, hsend]
  by_cases hroom : m.protocol.Room bus.toLower
  · rw [if_pos hroom]
    refine ⟨_, some _, _, _, ?_, ?_, ?_, rfl⟩
    · exact iff_of_true rfl hroom
    · rfl
    · rfl
  · rw [if_neg hroom]
    refine ⟨_, none, _, _, ?_, ?_, ?_, rfl⟩
    · exact iff_of_false Bool.false_ne_true hroom
    · rfl
    · rfl

/-- A packet of requests is not empty, and is shorter than the limit. -/
theorem payloadSize_batch {rqs : List TTxRequest} (hok : ∀ rq' ∈ rq :: rqs, rq'.Ok) :
    payloadSize (batch (rq :: rqs)) ≠ 0 ∧ payloadSize (batch (rq :: rqs)) < maxTxSize + 10 := by
  have hrq := hok rq List.mem_cons_self
  have hle := hrq.size_le
  have hpos := hrq.size_pos
  rw [batch]
  split_ifs
  · rw [payloadSize, List.map_singleton, List.sum_singleton, maxTxSize]
    omega
  · have hrest := sum_batchFrom_le rq.address
      (fun rq' h => hok rq' (List.mem_cons_of_mem rq h)) (n := rq.size) (by rw [maxTxSize]; omega)
    rw [payloadSize, List.map_cons, List.sum_cons, ← payloadSize]
    omega

/-- `process` in `stReadyToTx` with room in layer 1 and requests in the queue: the packet is filled
and sent. -/
theorem process_eq {rqs : List TTxRequest} (hstate : m.state = .stReadyToTx)
    (hfree : bus.getTxFree m.protocol.lower ≠ 0) (hqueue : m.txQueue.toList = rq :: rqs)
    (hok : ∀ rq' ∈ rq :: rqs, rq'.Ok)
    (hlimit : m.protocol.layer3.maxTxAppSize = maxLayer2DataSize) (now : UInt32) :
    m.process bus now =
      { (m.fill bus rq).2.send bus with
        timer := if (batch (rq :: rqs)).any fun rq => rq.Asks then now
          else ((m.fill bus rq).2.send bus).timer
        state := if (batch (rq :: rqs)).any fun rq => rq.Asks then .stWaitAnswer
          else ((m.fill bus rq).2.send bus).state } := by
  obtain ⟨-, hanswer⟩ := fill_spec bus hqueue hok hlimit
  rw [process, hstate]
  dsimp only
  rw [if_pos hfree, TQueue.front_eq, hqueue]
  simp only [List.head?_cons, hanswer]
  split_ifs <;> rfl

/-- **What `process` does** in `stReadyToTx` with room in layer 1 and requests in the queue. -/
theorem process_ready {rqs : List TTxRequest} (hstate : m.state = .stReadyToTx)
    (hfree : bus.getTxFree m.protocol.lower ≠ 0) (hqueue : m.txQueue.toList = rq :: rqs)
    (hok : ∀ rq' ∈ rq :: rqs, rq'.Ok)
    (hlimit : m.protocol.layer3.maxTxAppSize = maxLayer2DataSize) (now : UInt32) :
    Processed bus m (m.process bus now) (batch (rq :: rqs)) now := by
  obtain ⟨hfilled, -⟩ := fill_spec bus hqueue hok hlimit
  obtain ⟨hpos, hlt⟩ := payloadSize_batch hok
  have hindex : (m.fill bus rq).2.protocol.layer3.txIndex = payloadSize (batch (rq :: rqs)) := by
    rw [hfilled.index]
    exact Nat.zero_add _
  have hroom : (m.fill bus rq).2.protocol.Room bus.toLower ↔
      m.RoomFor bus (batch (rq :: rqs)) := by
    rw [TProtocolInstance.Room, hindex, hfilled.lower]
    rfl
  obtain ⟨n, written, layer3, lower, hwritten, hzero, hmax, hsend⟩ :=
    send_spec bus (m := (m.fill bus rq).2) (by rw [hindex]; exact hpos)
      (by rw [hindex, maxTxSize] at *; omega)
  rw [process_eq bus hstate hfree hqueue hok hlimit, hsend]
  exact
    { queue := hfilled.queue
      packet := ⟨_, congrArg (· ++ [_]) hfilled.packets, hwritten.trans hroom⟩
      index := hzero
      limit := hmax.trans hfilled.limit
      state := by rw [hfilled.state]; exact congrArg (ite _ _) hstate
      timer := by rw [hfilled.timer]; rfl
      timeouts := hfilled.timeouts }

end TMasterTx

end KS3.Protocol
