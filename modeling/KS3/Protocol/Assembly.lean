import KS3.Foundations.Greedy
import KS3.Protocol.MasterRuns

/-!
# From queued requests to a frame and back

What one call of `process` makes of the queue. Which requests are taken is said by a rule on the
requests taken already (`Joins`); what becomes of them is said by what a receiver at their address
gets out of the frame: one message for each request, with the fields its parameters were packed
from (`Carries`).

* `longest_batch`: the requests taken are the longest beginning of the queue the rule allows;
* `payload_foldl_take`: the packet is the messages of the requests, one behind the other;
* `process_assembles`: what a call of `process` does, in every state a run leads to.
-/

namespace KS3.Protocol

open Comm DataIO Greedy

/-! ## Which requests are taken -/

namespace TMasterTx

/-- A request is taken behind others: any at the head of the queue, and then one for the address of
the first, as long as the last does not break the packet and there are less than 128 octets in it
or the first request only. -/
def Joins (taken : List TTxRequest) (rq : TTxRequest) : Prop :=
  ∀ first ∈ taken.head?, ∀ last ∈ taken.getLast?,
    ¬ last.Breaks ∧ (payloadSize taken < maxTxSize ∨ taken.length = 1) ∧
      rq.address = first.address

theorem payloadSize_append (taken taken' : List TTxRequest) :
    payloadSize (taken ++ taken') = payloadSize taken + payloadSize taken' := by
  rw [payloadSize, List.map_append, List.sum_append, payloadSize, payloadSize]

theorem payloadSize_singleton (rq : TTxRequest) : payloadSize [rq] = rq.size :=
  List.sum_singleton

/-- The rule for a list that ends with a known request. -/
theorem joins_append_singleton {first last : TTxRequest} {more : List TTxRequest}
    {taken : List TTxRequest} (htaken : taken ++ [last] = first :: more) (rq : TTxRequest) :
    Joins (taken ++ [last]) rq ↔ ¬ last.Breaks ∧
      (payloadSize (taken ++ [last]) < maxTxSize ∨ taken = []) ∧ rq.address = first.address := by
  have hfirst : (taken ++ [last]).head? = some first := by rw [htaken, List.head?_cons]
  have hlast : (taken ++ [last]).getLast? = some last := List.getLast?_concat
  have hone : (taken ++ [last]).length = 1 ↔ taken = [] := by simp
  simp only [Joins, hfirst, hlast, hone, Option.mem_some_iff, forall_eq']

/-- The loop goes on behind requests that leave the packet open. -/
theorem longest_batchFrom {first last : TTxRequest} {taken more : List TTxRequest}
    (htaken : taken ++ [last] = first :: more) (hgrown : Grown Joins (taken ++ [last]))
    (hopen : ¬ last.Breaks)
    (hsize : payloadSize (taken ++ [last]) < maxTxSize ∨ taken = []) (rqs : List TTxRequest) :
    Longest Joins (taken ++ [last] ++ rqs)
      (taken ++ [last] ++ batchFrom first.address (payloadSize (taken ++ [last])) rqs) := by
  induction rqs generalizing last taken more with
  | nil =>
    rw [batchFrom, List.append_nil]
    have hlong := longest_of_stuck hgrown [] (by simp)
    rwa [List.append_nil] at hlong
  | cons rq rqs ih =>
    rw [batchFrom]
    by_cases haddress : first.address = rq.address
    swap
    · rw [if_neg haddress, List.append_nil]
      refine longest_of_stuck hgrown _ fun a ha hjoins => ?_
      obtain rfl := Option.some.inj ha
      exact haddress ((joins_append_singleton htaken _).1 hjoins).2.2.symm
    have hnext : Grown Joins (taken ++ [last] ++ [rq]) :=
      hgrown.snoc ((joins_append_singleton htaken rq).2 ⟨hopen, hsize, haddress.symm⟩)
    have htaken' : taken ++ [last] ++ [rq] = first :: (more ++ [rq]) := by
      rw [htaken, List.cons_append]
    have hsum : payloadSize (taken ++ [last] ++ [rq]) =
        payloadSize (taken ++ [last]) + rq.size := by
      rw [payloadSize_append, payloadSize_singleton]
    rw [if_pos haddress, List.append_cons _ rq rqs, List.append_cons _ rq (ite _ _ _)]
    by_cases hmore : ¬ rq.Breaks ∧ payloadSize (taken ++ [last]) + rq.size < maxTxSize
    · rw [if_pos hmore, ← hsum]
      exact ih htaken' hnext hmore.1 (.inl (hsum ▸ hmore.2))
    · rw [if_neg hmore, List.append_nil]
      refine longest_of_stuck hnext _ fun a _ hjoins => hmore ?_
      obtain ⟨hbreaks, hlt, -⟩ := (joins_append_singleton htaken' a).1 hjoins
      exact ⟨hbreaks, hsum ▸ hlt.resolve_right (by simp)⟩

/-- **The requests for a packet** are the longest beginning of the queue that the rule allows. -/
theorem longest_batch (queue : List TTxRequest) : Longest Joins queue (batch queue) := by
  cases queue with
  | nil => exact longest_of_stuck .nil [] (by simp)
  | cons rq rqs =>
    have hhead : Grown Joins ([] ++ [rq]) := Grown.nil.snoc (by simp [Joins])
    have htaken : [] ++ [rq] = rq :: [] := rfl
    rw [batch]
    split_ifs with hbreaks
    · refine longest_of_stuck hhead _ fun a _ hjoins => ?_
      exact ((joins_append_singleton htaken a).1 hjoins).1 hbreaks
    · have hlong := longest_batchFrom htaken hhead hbreaks (.inr rfl) rqs
      rwa [List.nil_append, payloadSize_singleton] at hlong

end TMasterTx

/-! ## What becomes of a request -/

namespace TTxRequest

variable {rq : TTxRequest}

/-- The fields of a request fit the fields of the frame and of the message they go to. -/
structure Fits (rq : TTxRequest) : Prop where
  address_lt : rq.address.toNat < 2 ^ 8
  number_lt : rq.type ≠ msgAppType.toUInt16 → rq.parameter0.toNat < 2 ^ 16
  count_lt : rq.type = msgReadBlock.toUInt16 → rq.parameter1.toNat < 2 ^ 8

instance (rq : TTxRequest) : Decidable rq.Fits :=
  decidable_of_iff (rq.address.toNat < 2 ^ 8 ∧
      (rq.type ≠ msgAppType.toUInt16 → rq.parameter0.toNat < 2 ^ 16) ∧
      (rq.type = msgReadBlock.toUInt16 → rq.parameter1.toNat < 2 ^ 8))
    ⟨fun h => ⟨h.1, h.2.1, h.2.2⟩, fun h => ⟨h.address_lt, h.number_lt, h.count_lt⟩⟩

/-- The fields of a message, by its type, are the parameters of a request. -/
inductive Fields (rq : TTxRequest) (msg : Mem) : Prop
  | write (type : rq.type = msgParameterWrite.toUInt16) (id : msg 0 = msgParameterWrite)
      (number : (msg.word 2).toUInt32 = rq.parameter0)
      (value : ofWords (msg.word 4) (msg.word 6) = rq.parameter1)
  | read (type : rq.type = msgParameterRead.toUInt16) (id : msg 0 = msgParameterRead)
      (number : (msg.word 2).toUInt32 = rq.parameter0)
  | readBlock (type : rq.type = msgReadBlock.toUInt16) (id : msg 0 = msgReadBlock)
      (base : (msg.word 2).toUInt32 = rq.parameter0) (count : (msg 4).toUInt32 = rq.parameter1)
  | app (type : rq.type = msgAppType.toUInt16) (id : msg 0 = msgAppType)
      (appType : (msg.word 2).toUInt32 = rq.parameter0 >>> 16)
      (dataSize : (msg.word 4).toUInt32 = rq.parameter0 &&& 0xFFFF)
      (data : msg.read 6 (msg.word 4).toNat = (longBytes rq.parameter1).take (msg.word 4).toNat)

/-- A message with the given sequence number that says what a request says, and nothing more. -/
structure Carries (rq : TTxRequest) (sequenceNumber : UInt8) (msg : List UInt8) : Prop where
  number : Mem.ofList msg 1 = sequenceNumber
  size : messageSize (Mem.ofList msg) = some msg.length
  fields : Fields rq (Mem.ofList msg)

/-- The octets of the message that is made of a request. -/
def octets (rq : TTxRequest) (sequenceNumber reserved : UInt8) : List UInt8 :=
  (rq.message sequenceNumber reserved).elim [] fun record =>
    encoded (Mem.ofList record.1) (Mem.ofList record.2)

/-- The message of a request for an application: its header, and as many octets of the data as the
header says. -/
theorem octets_app (address : UInt16) (p0 p1 flags : UInt32) (sequenceNumber reserved : UInt8) :
    octets ⟨msgAppType.toUInt16, address, p0, p1, flags⟩ sequenceNumber reserved =
      [msgAppType, sequenceNumber] ++ wordBytes (hiWord p0) ++ wordBytes (loWord p0) ++
        (Mem.ofList (longBytes p1)).read 0 (loWord p0).toNat := by
  have hsize := appDataSize_header sequenceNumber (hiWord p0) (loWord p0)
  have hmessage : message ⟨msgAppType.toUInt16, address, p0, p1, flags⟩ sequenceNumber reserved =
      some ([msgAppType, sequenceNumber] ++ wordBytes (hiWord p0) ++ wordBytes (loWord p0),
        longBytes p1) := rfl
  have hid : Mem.ofList ([msgAppType, sequenceNumber] ++ wordBytes (hiWord p0) ++
      wordBytes (loWord p0)) 0 = msgAppType := rfl
  rw [octets, hmessage, Option.elim_some, encoded, if_pos hid, hsize]
  rfl

/-- The fields of an application message. -/
theorem appMessage_fields (sequenceNumber : UInt8) (t : UInt16) {n : UInt16} {data : List UInt8}
    (hlength : data.length = n.toNat) (hlt : 6 + n.toNat < 2 ^ 16) :
    let msg := [msgAppType, sequenceNumber] ++ wordBytes t ++ wordBytes n ++ data
    Mem.ofList msg 0 = msgAppType ∧ Mem.ofList msg 1 = sequenceNumber ∧
      (Mem.ofList msg).word 2 = t ∧ (Mem.ofList msg).word 4 = n ∧
      (Mem.ofList msg).read 6 n.toNat = data ∧
      messageSize (Mem.ofList msg) = some msg.length := by
  intro msg
  have hid : Mem.ofList msg 0 = msgAppType := rfl
  have hsize : (Mem.ofList msg).word 4 = n := ofBytes_lo_hi _
  have hlen : msg.length = 6 + n.toNat := by
    rw [List.length_append, hlength]
    rfl
  refine ⟨hid, rfl, ofBytes_lo_hi _, hsize, ?_, ?_⟩
  · have hdrop := (Mem.ofList msg).drop_read 0 6 n.toNat
    rw [← hlen, Mem.read_ofList] at hdrop
    exact hdrop.symm
  · rw [messageSize, if_pos hid, appDataSize, hsize, hlen, sizeofTMsgAppTypeHeader,
      Nat.mod_eq_of_lt hlt]

/-- **Every request is carried by its message.** -/
theorem carries_octets (hok : rq.Ok) (hfits : rq.Fits) (sequenceNumber reserved : UInt8) :
    Carries rq sequenceNumber (rq.octets sequenceNumber reserved) := by
  obtain ⟨type, address, p0, p1, flags⟩ := rq
  have hnumber : type ≠ msgAppType.toUInt16 → ofBytes (loByte (loWord p0)) (hiByte (loWord p0)) =
      loWord p0 ∧ (loWord p0).toUInt32 = p0 := fun hne =>
    ⟨ofBytes_lo_hi _, toUInt32_loWord (hfits.number_lt hne)⟩
  obtain rfl | rfl | rfl | rfl := hok.known
  · obtain ⟨hword, hp0⟩ := hnumber (by decide)
    refine ⟨rfl, rfl, .write rfl rfl ((congrArg UInt16.toUInt32 hword).trans hp0) ?_⟩
    have hvalue := ofWords_loWord_hiWord p1
    rwa [← ofBytes_lo_hi (loWord p1), ← ofBytes_lo_hi (hiWord p1)] at hvalue
  · obtain ⟨hword, hp0⟩ := hnumber (by decide)
    exact ⟨rfl, rfl, .read rfl rfl ((congrArg UInt16.toUInt32 hword).trans hp0)⟩
  · obtain ⟨hword, hp0⟩ := hnumber (by decide)
    exact ⟨rfl, rfl, .readBlock rfl rfl ((congrArg UInt16.toUInt32 hword).trans hp0)
      (toUInt32_toUInt8 (hfits.count_lt rfl))⟩
  · have hshort : (loWord p0).toNat ≤ 4 := hok.short rfl
    rw [octets_app]
    have hdata : (Mem.ofList (longBytes p1)).read 0 (loWord p0).toNat =
        (longBytes p1).take (loWord p0).toNat := by
      rw [← Mem.take_read _ hshort]
      exact congrArg (List.take _) (Mem.read_ofList (longBytes p1))
    obtain ⟨hid, hseq, htype, hsize, hread, hmessage⟩ := appMessage_fields sequenceNumber
      (hiWord p0) (Mem.length_read (Mem.ofList (longBytes p1)) 0 (loWord p0).toNat) (by omega)
    refine ⟨hseq, hmessage, .app rfl hid ?_ ?_ ?_⟩
    · rw [htype, toUInt32_hiWord]
    · rw [hsize, toUInt32_loWord_eq_and]
    · rw [hsize, hread, hdata]

end TTxRequest

/-! ## What the packet holds -/

namespace TMasterTx

variable {τ : Type*} (bus : LocalBus τ) {m : TMasterTx τ} {rq : TTxRequest}

/-- The requests with the sequence numbers of their messages, from the next number on: a request
that asks for no answer has `0xFF`. -/
def numbered : UInt8 → List TTxRequest → List (TTxRequest × UInt8)
  | _, [] => []
  | sn, rq :: rqs =>
    if rq.Asks then (rq, sn) :: numbered (nextSeqNumber sn) rqs
    else (rq, 0xFF) :: numbered sn rqs

theorem map_fst_numbered (sn : UInt8) (rqs : List TTxRequest) :
    (numbered sn rqs).map Prod.fst = rqs := by
  induction rqs generalizing sn with
  | nil => rfl
  | cons rq rqs ih =>
    rw [numbered]
    split_ifs
    · rw [List.map_cons, ih]
    · rw [List.map_cons, ih]

theorem length_numbered (sn : UInt8) (rqs : List TTxRequest) :
    (numbered sn rqs).length = rqs.length := by
  rw [← List.length_map (f := Prod.fst), map_fst_numbered]

theorem mem_of_mem_numbered {sn : UInt8} {rqs : List TTxRequest} {x : TTxRequest × UInt8}
    (hx : x ∈ numbered sn rqs) : x.1 ∈ rqs := by
  rw [← map_fst_numbered sn rqs]
  exact List.mem_map_of_mem hx

/-- The messages of requests. -/
def messages (reserved sn : UInt8) (rqs : List TTxRequest) : List (List UInt8) :=
  (numbered sn rqs).map fun x => x.1.octets x.2 reserved

theorem messages_cons (reserved sn : UInt8) (rq : TTxRequest) (rqs : List TTxRequest) :
    messages reserved sn (rq :: rqs) =
      rq.octets (if rq.Asks then sn else 0xFF) reserved ::
        messages reserved (if rq.Asks then nextSeqNumber sn else sn) rqs := by
  rw [messages, numbered]
  split_ifs <;> rfl

theorem txQueue_addMessage (m : TMasterTx τ) (rq : TTxRequest) (rqAnswer : Bool) :
    (m.addMessage bus rq rqAnswer).txQueue = m.txQueue := by
  rw [addMessage]
  split <;> rfl

theorem toList_take (m : TMasterTx τ) (rq : TTxRequest) :
    (m.take bus rq).txQueue.toList = m.txQueue.toList.tail := by
  rw [take, TQueue.toList_pop, txQueue_addMessage]

/-- The number the next request that asks for an answer gets. -/
theorem sn_take (h : rq.Ok) :
    (m.take bus rq).sn = if rq.Asks then nextSeqNumber m.sn else m.sn := by
  obtain ⟨msg, data, hmsg, -⟩ := h.message (if decide rq.Asks then m.sn else 0xFF)
    (bus.reserved m.protocol.lower)
  rw [take, addMessage, hmsg]
  simp only [decide_eq_true_eq]

/-- A request is taken: its message is behind the others in the packet. -/
theorem payload_take (hroom : HasRoom m.protocol) (h : rq.Ok) :
    (m.take bus rq).protocol.layer3.payload = m.protocol.layer3.payload ++
      rq.octets (if rq.Asks then m.sn else 0xFF) (bus.reserved m.protocol.lower) := by
  obtain ⟨hlen, sn, copies, hadd⟩ := addMessage_eq bus hroom h rq.Asks
  have hle := h.size_le
  have hindex := hroom.index_le
  have hmax := hroom.max_lt
  have hoctets : m.octetsOf bus rq rq.Asks =
      rq.octets (if rq.Asks then m.sn else 0xFF) (bus.reserved m.protocol.lower) := by
    rw [octetsOf, TTxRequest.octets]
    simp only [decide_eq_true_eq]
    cases rq.message (if rq.Asks then m.sn else 0xFF) (bus.reserved m.protocol.lower) with
    | none => rfl
    | some record => rfl
  rw [take, hadd]
  dsimp only
  rw [Layer3Tx.payload_append (by omega), hoctets]

/-- **The packet** after several requests: their messages one behind the other. -/
theorem payload_foldl_take {taken : List TTxRequest} (hok : ∀ rq ∈ taken, rq.Ok)
    (hqueue : taken <+: m.txQueue.toList)
    (hroom : m.protocol.layer3.txIndex + payloadSize taken + 10 ≤ m.protocol.layer3.maxTxAppSize)
    (hmax : m.protocol.layer3.maxTxAppSize < 2 ^ 16) :
    (taken.foldl (take bus) m).protocol.layer3.payload = m.protocol.layer3.payload ++
      (messages (bus.reserved m.protocol.lower) m.sn taken).flatten := by
  induction taken generalizing m with
  | nil => exact (List.append_nil _).symm
  | cons rq rqs ih =>
    have hrq := hok rq List.mem_cons_self
    have hsum : payloadSize (rq :: rqs) = rq.size + payloadSize rqs := by
      rw [payloadSize, List.map_cons, List.sum_cons, ← payloadSize]
    have hroom' : HasRoom m.protocol := ⟨by omega, hmax⟩
    obtain ⟨rest, hrest⟩ := hqueue
    have hfilled := filled_take bus hroom' hrq (hrest.symm.trans (List.cons_append ..))
    have hnext := ih (m := m.take bus rq) (fun rq' h => hok rq' (List.mem_cons_of_mem rq h))
      ⟨rest, by rw [toList_take, ← hrest]; rfl⟩
      (by
        rw [hfilled.index, hfilled.limit, List.map_singleton, List.sum_singleton]
        omega)
      (by rw [hfilled.limit]; exact hmax)
    rw [List.foldl_cons, hnext, hfilled.lower, sn_take bus hrq, payload_take bus hroom' hrq,
      messages_cons, List.flatten_cons, List.append_assoc]

/-- The loop takes requests from the head of the queue. -/
theorem takeMore_foldl (rounds : ℕ) (rqAnswer : Bool) (m : TMasterTx τ) :
    ∃ taken, m.txQueue.toList =
        taken ++ (m.takeMore bus rounds rqAnswer).2.txQueue.toList ∧
      (m.takeMore bus rounds rqAnswer).2 = taken.foldl (take bus) m := by
  induction rounds generalizing rqAnswer m with
  | zero => exact ⟨[], rfl, rfl⟩
  | succ rounds ih =>
    rw [takeMore, TQueue.front_eq]
    cases hqueue : m.txQueue.toList with
    | nil => exact ⟨[], hqueue.symm, rfl⟩
    | cons rq rqs =>
      have htake : (m.take bus rq).txQueue.toList = rqs := by rw [toList_take, hqueue]; rfl
      simp only [List.head?_cons]
      split_ifs
      · obtain ⟨taken, hrest, hmore⟩ := ih (rqAnswer || rq.Asks) (m.take bus rq)
        rw [htake] at hrest
        refine ⟨rq :: taken, ?_, hmore⟩
        rw [List.cons_append, ← hrest]
      · exact ⟨[rq], by rw [htake]; rfl, rfl⟩
      · exact ⟨[], hqueue.symm, rfl⟩

/-- Filling a packet takes requests from the head of the queue. -/
theorem fill_foldl {rqs : List TTxRequest} (hqueue : m.txQueue.toList = rq :: rqs) :
    ∃ taken, m.txQueue.toList = taken ++ (m.fill bus rq).2.txQueue.toList ∧
      (m.fill bus rq).2 = taken.foldl (take bus) (m.begun rq.address) := by
  have htake : ((m.begun rq.address).take bus rq).txQueue.toList = rqs := by
    rw [toList_take, show (m.begun rq.address).txQueue.toList = rq :: rqs from hqueue]
    rfl
  rw [fill]
  split_ifs
  · exact ⟨[rq], by rw [hqueue, ← htake]; rfl, rfl⟩
  · obtain ⟨taken, hrest, hmore⟩ := takeMore_foldl bus
      ((m.begun rq.address).take bus rq).txQueue.size rq.Asks ((m.begun rq.address).take bus rq)
    rw [htake] at hrest
    exact ⟨rq :: taken, by rw [hqueue, List.cons_append, hrest]; rfl, hmore⟩

/-! ## The frame -/

/-- The octets of the message of a request are a well-formed message. -/
theorem exists_message (h : rq.Ok) (sequenceNumber reserved : UInt8) :
    ∃ a : Message, a.bytes = rq.octets sequenceNumber reserved := by
  obtain ⟨msg, data, hmsg, hsize, hwraps⟩ := h.message sequenceNumber reserved
  rw [TTxRequest.octets, hmsg, Option.elim_some]
  refine Layer3Tx.exists_message (Mem.ofList msg) _ (fun hid => ?_) fun hid => ?_
  · have hbig : ¬ 0xFFFA ≤ appDataSize (Mem.ofList msg) := fun hbig => hwraps ⟨hid, hbig⟩
    rw [sizeofTMsgAppTypeHeader]
    omega
  · rw [messageSize, if_neg hid] at hsize
    exact ⟨_, hsize⟩

theorem exists_messages {rqs : List TTxRequest} (hok : ∀ rq ∈ rqs, rq.Ok) (reserved sn : UInt8) :
    ∃ as : List Message, as.map Message.bytes = messages reserved sn rqs := by
  have hmem : messages reserved sn rqs ∈ Set.range (List.map Message.bytes) := by
    rw [Set.range_list_map]
    intro msg hmsg
    obtain ⟨x, hx, rfl⟩ := List.mem_map.1 hmsg
    exact exists_message (hok x.1 (mem_of_mem_numbered hx)) x.2 reserved
  exact hmem

/-- What a receiver gets out of a frame: it is complete at the last octet and at no earlier one, it
is for the given address, and its messages carry the requests in order; there are no others. -/
structure Decodes (sender receiver : DataIOLayer2) (octets : List UInt8) (address : UInt16)
    (requests : List (TTxRequest × UInt8)) : Prop where
  complete : ∃ rcs, (receiver.feed octets).1 = rcs ++ [2] ∧ ∀ rc ∈ rcs, rc ≠ 2
  addresses : ∀ rx : Layer3Rx, (rx.readPacket (receiver.feed octets).2).2 =
    some (address, sender.selfAddress.toUInt16)
  messages : ∃ msgs, List.Forall₂ (fun x msg => x.1.Carries x.2 msg) requests msgs ∧
    ∀ rx : Layer3Rx, ∀ fuel > requests.length, ∃ rx', Layer3Rx.forMessages Layer3Rx.keepBytes fuel
      (rx.readPacket (receiver.feed octets).2).1 [] = some (-1, rx', msgs)

/-- **What a call of `process` makes of the queue**: the longest beginning the rule allows is gone
from it; if that is not empty, one frame for the address of the first request is passed down, whose
payload keeps to the limit and which is written if layer 1 has room for it; a receiver at that
address decodes it to the requests; and the machine waits for an answer if one asks for it. -/
structure Assembled (m m' : TMasterTx τ) (taken : List TTxRequest) : Prop where
  longest : Longest Joins m.txQueue.toList taken
  queue : m.txQueue.toList = taken ++ m'.txQueue.toList
  idle : taken = [] → m' = m
  packet : ∀ first ∈ taken.head?, ∃ payload octets written,
    m'.protocol.packets =
      m.protocol.packets ++ [.frame first.address.toUInt8 payload octets written] ∧
    payload.length ≤ maxLayer2DataSize ∧
    (written.isSome ↔ bus.getTxFree m.protocol.lower > octets.length) ∧
    ∀ receiver : DataIOLayer2, receiver.state = .stWait →
      receiver.station.Mine first.address.toUInt8 →
      Decodes bus.layer2 receiver octets first.address (numbered m.sn taken)
  waits : m'.state = .stWaitAnswer ↔ ∃ rq ∈ taken, rq.Asks

/-- The address in the frame, for an address of eight bits. -/
theorem getD_dest {address : UInt16} (h : address.toNat < 2 ^ 8) (srcAddress : UInt8) :
    (dest address).getD srcAddress = address.toUInt8 := by
  have hlow : address ≠ 0xFFFF := by
    rintro rfl
    exact absurd h (by decide)
  rw [dest, if_neg hlow, Option.getD_some]

/-- The messages of requests that fit carry them. -/
theorem forall₂_carries {rqs : List TTxRequest} (hok : ∀ rq ∈ rqs, rq.Ok)
    (hfits : ∀ rq ∈ rqs, rq.Fits) (reserved sn : UInt8) :
    List.Forall₂ (fun x msg => x.1.Carries x.2 msg) (numbered sn rqs)
      (messages reserved sn rqs) := by
  rw [messages, List.forall₂_map_right_iff, List.forall₂_same]
  intro x hx
  have hmem := mem_of_mem_numbered hx
  exact TTxRequest.carries_octets (hok x.1 hmem) (hfits x.1 hmem) x.2 reserved

/-- **The frame of a filled packet** decodes to the requests it was filled with. -/
theorem decodes_octets {p : TProtocolInstance τ} {taken : List TTxRequest}
    (hok : ∀ rq ∈ taken, rq.Ok) (hfits : ∀ rq ∈ taken, rq.Fits) (hne : taken ≠ [])
    {address : UInt16} (haddress : address.toNat < 2 ^ 8) (h : p.layer3.Fits) {reserved sn : UInt8}
    (hpayload : p.layer3.payload = (messages reserved sn taken).flatten)
    {receiver : DataIOLayer2} (hwait : receiver.state = .stWait)
    (hmine : receiver.station.Mine address.toUInt8) :
    Decodes bus.layer2 receiver (p.octets bus.toLower (dest address)) address
      (numbered sn taken) := by
  obtain ⟨as, has⟩ := exists_messages hok reserved sn
  have hcount : as.length = (numbered sn taken).length := by
    rw [← List.length_map (f := Message.bytes), has, messages, List.length_map]
  have hne' : as ≠ [] := by
    rintro rfl
    rw [length_numbered] at hcount
    exact hne (List.length_eq_zero_iff.1 hcount.symm)
  rw [← has] at hpayload
  have hidx : p.layer3.txIndex = (as.map Message.bytes).flatten.length := by
    rw [← hpayload, Layer3Tx.payload, Mem.length_read]
  have hwide : address.toUInt8.toUInt16 = address := by
    apply UInt16.toNat_inj.1
    rw [UInt8.toNat_toUInt16, UInt16.toNat_toUInt8]
    omega
  obtain ⟨hlen, hrcs, hrx⟩ := deliver_messages bus.layer2 receiver address.toUInt8 h hne' hidx
    hpayload hwait hmine
  rw [hlen] at hrcs hrx
  rw [TProtocolInstance.octets, getD_dest haddress]
  refine ⟨hrcs, fun rx => ?_, messages reserved sn taken, forall₂_carries hok hfits reserved sn,
    fun rx fuel hfuel => ?_⟩
  · rw [(hrx rx).1, hwide]
  · rw [← has]
    exact (hrx rx).2.2 fuel (hcount ▸ hfuel)

/-- The requests that a packet is filled with are the longest batch. -/
theorem fill_batch {rqs : List TTxRequest} (hqueue : m.txQueue.toList = rq :: rqs)
    (hok : ∀ rq' ∈ rq :: rqs, rq'.Ok)
    (hlimit : m.protocol.layer3.maxTxAppSize = maxLayer2DataSize) :
    (m.fill bus rq).2 = (batch (rq :: rqs)).foldl (take bus) (m.begun rq.address) ∧
      ∀ rq' ∈ batch (rq :: rqs), rq'.Ok := by
  obtain ⟨hfilled, -⟩ := fill_spec bus hqueue hok hlimit
  obtain ⟨taken, hrest, hfill⟩ := fill_foldl bus hqueue
  have htaken : taken = batch (rq :: rqs) :=
    List.append_cancel_right (hrest.symm.trans hfilled.queue)
  have hbegins : batch (rq :: rqs) <+: rq :: rqs := (longest_batch (rq :: rqs)).begins
  exact ⟨htaken ▸ hfill, fun rq' h => hok rq' (hbegins.subset h)⟩

/-- The packet when it is filled. -/
theorem payload_fill {rqs : List TTxRequest} (hqueue : m.txQueue.toList = rq :: rqs)
    (hok : ∀ rq' ∈ rq :: rqs, rq'.Ok)
    (hlimit : m.protocol.layer3.maxTxAppSize = maxLayer2DataSize) :
    (m.fill bus rq).2.protocol.layer3.payload =
      (messages (bus.reserved m.protocol.lower) m.sn (batch (rq :: rqs))).flatten := by
  obtain ⟨hfill, htaken⟩ := fill_batch bus hqueue hok hlimit
  have hbegins : batch (rq :: rqs) <+: rq :: rqs := (longest_batch (rq :: rqs)).begins
  obtain ⟨-, hlt⟩ := payloadSize_batch hok
  have hmax : (m.begun rq.address).protocol.layer3.maxTxAppSize = 244 := hlimit
  have hzero : (m.begun rq.address).protocol.layer3.txIndex = 0 := rfl
  rw [maxTxSize] at hlt
  have hpayload := payload_foldl_take bus (m := m.begun rq.address) htaken (hqueue ▸ hbegins)
    (by rw [hmax, hzero]; omega) (by rw [hmax]; decide)
  rw [hfill, hpayload]
  rfl

/-- The packet of a call of `process`: a frame of what it was filled with. -/
theorem packets_process {rqs : List TTxRequest} (hstate : m.state = .stReadyToTx)
    (hfree : bus.getTxFree m.protocol.lower ≠ 0) (hqueue : m.txQueue.toList = rq :: rqs)
    (hok : ∀ rq' ∈ rq :: rqs, rq'.Ok)
    (hlimit : m.protocol.layer3.maxTxAppSize = maxLayer2DataSize) (now : UInt32) :
    ∃ written, (written.isSome ↔ (m.fill bus rq).2.protocol.Room bus.toLower) ∧
      (m.process bus now).protocol.packets = m.protocol.packets ++
        [.frame ((dest rq.address).getD (m.fill bus rq).2.protocol.srcAddress.toUInt8)
          (m.fill bus rq).2.protocol.layer3.payload
          ((m.fill bus rq).2.protocol.octets bus.toLower (dest rq.address)) written] := by
  obtain ⟨hfilled, -⟩ := fill_spec bus hqueue hok hlimit
  obtain ⟨hpos, hlt⟩ := payloadSize_batch hok
  rw [maxTxSize] at hlt
  have hdest : (m.fill bus rq).2.address = rq.address := hfilled.address
  have hindex : (m.fill bus rq).2.protocol.layer3.txIndex = payloadSize (batch (rq :: rqs)) := by
    rw [hfilled.index]
    exact Nat.zero_add _
  obtain ⟨n, written, layer3, lower, hwritten, -, -, hsend⟩ :=
    send_spec bus (m := (m.fill bus rq).2) (by rw [hindex]; exact hpos) (by rw [hindex]; omega)
  rw [hdest, hfilled.packets] at hsend
  refine ⟨written, hwritten, ?_⟩
  rw [process_eq bus hstate hfree hqueue hok hlimit, hsend]
  rfl

/-- The frame that is passed down, in any state with requests that are as they should be. -/
theorem packet_of_ok {rqs : List TTxRequest} (hstate : m.state = .stReadyToTx)
    (hfree : bus.getTxFree m.protocol.lower ≠ 0) (hqueue : m.txQueue.toList = rq :: rqs)
    (hok : ∀ rq' ∈ rq :: rqs, rq'.Ok) (hfits : ∀ rq' ∈ rq :: rqs, rq'.Fits)
    (hlimit : m.protocol.layer3.maxTxAppSize = maxLayer2DataSize) (now : UInt32) :
    ∃ payload octets written,
      (m.process bus now).protocol.packets =
        m.protocol.packets ++ [.frame rq.address.toUInt8 payload octets written] ∧
      payload.length ≤ maxLayer2DataSize ∧
      (written.isSome ↔ bus.getTxFree m.protocol.lower > octets.length) ∧
      ∀ receiver : DataIOLayer2, receiver.state = .stWait →
        receiver.station.Mine rq.address.toUInt8 →
        Decodes bus.layer2 receiver octets rq.address (numbered m.sn (batch (rq :: rqs))) := by
  obtain ⟨hfilled, -⟩ := fill_spec bus hqueue hok hlimit
  obtain ⟨hpos, hlt⟩ := payloadSize_batch hok
  rw [maxTxSize] at hlt
  have hbegins : batch (rq :: rqs) <+: rq :: rqs := (longest_batch (rq :: rqs)).begins
  have haddress := (hfits rq List.mem_cons_self).address_lt
  have hindex : (m.fill bus rq).2.protocol.layer3.txIndex = payloadSize (batch (rq :: rqs)) := by
    rw [hfilled.index]
    exact Nat.zero_add _
  have hmax : (m.fill bus rq).2.protocol.layer3.maxTxAppSize = maxLayer2DataSize :=
    hfilled.limit.trans hlimit
  have hbounds : (m.fill bus rq).2.protocol.layer3.Fits := by
    refine ⟨?_, hmax.le⟩
    rw [hindex, hmax, maxLayer2DataSize]
    omega
  obtain ⟨written, hwritten, hpackets⟩ := packets_process bus hstate hfree hqueue hok hlimit now
  rw [getD_dest haddress] at hpackets
  refine ⟨_, _, written, hpackets, ?_, ?_, fun receiver hwait hmine => ?_⟩
  · rw [Layer3Tx.payload, Mem.length_read]
    exact hbounds.index_le.trans hmax.le
  · rw [hwritten, TProtocolInstance.Room, hfilled.lower, TProtocolInstance.octets, Mem.length_read]
    rfl
  · exact decodes_octets bus (fun rq' h => hok rq' (hbegins.subset h))
      (fun rq' h => hfits rq' (hbegins.subset h)) (fun hnil => hpos (by rw [hnil]; rfl)) haddress
      hbounds (payload_fill bus hqueue hok hlimit) hwait hmine

/-- The same for the whole call. -/
theorem assembled_of_ok (hstate : m.state = .stReadyToTx)
    (hfree : bus.getTxFree m.protocol.lower ≠ 0) (hok : ∀ rq ∈ m.txQueue.toList, rq.Ok)
    (hfits : ∀ rq ∈ m.txQueue.toList, rq.Fits)
    (hlimit : m.protocol.layer3.maxTxAppSize = maxLayer2DataSize) (now : UInt32) :
    Assembled bus m (m.process bus now) (batch m.txQueue.toList) := by
  have hlong := longest_batch m.txQueue.toList
  cases hqueue : m.txQueue.toList with
  | nil =>
    have hidle : m.process bus now = m := by
      rw [process, hstate]
      dsimp only
      rw [if_pos hfree, TQueue.front_eq, hqueue]
      rfl
    rw [hqueue] at hlong
    rw [hidle]
    exact
      { longest := hqueue ▸ hlong
        queue := rfl
        idle := fun _ => rfl
        packet := by simp [batch]
        waits := by simp [batch, hstate] }
  | cons rq rqs =>
    rw [hqueue] at hok hfits hlong
    have hready := process_ready bus hstate hfree hqueue hok hlimit now
    refine ⟨hqueue ▸ hlong, hready.queue, fun hnil => ?_, fun first hfirst => ?_, ?_⟩
    · exact absurd (congrArg payloadSize hnil) (payloadSize_batch hok).1
    · obtain rfl : rq = first := Option.some.inj hfirst
      exact packet_of_ok bus hstate hfree hqueue hok hfits hlimit now
    · rw [hready.state]
      split_ifs with hasks
      · simpa using hasks
      · simpa using hasks

end TMasterTx

namespace Line

section Assembles

variable {τ : Type*} (bus : LocalBus τ) (address srcAddress : UInt16) (layer3 : Layer3Tx)
  (lower : τ) (cells : ℕ → TTxRequest) (T E : UInt32) (time : ℕ)

/-- **Packet assembly.** In every state that any run leads to, with the machine ready to transmit,
some room in layer 1 and requests in the queue whose fields fit the frame and the messages, a call
of `process` takes the longest beginning of the queue the rule allows and passes down one frame of
it, which decodes to the requests taken. -/
theorem process_assembles (es : List (Event τ)) {s : Line τ}
    (hs : s = Run.final (step bus) (init address srcAddress layer3 lower cells T E time) es)
    (hstate : s.master.state = .stReadyToTx) (hfree : bus.getTxFree s.master.protocol.lower ≠ 0)
    (hfits : ∀ rq ∈ s.master.txQueue.toList, rq.Fits) :
    ∃ taken, TMasterTx.Assembled bus s.master (step bus s .process).master taken := by
  have hok : s.Ok T E := hs ▸ ok_final bus address srcAddress layer3 lower cells T E time es
  exact ⟨_, TMasterTx.assembled_of_ok bus hstate hfree hok.requests hfits hok.limit (tick s.time)⟩

end Assembles

/-- A read that asks for an answer, a write and an application message for one slave, and a request
for another one. -/
def fourRequests : List (Event ℕ) :=
  [.addTxMsgRead 1 5 fRqAnswer linkIdLocal, .addTxMsgWrite 1 7 42 0 linkIdLocal,
    .addTxMsgApp 1 0x11 2 3 0 linkIdLocal, .addTxMsgReadBlock 2 0 5 0 linkIdLocal]

theorem process_assembles_four :
    ∃ taken, TMasterTx.Assembled uart (Run.final (step uart) (fresh 1000) fourRequests).master
      (step uart (Run.final (step uart) (fresh 1000) fourRequests) .process).master taken :=
  process_assembles uart 0 0 ⟨fun _ => 0, 0, 0⟩ 1000 (fun _ => ⟨0, 0, 0, 0, 0⟩) 20 2 0 fourRequests
    rfl rfl (by decide) (by decide +kernel)

end Line

end KS3.Protocol
