import KS3.Protocol.HiIo

/-!
# Replies

A write or a read of a parameter is answered by one `MsgParameterValue`, a write only if it is
neither broadcast nor numbered `0xFF`. The replies of a frame or datagram collect in the packet; a
full packet is sent on the way, and what is left at the end.

`Filling` says where the replies given so far are: in the packets sent, as whole messages, and then
in the packet being filled. `Filling.start`, `rxMessageHandler_filling` and `Filling.finish` are
what the three handlers do to it.
-/

namespace KS3.Protocol

open DataIO SlaveMsgHandlers

/-! ## Requests and their answers -/

/-- A `TMsgParameterWrite` or a `TMsgParameterRead`. -/
inductive Query
  | write (sequenceNumber : UInt8) (parameterNumber : UInt16) (parameterValue : UInt32)
  | read (sequenceNumber : UInt8) (parameterNumber : UInt16)

namespace Query

/-- The octets of a request. -/
def bytes : Query → List UInt8
  | .write sequenceNumber parameterNumber parameterValue =>
    [msgParameterWrite, sequenceNumber] ++ wordBytes parameterNumber ++
      wordBytes (loWord parameterValue) ++ wordBytes (hiWord parameterValue)
  | .read sequenceNumber parameterNumber =>
    [msgParameterRead, sequenceNumber] ++ wordBytes parameterNumber

/-- The request that a message is. -/
def ofMem (msg : Mem) : Option Query :=
  if msg 0 = msgParameterWrite then
    some (.write (msg 1) (msg.word 2) (ofWords (msg.word 4) (msg.word 6)))
  else if msg 0 = msgParameterRead then
    some (.read (msg 1) (msg.word 2))
  else
    none

theorem ofMem_bytes (q : Query) : ofMem (Mem.ofList q.bytes) = some q := by
  cases q with
  | write sequenceNumber parameterNumber parameterValue =>
    change some (Query.write sequenceNumber (ofBytes (loByte parameterNumber)
      (hiByte parameterNumber)) (ofWords
        (ofBytes (loByte (loWord parameterValue)) (hiByte (loWord parameterValue)))
        (ofBytes (loByte (hiWord parameterValue)) (hiByte (hiWord parameterValue))))) = _
    simp only [ofBytes_lo_hi, ofWords_loWord_hiWord]
  | read sequenceNumber parameterNumber =>
    change some (Query.read sequenceNumber (ofBytes (loByte parameterNumber)
      (hiByte parameterNumber))) = _
    rw [ofBytes_lo_hi]

/-- A request as a well-formed message. -/
def message (q : Query) : Message where
  bytes := q.bytes
  size_eq := by cases q <;> rfl
  header_le h := by
    cases q with
    | write => exact absurd (show msgParameterWrite = msgAppType from h) (by decide)
    | read => exact absurd (show msgParameterRead = msgAppType from h) (by decide)

/-- A read, or a write with a sequence number that asks for an answer. -/
def numbered : Query → Bool
  | .write sequenceNumber _ _ => sequenceNumber ≠ 0xFF
  | .read .. => true

/-- A request to the given address that is to be answered. -/
def needsReply (dest : UInt16) : Query → Bool
  | .write sequenceNumber _ _ => dest ≠ protocolBroadcastAddress ∧ sequenceNumber ≠ 0xFF
  | .read .. => true

theorem needsReply_of_ne {dest : UInt16} (h : dest ≠ protocolBroadcastAddress) :
    needsReply dest = numbered := by
  funext q
  cases q with
  | write => simp [needsReply, numbered, h]
  | read => rfl

/-- A reply to a request: a value with its sequence number and its parameter number, and for a write
with the value written. -/
def Answers : Query → List UInt8 → Prop
  | .write sequenceNumber parameterNumber parameterValue, reply => ∃ result reserved,
      reply = valueMessage sequenceNumber parameterNumber parameterValue result reserved
  | .read sequenceNumber parameterNumber, reply => ∃ parameterValue result reserved,
      reply = valueMessage sequenceNumber parameterNumber parameterValue result reserved

theorem Answers.eq_valueMessage {q : Query} {reply : List UInt8} (h : q.Answers reply) :
    ∃ sequenceNumber parameterNumber parameterValue result reserved,
      reply = valueMessage sequenceNumber parameterNumber parameterValue result reserved := by
  cases q with
  | write =>
    obtain ⟨result, reserved, rfl⟩ := h
    exact ⟨_, _, _, _, _, rfl⟩
  | read =>
    obtain ⟨parameterValue, result, reserved, rfl⟩ := h
    exact ⟨_, _, _, _, _, rfl⟩

/-- A reply as `addMessage` takes it: a message of 12 octets. -/
theorem Answers.message {q : Query} {reply : List UInt8} (h : q.Answers reply) (data : Mem) :
    reply.length = 12 ∧ messageSize (Mem.ofList reply) = some 12 ∧
      ¬ Layer3Tx.Wraps (Mem.ofList reply) ∧ encoded (Mem.ofList reply) data = reply := by
  obtain ⟨_, _, _, _, _, rfl⟩ := h.eq_valueMessage
  refine ⟨rfl, rfl, fun hw => ?_, rfl⟩
  have hid : msgParameterValue = msgAppType := hw.1
  exact absurd hid (by decide)

theorem ne_nil_of_answers {qs : List Query} {replies : List (List UInt8)}
    (h : List.Forall₂ Answers qs replies) : ∀ reply ∈ replies, reply ≠ [] := by
  induction h with
  | nil => simp
  | cons hq _ ih =>
    have hlen := (hq.message fun _ => 0).1
    refine List.forall_mem_cons.2 ⟨List.ne_nil_of_length_pos (by omega), ih⟩

end Query

/-- The request in a message, if it is to be answered. -/
def due (dest : UInt16) (msg : Mem) : Option Query :=
  (Query.ofMem msg).filter (Query.needsReply dest)

/-! ## Packets with replies -/

/-- A packet with the given replies, on the given link and for the given source: a frame of at most
254 octets that was written to layer 1 or found no room there, or a packet of at most 1472 octets
that was handed to the handler. -/
def Carries (link : LinkId) (src : UInt16) (replies : List (List UInt8)) (packet : Packet) : Prop :=
  replies ≠ [] ∧
    match link with
    | .linkId0 => ∃ (f : Frame) (written : Option ℕ), f.dest = src.toUInt8 ∧
        f.data = replies.flatten ∧ f.bytes.length ≤ 254 ∧
        packet = .frame f.dest f.data f.bytes written
    | .linkId1 => replies.flatten.length ≤ 1472 ∧ ∃ rc, packet = .datagram replies.flatten rc

section Filling

variable {τ : Type*} (dev : Device τ) {t : ProtocolType} {src : UInt16} {base : List Packet}
  {replies : List (List UInt8)} {p : TProtocolInstance τ}

/-- The replies given so far are in the packets sent and then in the packet being filled. -/
structure Filling (t : ProtocolType) (src : UInt16) (base : List Packet)
    (replies : List (List UInt8)) (p : TProtocolInstance τ) : Prop where
  limit_eq : p.layer3.maxTxAppSize = (HiIo.limit t).toNat
  link_eq : p.linkID = HiIo.link t
  index_le : p.layer3.txIndex ≤ p.layer3.maxTxAppSize
  progress : ∃ groups packets pending, p.packets = base ++ packets ∧
    List.Forall₂ (Carries (HiIo.link t) src) groups packets ∧
    p.layer3.payload = pending.flatten ∧ groups.flatten ++ pending = replies

theorem Filling.start (hlimit : p.layer3.maxTxAppSize = (HiIo.limit t).toNat)
    (hlink : p.linkID = HiIo.link t) : Filling t src p.packets [] p.startTxPacket where
  limit_eq := hlimit
  link_eq := hlink
  index_le := Nat.zero_le _
  progress := ⟨[], [], [], (List.append_nil _).symm, .nil, rfl, rfl⟩

/-- What `Filling` depends on. -/
theorem Filling.congr {q : TProtocolInstance τ} (h : Filling t src base replies p)
    (hlayer3 : q.layer3 = p.layer3) (hlink : q.linkID = p.linkID)
    (hpackets : q.packets = p.packets) : Filling t src base replies q where
  limit_eq := hlayer3 ▸ h.limit_eq
  link_eq := hlink.trans h.link_eq
  index_le := hlayer3 ▸ h.index_le
  progress := by
    rw [hlayer3, hpackets]
    exact h.progress

theorem HiIo.limit_bounds (t : ProtocolType) :
    12 ≤ (HiIo.limit t).toNat ∧ (HiIo.limit t).toNat ≤ 1472 := by
  cases t <;> decide

/-- A packet with whole replies that is passed down. -/
theorem Filling.carries (h : Filling t src base replies p) (hsrc : p.srcAddress = src)
    {group : List (List UInt8)} (hpayload : p.layer3.payload = group.flatten) {packet : Packet}
    {lower : τ} (hout : p.outgoing dev.toLower none = some (packet, lower)) :
    Carries (HiIo.link t) src group packet := by
  have hlen : p.layer3.payload.length = p.layer3.txIndex := Mem.length_read ..
  have hle := h.index_le
  rw [h.limit_eq] at hle
  obtain ⟨hpos, hcases⟩ := TProtocolInstance.outgoing_cases dev.toLower hout
  have hgroup : group ≠ [] := by
    rintro rfl
    rw [hpayload] at hlen
    exact hpos hlen.symm
  refine ⟨hgroup, ?_⟩
  rw [h.link_eq, Option.getD_none, hsrc] at hcases
  cases t with
  | kProtocolDataIo =>
    obtain ⟨-, rfl⟩ | ⟨hlink, -⟩ := hcases
    · have hfits : p.layer3.Fits := ⟨h.index_le, h.limit_eq.le⟩
      have hbytes : p.octets dev.toLower none =
          (p.layer3.frame dev.layer2 src.toUInt8 hfits).bytes := by
        rw [TProtocolInstance.octets, Option.getD_none, hsrc]
        exact (finishTxPacket_frame dev.layer2 src.toUInt8 hfits hpos).2
      refine ⟨p.layer3.frame dev.layer2 src.toUInt8 hfits, _, rfl, hpayload, ?_, by
        rw [hbytes]
        rfl⟩
      rw [Frame.length_bytes]
      exact Nat.add_le_add_right (Frame.size_le _) 10
    · cases hlink
  | kProtocolApp =>
    obtain ⟨hlink, -⟩ | ⟨-, processTxAppData, -, rfl⟩ := hcases
    · cases hlink
    · rw [hpayload] at hlen ⊢
      exact ⟨hlen.trans_le hle, _, rfl⟩

/-! ## One reply -/

/-- A reply for which there is room. -/
theorem Filling.add (h : Filling t src base replies p) {q : Query} {reply : List UInt8}
    (hq : q.Answers reply) (hroom : p.layer3.txIndex + 12 ≤ p.layer3.maxTxAppSize) (data : Mem) :
    (p.addMessage3 (Mem.ofList reply) data).1 = 0 ∧
      Filling t src base (replies ++ [reply]) (p.addMessage3 (Mem.ofList reply) data).2 := by
  obtain ⟨hlen, hsize, hw, hencoded⟩ := hq.message data
  have hlt : p.layer3.maxTxAppSize < 2 ^ 16 := h.limit_eq ▸ UInt16.toNat_lt _
  obtain ⟨copies, -, hadd⟩ := TProtocolInstance.addMessage3_eq ⟨h.index_le, hlt⟩ hsize hw data
  rw [hadd, if_pos hroom, hencoded]
  have hindex : (p.layer3.append reply).txIndex = p.layer3.txIndex + 12 := by
    rw [Layer3Tx.txIndex_append (by omega), hlen]
  have hpayload' : (p.layer3.append reply).payload = p.layer3.payload ++ reply :=
    Layer3Tx.payload_append (by omega)
  refine ⟨rfl, h.limit_eq, h.link_eq, hindex.trans_le hroom, ?_⟩
  obtain ⟨groups, packets, pending, hpackets, hgroups, hpayload, hreplies⟩ := h.progress
  refine ⟨groups, packets, pending ++ [reply], hpackets, hgroups, ?_, ?_⟩
  · rw [hpayload', hpayload, List.flatten_append, List.flatten_singleton]
  · rw [← hreplies, List.append_assoc]

variable (hhandler : dev.processTxAppData.isSome)

include hhandler in
/-- The packet is sent: nothing is pending then. -/
theorem Filling.flush (h : Filling t src base replies p) (hsrc : p.srcAddress = src) :
    Filling t src base replies (p.sendPending dev.toLower) ∧
      (p.sendPending dev.toLower).layer3.txIndex = 0 := by
  have hle := h.index_le.trans (h.limit_eq.le.trans (HiIo.limit_bounds t).2)
  rw [TProtocolInstance.sendPending_eq]
  rcases TProtocolInstance.sendPacket_cases dev.toLower (p := p) (by omega) none with
    ⟨hout, hsend⟩ | ⟨packet, lower, txPacket, hout, hsend⟩
  · rw [hsend]
    rcases (TProtocolInstance.outgoing_eq_none dev.toLower).1 hout with hzero | ⟨-, hnone⟩
    · exact ⟨h, hzero⟩
    · rw [hnone] at hhandler
      cases hhandler
  · rw [hsend]
    obtain ⟨groups, packets, pending, hpackets, hgroups, hpayload, hreplies⟩ := h.progress
    refine ⟨⟨h.limit_eq, h.link_eq, Nat.zero_le _, groups ++ [pending], packets ++ [packet], [], ?_,
      ?_, rfl, ?_⟩, rfl⟩
    · rw [hpackets, List.append_assoc]
    · exact List.rel_append hgroups (.cons (h.carries dev hsrc hpayload hout) .nil)
    · rw [List.append_nil, List.flatten_append, List.flatten_singleton, hreplies]

include hhandler in
/-- **A reply is never lost**: when the packet is full, it is sent first. -/
theorem Filling.addReply (h : Filling t src base replies p) (hsrc : p.srcAddress = src) {q : Query}
    {reply : List UInt8} (hq : q.Answers reply) :
    Filling t src base (replies ++ [reply]) (addReply dev p reply) := by
  by_cases hroom : p.layer3.txIndex + 12 ≤ p.layer3.maxTxAppSize
  · obtain ⟨hrc, hadd⟩ := h.add hq hroom fun _ => 0
    have hne : (p.addMessage3 (Mem.ofList reply) fun _ => 0).1 ≠ -1 := by
      rw [hrc]
      decide
    rw [SlaveMsgHandlers.addReply, TProtocolInstance.addMessage_of_ne dev.toLower hne]
    exact hadd
  · obtain ⟨-, hsize, hw, -⟩ := hq.message fun _ => 0
    have hlt : p.layer3.maxTxAppSize < 2 ^ 16 := h.limit_eq ▸ UInt16.toNat_lt _
    obtain ⟨copies, -, hadd⟩ := TProtocolInstance.addMessage3_eq ⟨h.index_le, hlt⟩ hsize hw
      fun _ => 0
    rw [if_neg hroom] at hadd
    obtain ⟨hflush, hzero⟩ := h.flush dev hhandler hsrc
    have hroom' : (p.sendPending dev.toLower).layer3.txIndex + 12 ≤
        (p.sendPending dev.toLower).layer3.maxTxAppSize := by
      rw [hzero, hflush.limit_eq]
      exact (HiIo.limit_bounds t).1
    rw [SlaveMsgHandlers.addReply, TProtocolInstance.addMessage_of_full dev.toLower hadd]
    exact (hflush.add hq hroom' fun _ => 0).2

include hhandler in
/-- What is pending is sent at the end. -/
theorem Filling.finish (h : Filling t src base replies p) (hsrc : p.srcAddress = src)
    (hne : ∀ reply ∈ replies, reply ≠ []) :
    (p.sendPending dev.toLower).layer3.maxTxAppSize = (HiIo.limit t).toNat ∧
      (p.sendPending dev.toLower).linkID = HiIo.link t ∧
      ∃ groups packets, (p.sendPending dev.toLower).packets = base ++ packets ∧
        List.Forall₂ (Carries (HiIo.link t) src) groups packets ∧ groups.flatten = replies := by
  obtain ⟨hflush, hzero⟩ := h.flush dev hhandler hsrc
  obtain ⟨groups, packets, pending, hpackets, hgroups, hpayload, hreplies⟩ := hflush.progress
  have hpending : pending = [] := by
    rw [Layer3Tx.payload, hzero, Mem.read_zero, eq_comm, List.flatten_eq_nil_iff] at hpayload
    refine List.eq_nil_iff_forall_not_mem.2 fun reply hmem => ?_
    exact hne reply (hreplies ▸ List.mem_append_right _ hmem) (hpayload reply hmem)
  rw [hpending, List.append_nil] at hreplies
  exact ⟨hflush.limit_eq, hflush.link_eq, groups, packets, hpackets, hgroups, hreplies⟩

/-! ## The handler of messages -/

/-- The message is a `MsgParameterWrite` or a `MsgParameterRead`. -/
def IsQuery (msg : Mem) : Prop := msg 0 = msgParameterWrite ∨ msg 0 = msgParameterRead

include hhandler in
theorem handleMsgPWrite_filling (h : Filling t src base replies p) (hsrc : p.srcAddress = src)
    (msg : Mem) (dest : UInt16) {q : Query}
    (hq : q = .write (msg 1) (msg.word 2) (ofWords (msg.word 4) (msg.word 6))) :
    ∃ new, List.Forall₂ Query.Answers ((some q).filter (Query.needsReply dest)).toList new ∧
      Filling t src base (replies ++ new) (handleMsgPWrite dev msg dest p) := by
  rcases hwrite : dev.writeParameter (msg.word 2) (ofWords (msg.word 4) (msg.word 6)) p.lower with
    ⟨result, lower⟩
  have h' : Filling t src base replies { p with lower := lower } := h.congr rfl rfl rfl
  simp only [handleMsgPWrite, hwrite]
  by_cases hreply : dest ≠ protocolBroadcastAddress ∧ msg 1 ≠ 0xFF
  · have hneeds : q.needsReply dest = true := by simp [hq, Query.needsReply, hreply]
    have hanswers : q.Answers (valueMessage (msg 1) (msg.word 2)
        (ofWords (msg.word 4) (msg.word 6)) (resultCode result) (dev.reserved lower)) := by
      rw [hq]
      exact ⟨_, _, rfl⟩
    rw [if_pos hreply, Option.filter_some, if_pos hneeds]
    exact ⟨_, .cons hanswers .nil, h'.addReply dev hhandler hsrc hanswers⟩
  · have hneeds : q.needsReply dest ≠ true := by simpa [hq, Query.needsReply] using hreply
    rw [if_neg hreply, Option.filter_some, if_neg hneeds]
    refine ⟨[], .nil, ?_⟩
    rwa [List.append_nil]

include hhandler in
theorem handleMsgPRead_filling (h : Filling t src base replies p) (hsrc : p.srcAddress = src)
    (msg : Mem) {q : Query} (hq : q = .read (msg 1) (msg.word 2)) :
    ∃ reply, q.Answers reply ∧
      Filling t src base (replies ++ [reply]) (handleMsgPRead dev msg p) := by
  rcases hread : dev.readParameter (msg.word 2) p.lower with ⟨result, v, lower⟩
  have h' : Filling t src base replies { p with lower := lower } := h.congr rfl rfl rfl
  have hanswers : q.Answers (valueMessage (msg 1) (msg.word 2) v (resultCode result)
      (dev.reserved lower)) := by
    rw [hq]
    exact ⟨_, _, _, rfl⟩
  simp only [handleMsgPRead, hread]
  exact ⟨_, hanswers, h'.addReply dev hhandler hsrc hanswers⟩

include hhandler in
/-- **Each request is answered as it is due**, and the reply is added to those before. -/
theorem rxMessageHandler_filling (h : Filling t src base replies p) (hsrc : p.srcAddress = src)
    {msg : Mem} (hmsg : IsQuery msg) (dest : UInt16) :
    ∃ new, List.Forall₂ Query.Answers (due dest msg).toList new ∧
      Filling t src base (replies ++ new) (rxMessageHandler dev msg dest src p) := by
  rcases hmsg with hid | hid
  · rw [rxMessageHandler, if_pos hid, due, Query.ofMem, if_pos hid]
    exact handleMsgPWrite_filling dev hhandler h hsrc msg dest rfl
  · have hne : msg 0 ≠ msgParameterWrite := by
      rw [hid]
      decide
    rw [rxMessageHandler, if_neg hne, if_pos hid, due, Query.ofMem, if_neg hne, if_pos hid]
    obtain ⟨reply, hanswers, hfilling⟩ := handleMsgPRead_filling dev hhandler h hsrc msg rfl
    exact ⟨[reply], .cons hanswers .nil, hfilling⟩

end Filling

end KS3.Protocol
