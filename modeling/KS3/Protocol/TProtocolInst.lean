import KS3.DataIO.RoundTrip

/-!
# `TProtocolInstance`: filling and sending packets

The transmitting side of `TProtocolInstance` and of `TProtocolInstance_AppPackets`: messages are
added to one packet, which is sent as a frame of layer 2 through the interface of layer 1
(`LINK_ID_0`) or without a frame through the handler `processTxAppData` (`LINK_ID_1`). When a
message does not fit, `TProtocol::addMessage` has the packet sent and tries once more.

`TProtocolInstance` is the instance whose link is always `LINK_ID_0`. What lies below is a
parameter that acts on a state of its own. The model keeps a note of every `memcpy` to the packet
and of every packet that is sent or refused.

`sendPacket_cases` is what `sendPacket` does, and `addMessage3_eq` what `addMessage` of layer 3 does
with a message whose size does not wrap.
-/

namespace KS3.Protocol

open DataIO

/-! ## Data -/

/-- `LINK_ID_0` and `LINK_ID_1`. -/
inductive LinkId
  | linkId0
  | linkId1
  deriving DecidableEq

/-- What an instance is connected to, with the state it acts on: the receiver, whose address is in
each frame, the interface of layer 1, and the handler of packets without a frame if one is
installed. -/
structure Lower (τ : Type*) where
  layer2 : DataIOLayer2
  getTxFree : τ → ℕ
  write : List UInt8 → τ → ℕ × τ
  processTxAppData : Option (List UInt8 → τ → ℤ × τ)

/-- A packet that was passed down: a frame with its destination, its octets and what `write`
returned, or `none` if there was no room for it; or a packet without a frame, and what the handler
returned. -/
inductive Packet
  | frame (dest : UInt8) (payload octets : List UInt8) (written : Option ℕ)
  | datagram (payload : List UInt8) (rc : ℤ)

/-- A `memcpy` to `Packet.data`: its first index, its length and `maxTxAppSize` at the time. -/
structure Copy where
  index : ℕ
  length : ℕ
  limit : ℕ

/-- The data members of `TProtocolInstance_AppPackets` that transmission uses, with those of its
`TProtocol`, and the state of what lies below; behind them, the copies made and the packets passed
down so far. -/
structure TProtocolInstance (τ : Type*) where
  layer3 : Layer3Tx
  srcAddress : UInt16
  linkID : LinkId
  lower : τ
  copies : List Copy
  packets : List Packet

namespace Packet

/-- The messages in a packet. -/
def payload : Packet → List UInt8
  | .frame _ payload _ _ => payload
  | .datagram payload _ => payload

/-- What `sendPacket` returns for it. -/
def result : Packet → ℕ
  | .frame _ _ _ written => written.getD 0
  | .datagram _ rc => rc.toNat

end Packet

namespace TProtocolInstance

variable {τ : Type*} (low : Lower τ)

/-! ## The operations -/

/-- `startTxPacket`; the packet is always the same buffer. -/
def startTxPacket (p : TProtocolInstance τ) : TProtocolInstance τ :=
  { p with layer3 := p.layer3.startTxPacket p.layer3.txPacket }

/-- `setPayload`. -/
def setPayload (p : TProtocolInstance τ) (size : UInt16) : TProtocolInstance τ :=
  { p with layer3 := p.layer3.setTxAppSize size }

/-- `finishTxPacket`, to the given address or to the source of the last packet. -/
def finishTxPacket (p : TProtocolInstance τ) (dest : Option UInt8) :
    ℕ × TProtocolInstance τ :=
  let (n, layer3) := p.layer3.finishTxPacket low.layer2 (dest.getD p.srcAddress.toUInt8)
  (n, { p with layer3 := layer3 })

/-- `TProtocolInstance::sendPacket`. -/
def sendFrame (p : TProtocolInstance τ) (dest : Option UInt8) : ℕ × TProtocolInstance τ :=
  let payload := p.layer3.payload
  let (n, p) := p.finishTxPacket low dest
  let packet := Packet.frame (dest.getD p.srcAddress.toUInt8) payload (p.layer3.txPacket.read 0 n)
  if n ≠ 0 ∧ low.getTxFree p.lower > n then
    let (rc, lower) := low.write (p.layer3.txPacket.read 0 n) p.lower
    (rc, { p with lower := lower, packets := p.packets ++ [packet (some rc)] })
  else if n ≠ 0 then
    (0, { p with packets := p.packets ++ [packet none] })
  else
    (0, p)

/-- `TProtocolInstance_AppPackets::sendPacket`. -/
def sendPacket (p : TProtocolInstance τ) (dest : Option UInt8) : ℕ × TProtocolInstance τ :=
  match p.linkID with
  | .linkId0 => p.sendFrame low dest
  | .linkId1 =>
    if p.layer3.txIndex ≠ 0 then
      match low.processTxAppData with
      | some processTxAppData =>
        let (rc, lower) := processTxAppData p.layer3.payload p.lower
        let p := { p with
          lower := lower
          packets := p.packets ++ [Packet.datagram p.layer3.payload rc] }
        (if rc > 0 then rc.toNat else 0, p.startTxPacket)
      | none => (0, p)
    else
      (0, p)

/-- `layer3->addMessage`. -/
def addMessage3 (p : TProtocolInstance τ) (msg data : Mem) : ℤ × TProtocolInstance τ :=
  let out := p.layer3.addMessage msg data
  (out.rc,
    { p with
      layer3 := out.tx
      copies := p.copies ++ out.copies.map fun c => ⟨c.1, c.2, p.layer3.maxTxAppSize⟩ })

/-- `onTxBufferFull` and `onEndRxPacketProcess`. -/
def sendPending (p : TProtocolInstance τ) : TProtocolInstance τ :=
  if p.layer3.txIndex ≠ 0 then (p.sendPacket low none).2 else p

/-- `TProtocol::addMessage`. -/
def addMessage (p : TProtocolInstance τ) (msg data : Mem) : ℤ × TProtocolInstance τ :=
  let (rc, q) := p.addMessage3 msg data
  if rc = -1 then (q.sendPending low).addMessage3 msg data else (rc, q)

/-! ## The limit

No operation but `setPayload` changes the limit of the packet. -/

theorem maxTxAppSize_layer3_addMessage (t : Layer3Tx) (msg data : Mem) :
    (t.addMessage msg data).tx.maxTxAppSize = t.maxTxAppSize := by
  rw [Layer3Tx.addMessage]
  split_ifs
  · rw [Layer3Tx.addAppMessage]
    split_ifs <;> rfl
  · split
    · rfl
    · split_ifs <;> rfl

@[simp] theorem maxTxAppSize_addMessage3 (p : TProtocolInstance τ) (msg data : Mem) :
    (p.addMessage3 msg data).2.layer3.maxTxAppSize = p.layer3.maxTxAppSize :=
  maxTxAppSize_layer3_addMessage ..

@[simp] theorem maxTxAppSize_finishTxPacket (p : TProtocolInstance τ) (dest : Option UInt8) :
    (p.finishTxPacket low dest).2.layer3.maxTxAppSize = p.layer3.maxTxAppSize := by
  simp only [finishTxPacket, Layer3Tx.finishTxPacket]
  split_ifs <;> rfl

@[simp] theorem maxTxAppSize_sendPacket (p : TProtocolInstance τ) (dest : Option UInt8) :
    (p.sendPacket low dest).2.layer3.maxTxAppSize = p.layer3.maxTxAppSize := by
  rw [sendPacket]
  split
  · rw [sendFrame]
    dsimp only
    split_ifs <;> exact maxTxAppSize_finishTxPacket low p dest
  · split_ifs
    · split <;> rfl
    · rfl

@[simp] theorem maxTxAppSize_sendPending (p : TProtocolInstance τ) :
    (p.sendPending low).layer3.maxTxAppSize = p.layer3.maxTxAppSize := by
  rw [sendPending]
  split_ifs
  · exact maxTxAppSize_sendPacket low p none
  · rfl

@[simp] theorem maxTxAppSize_addMessage (p : TProtocolInstance τ) (msg data : Mem) :
    (p.addMessage low msg data).2.layer3.maxTxAppSize = p.layer3.maxTxAppSize := by
  rw [addMessage]
  dsimp only
  split_ifs
  · rw [maxTxAppSize_addMessage3, maxTxAppSize_sendPending, maxTxAppSize_addMessage3]
  · rw [maxTxAppSize_addMessage3]

/-! ## What they do -/

variable {p : TProtocolInstance τ}

theorem word_finishTxPacket (l : DataIOLayer2) (dest : UInt8) (m : Mem) :
    (l.finishTxPacket dest m).word 4 = m.word 4 := by
  have hbelow : ∀ k, 4 ≤ k → k < 6 → l.finishTxPacket dest m k = m k := fun k h₄ h₆ => by
    rw [DataIOLayer2.finishTxPacket, Mem.write_of_lt _ (by omega), Mem.write_of_lt _ (by omega)]
    exact addressed_of_le l dest m h₄
  rw [Mem.word, Mem.word, hbelow 4 (by omega) (by omega), hbelow (4 + 1) (by omega) (by omega)]

/-- A packet that is finished: its length is returned, and it is empty again. -/
theorem finishTxPacket_eq {t : Layer3Tx} (l : DataIOLayer2) (dest : UInt8)
    (hpos : t.txIndex ≠ 0) (hlt : t.txIndex + 10 < 2 ^ 16) :
    ∃ txPacket, t.finishTxPacket l dest = (10 + t.txIndex, ⟨txPacket, 0, t.maxTxAppSize⟩) := by
  rw [Layer3Tx.finishTxPacket, if_pos hpos]
  refine ⟨_, Prod.ext ?_ rfl⟩
  simp only [word_finishTxPacket, Mem.word_write, sizeofLR2Header, UInt16.toNat_ofNat']
  omega

variable (p)

/-- The octets of the packet as a frame. -/
def octets (dest : Option UInt8) : List UInt8 :=
  (p.layer3.finishTxPacket low.layer2 (dest.getD p.srcAddress.toUInt8)).2.txPacket.read 0
    (10 + p.layer3.txIndex)

/-- There is room for the packet as a frame in layer 1. -/
def Room : Prop := low.getTxFree p.lower > 10 + p.layer3.txIndex

instance : Decidable (p.Room low) := inferInstanceAs (Decidable (_ > _))

/-- What `sendPacket` passes down, and the state of what lies below after it. -/
def outgoing (dest : Option UInt8) : Option (Packet × τ) :=
  if p.layer3.txIndex = 0 then none
  else
    match p.linkID with
    | .linkId0 =>
      let written := low.write (p.octets low dest) p.lower
      some (.frame (dest.getD p.srcAddress.toUInt8) p.layer3.payload (p.octets low dest)
          (if p.Room low then some written.1 else none),
        if p.Room low then written.2 else p.lower)
    | .linkId1 => low.processTxAppData.map fun processTxAppData =>
      (.datagram p.layer3.payload (processTxAppData p.layer3.payload p.lower).1,
        (processTxAppData p.layer3.payload p.lower).2)

variable {p}

/-- A packet that is passed down is not empty, and is a frame or goes to the handler. -/
theorem outgoing_cases {dest : Option UInt8} {packet : Packet} {lower : τ}
    (h : p.outgoing low dest = some (packet, lower)) :
    p.layer3.txIndex ≠ 0 ∧
    (p.linkID = .linkId0 ∧
      packet = .frame (dest.getD p.srcAddress.toUInt8) p.layer3.payload (p.octets low dest)
        (if p.Room low then some (low.write (p.octets low dest) p.lower).1 else none) ∨
    p.linkID = .linkId1 ∧ ∃ processTxAppData, low.processTxAppData = some processTxAppData ∧
      packet = .datagram p.layer3.payload (processTxAppData p.layer3.payload p.lower).1) := by
  by_cases hzero : p.layer3.txIndex = 0
  · rw [outgoing, if_pos hzero] at h
    cases h
  refine ⟨hzero, ?_⟩
  rw [outgoing, if_neg hzero] at h
  cases hlink : p.linkID with
  | linkId0 =>
    simp only [hlink, Option.some.injEq, Prod.mk.injEq] at h
    exact .inl ⟨rfl, h.1.symm⟩
  | linkId1 =>
    simp only [hlink] at h
    obtain ⟨processTxAppData, hsome, h⟩ := Option.map_eq_some_iff.1 h
    exact .inr ⟨rfl, processTxAppData, hsome, (Prod.mk.inj h).1.symm⟩

theorem payload_outgoing {dest : Option UInt8} {packet : Packet} {lower : τ}
    (h : p.outgoing low dest = some (packet, lower)) : packet.payload = p.layer3.payload := by
  obtain ⟨-, ⟨-, rfl⟩ | ⟨-, _, -, rfl⟩⟩ := outgoing_cases low h
  · rfl
  · rfl

/-- A packet that cannot be passed down: it is for the handler, and there is none. -/
def Stuck (p : TProtocolInstance τ) : Prop := p.linkID = .linkId1 ∧ low.processTxAppData = none

theorem outgoing_eq_none {dest : Option UInt8} :
    p.outgoing low dest = none ↔ p.layer3.txIndex = 0 ∨ p.Stuck low := by
  by_cases hzero : p.layer3.txIndex = 0
  · exact iff_of_true (if_pos hzero) (.inl hzero)
  · rw [outgoing, if_neg hzero, or_iff_right hzero, Stuck]
    cases hlink : p.linkID with
    | linkId0 => simp
    | linkId1 => simp

theorem sendPacket_of_empty (h : p.layer3.txIndex = 0) (dest : Option UInt8) :
    p.sendPacket low dest = (0, p) := by
  unfold sendPacket
  split
  · have hfinish : p.layer3.finishTxPacket low.layer2 (dest.getD p.srcAddress.toUInt8) =
        (0, p.layer3) := if_neg (not_not.2 h)
    simp [sendFrame, finishTxPacket, hfinish]
  · rw [if_neg (not_not.2 h)]

/-- A packet that is sent as a frame. -/
theorem sendFrame_eq (hpos : p.layer3.txIndex ≠ 0) (hlt : p.layer3.txIndex + 10 < 2 ^ 16)
    (dest : Option UInt8) :
    ∃ txPacket, p.sendFrame low dest =
      if p.Room low then
        ((low.write (p.octets low dest) p.lower).1,
          { p with
            layer3 := ⟨txPacket, 0, p.layer3.maxTxAppSize⟩
            lower := (low.write (p.octets low dest) p.lower).2
            packets := p.packets ++ [.frame (dest.getD p.srcAddress.toUInt8) p.layer3.payload
              (p.octets low dest) (some (low.write (p.octets low dest) p.lower).1)] })
      else
        (0,
          { p with
            layer3 := ⟨txPacket, 0, p.layer3.maxTxAppSize⟩
            packets := p.packets ++ [.frame (dest.getD p.srcAddress.toUInt8) p.layer3.payload
              (p.octets low dest) none] }) := by
  obtain ⟨txPacket, hfinish⟩ := finishTxPacket_eq low.layer2 (dest.getD p.srcAddress.toUInt8)
    hpos hlt
  have hoctets : p.octets low dest = txPacket.read 0 (10 + p.layer3.txIndex) := by
    rw [octets, hfinish]
  refine ⟨txPacket, ?_⟩
  simp only [sendFrame, finishTxPacket, hfinish, ← hoctets]
  have hn : 10 + p.layer3.txIndex ≠ 0 := by omega
  by_cases hroom : p.Room low
  · rw [if_pos ⟨hn, hroom⟩, if_pos hroom]
  · rw [if_neg fun h => hroom h.2, if_pos hn, if_neg hroom]

/-- **What `sendPacket` does**: what it passes down is no longer in the packet, whatever the answer
is; when it passes nothing down, everything stays. -/
theorem sendPacket_cases (hlt : p.layer3.txIndex + 10 < 2 ^ 16) (dest : Option UInt8) :
    p.outgoing low dest = none ∧ p.sendPacket low dest = (0, p) ∨
    ∃ packet lower txPacket, p.outgoing low dest = some (packet, lower) ∧
      p.sendPacket low dest =
        (packet.result,
          { p with
            layer3 := ⟨txPacket, 0, p.layer3.maxTxAppSize⟩
            lower := lower
            packets := p.packets ++ [packet] }) := by
  by_cases hzero : p.layer3.txIndex = 0
  · exact .inl ⟨if_pos hzero, sendPacket_of_empty low hzero dest⟩
  rw [outgoing, if_neg hzero]
  cases hlink : p.linkID with
  | linkId0 =>
    obtain ⟨txPacket, hsend⟩ := sendFrame_eq low hzero hlt dest
    refine .inr ⟨_, _, txPacket, rfl, ?_⟩
    rw [sendPacket, hlink]
    simp only [hsend]
    by_cases hroom : p.Room low
    · simp only [if_pos hroom]
      rw [Packet.result, Option.getD_some, ← hlink]
    · simp only [if_neg hroom]
      rw [Packet.result, Option.getD_none, ← hlink]
  | linkId1 =>
    rw [sendPacket, hlink]
    simp only [if_pos hzero]
    rcases low.processTxAppData with _ | processTxAppData
    · exact .inl ⟨rfl, rfl⟩
    · refine .inr ⟨_, _, p.layer3.txPacket, rfl, Prod.ext ?_ rfl⟩
      rw [Packet.result]
      dsimp only
      split_ifs <;> omega

/-! ## Adding messages -/

/-- A message that is not known leaves everything as it is. -/
theorem addMessage3_unknown {msg : Mem} (h : messageSize msg = none) (data : Mem) :
    p.addMessage3 msg data = (-2, p) := by
  simp only [addMessage3, Layer3Tx.addMessage_unknown h, List.map_nil, List.append_nil]

/-- **What `layer3->addMessage` does** with a known message whose size does not wrap: it is appended
inside the limit, or refused. -/
theorem addMessage3_eq (h : p.layer3.InBounds) {msg : Mem} {size : ℕ}
    (hsize : messageSize msg = some size) (hw : ¬ Layer3Tx.Wraps msg) (data : Mem) :
    ∃ copies : List Copy, (∀ c ∈ copies, c.index + c.length ≤ p.layer3.txIndex + size ∧
        c.limit = p.layer3.maxTxAppSize) ∧
      p.addMessage3 msg data =
        if p.layer3.txIndex + size ≤ p.layer3.maxTxAppSize then
          (0, { p with
            layer3 := p.layer3.append (encoded msg data)
            copies := p.copies ++ copies })
        else (-1, p) := by
  obtain ⟨-, copies, hcopies, hadd⟩ := Layer3Tx.addMessage_eq h hsize hw data
  refine ⟨copies.map fun c => ⟨c.1, c.2, p.layer3.maxTxAppSize⟩, ?_, ?_⟩
  · intro c hc
    obtain ⟨c, hmem, rfl⟩ := List.mem_map.1 hc
    exact ⟨hcopies c hmem, rfl⟩
  · simp only [addMessage3, hadd]
    split_ifs with hroom
    · rfl
    · simp only [List.map_nil, List.append_nil]

/-- `layer3->addMessage` with a message whose size wraps. -/
theorem addMessage3_wraps (h : p.layer3.InBounds) {msg : Mem} (hw : Layer3Tx.Wraps msg)
    (data : Mem) :
    p.addMessage3 msg data =
      if p.layer3.txIndex + (appDataSize msg - 0xFFFA) ≤ p.layer3.maxTxAppSize then
        (0, { p with
          layer3 := (p.layer3.append (msg.read 0 sizeofTMsgAppTypeHeader)).append
            (data.read 0 (appDataSize msg))
          copies := p.copies ++
            [⟨p.layer3.txIndex, sizeofTMsgAppTypeHeader, p.layer3.maxTxAppSize⟩,
              ⟨(p.layer3.txIndex + sizeofTMsgAppTypeHeader) % 2 ^ 16, appDataSize msg,
                p.layer3.maxTxAppSize⟩] })
      else (-1, p) := by
  simp only [addMessage3, Layer3Tx.addMessage_wraps h hw]
  split_ifs with hroom
  · rfl
  · simp only [List.map_nil, List.append_nil]

/-- What `onTxBufferFull` does. -/
theorem sendPending_eq (p : TProtocolInstance τ) :
    p.sendPending low = (p.sendPacket low none).2 := by
  rw [sendPending]
  split_ifs with hzero
  · rfl
  · rw [sendPacket_of_empty low (not_not.1 hzero)]

/-- `onTxBufferFull` empties the packet unless it is stuck, and then leaves everything. -/
theorem sendPending_cases (hlt : p.layer3.txIndex + 10 < 2 ^ 16) :
    p.Stuck low ∧ p.sendPending low = p ∨
    ¬ p.Stuck low ∧ (p.sendPending low).layer3.txIndex = 0 := by
  rw [sendPending_eq]
  rcases sendPacket_cases low hlt none with ⟨hout, hsend⟩ | ⟨packet, lower, txPacket, hout, hsend⟩
  · by_cases hstuck : p.Stuck low
    · exact .inl ⟨hstuck, by rw [hsend]⟩
    · have hzero := ((outgoing_eq_none low).1 hout).resolve_right hstuck
      exact .inr ⟨hstuck, by rw [hsend, hzero]⟩
  · refine .inr ⟨fun hstuck => ?_, by rw [hsend]⟩
    rw [(outgoing_eq_none low).2 (.inr hstuck)] at hout
    cases hout

theorem addMessage_of_ne {msg data : Mem} (h : (p.addMessage3 msg data).1 ≠ -1) :
    p.addMessage low msg data = p.addMessage3 msg data := if_neg h

/-- `TProtocol::addMessage` tries once more when the packet is full. -/
theorem addMessage_of_full {msg data : Mem} (h : p.addMessage3 msg data = (-1, p)) :
    p.addMessage low msg data = (p.sendPending low).addMessage3 msg data := by
  simp only [addMessage, h, if_true]

/-- `addMessage` for an empty packet: a message that does not fit is refused the second time too. -/
theorem addMessage_of_empty (h : p.layer3.InBounds) (hempty : p.layer3.txIndex = 0) {msg : Mem}
    {size : ℕ} (hsize : messageSize msg = some size) (hw : ¬ Layer3Tx.Wraps msg) (data : Mem) :
    ∃ copies : List Copy, p.addMessage low msg data =
      if size ≤ p.layer3.maxTxAppSize then
        (0, { p with
          layer3 := p.layer3.append (encoded msg data)
          copies := p.copies ++ copies })
      else (-1, p) := by
  obtain ⟨copies, -, hadd⟩ := addMessage3_eq h hsize hw data
  rw [hempty, Nat.zero_add] at hadd
  refine ⟨copies, ?_⟩
  split_ifs at hadd ⊢ with hroom
  · rw [addMessage_of_ne low (by rw [hadd]; exact (by decide : (0 : ℤ) ≠ -1)), hadd]
  · have hpending : p.sendPending low = p := if_neg (not_not.2 hempty)
    rw [addMessage_of_full low hadd, hpending, hadd]

end TProtocolInstance

end KS3.Protocol
