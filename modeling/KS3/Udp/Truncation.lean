import KS3.Protocol.HiIo
import KS3.Udp.Transmission

/-!
# Replies longer than a buffer

A reply to a datagram is packed under the limit that `processInputAppData` sets, 1472 octets, and
`sendPacket` passes the whole packet to `addTxData`. That copies it to a buffer of 1440 octets: of a
longer packet the rest is dropped, and what it returns is still a success. `Complete` says that
nothing is dropped and that the datagram is taken apart into the messages of the packet.

`reply_complete_iff`: a packet is queued as a whole exactly when it is not longer than a buffer, or
refused as a whole.
-/

namespace KS3.Udp

open Comm DataIO Protocol

/-! ## The reply path -/

/-- What lies below the instance of the upper link, with `addTxData` as the handler of packets
without a frame. -/
def overUdp (low : Lower UdpIo) (client : Option UInt32) : Lower UdpIo :=
  { low with processTxAppData := some fun data s => s.addTxData client data }

/-- Messages are added to an empty packet, under the limit and with the link that
`processInputAppData` sets. Those that do not fit are left out. -/
def pack {τ : Type*} (p : TProtocolInstance τ) (msgs : List (Mem × Mem)) : TProtocolInstance τ :=
  Run.final (fun p msg => (p.addMessage3 msg.1 msg.2).2)
    { (p.setPayload maxTxAppSizeDataIOApp).startTxPacket with linkID := .linkId1 } msgs

/-- `addTxData` takes nothing: the queue is full, or there is no buffer. -/
def UdpIo.Refuses (s : UdpIo) : Prop := s.txQueue.isFull = true ∨ s.udpBuffers.get.1 = none

/-- A datagram in the queue is a packet with all its messages. -/
structure Whole (s : UdpIo) (d : UdpData) (payload : List UInt8) : Prop where
  octets : s.memory.read d.buffer d.size = payload
  parses : ∀ msgs : List Message, payload = (msgs.map Message.bytes).flatten →
    ∃ fuel r, Layer3Rx.forMessages Layer3Rx.keepBytes fuel
      (Layer3Rx.setRxAppData (s.memory.shift d.buffer) (UInt16.ofNat d.size)) [] =
        some (-1, r, msgs.map Message.bytes)

/-- If `sendPacket` passes the packet to `addTxData` and is not refused, one datagram is added to
the queue, and it is the whole packet. -/
def Complete (low : Lower UdpIo) (client : Option UInt32) (p : TProtocolInstance UdpIo)
    (dest : Option UInt8) : Prop :=
  let p' := (p.sendPacket (overUdp low client) dest).2
  ∀ rc, p'.packets = p.packets ++ [Packet.datagram p.layer3.payload rc] → 0 < rc →
    ∃ d, p'.lower.txQueue.toList = p.lower.txQueue.toList ++ [d] ∧
      Whole p'.lower d p.layer3.payload

/-! ## What `addTxData` takes -/

section

variable (s : UdpIo) (client : Option UInt32) (data : List UInt8)

theorem addTxData_of_refuses (h : s.Refuses) : (s.addTxData client data).1 ≤ 0 := by
  by_cases hfull : s.txQueue.isFull = true
  · rw [UdpIo.addTxData, if_pos hfull]
    exact (by decide : kRcTxQueueFull ≤ 0)
  · have hnone := h.resolve_left hfull
    rcases hget : s.udpBuffers.get with ⟨buffer, pool⟩
    rw [hget] at hnone
    obtain rfl : buffer = none := hnone
    rw [UdpIo.addTxData, if_neg hfull, hget]
    exact (by decide : kRcTxBufferFull ≤ 0)

/-- **What `addTxData` queues**: the beginning of the data, as much as a buffer holds. -/
theorem addTxData_of_not_refuses (h : ¬ s.Refuses) :
    (s.addTxData client data).1 = UdpIo.taken data ∧ ∃ d,
      (s.addTxData client data).2.txQueue.toList = s.txQueue.toList ++ [d] ∧
      d.size = UdpIo.taken data ∧
      (s.addTxData client data).2.memory.read d.buffer d.size = data.take (UdpIo.taken data) := by
  obtain ⟨hfull, hbuffer⟩ := not_or.1 h
  rcases hget : s.udpBuffers.get with ⟨_ | buffer, pool⟩
  · exact absurd (by rw [hget]) hbuffer
  have hlen : (data.take (UdpIo.taken data)).length = UdpIo.taken data :=
    List.length_take_of_le (min_le_left _ _)
  rw [UdpIo.addTxData, if_neg hfull, hget]
  dsimp only
  rw [UdpIo.taken_eq]
  refine ⟨rfl, ⟨buffer, UdpIo.taken data, none, client⟩, ?_, rfl, ?_⟩
  · rw [TQueue.toList_push, if_neg hfull]
  · have hread := s.memory.read_write buffer (data.take (UdpIo.taken data))
    rwa [hlen] at hread

end

/-- A datagram that has all the octets of a packet has all its messages. -/
theorem whole_of_octets {s : UdpIo} {d : UdpData} {payload : List UInt8}
    (h : s.memory.read d.buffer d.size = payload) (hlt : d.size < 2 ^ 16) : Whole s d payload := by
  refine ⟨h, fun msgs hmsgs => ?_⟩
  have hsize : d.size = (msgs.map Message.bytes).flatten.length := by
    rw [← hmsgs, ← h, Mem.length_read]
  have hn : (UInt16.ofNat d.size).toNat = d.size := by
    rw [UInt16.toNat_ofNat', Nat.mod_eq_of_lt hlt]
  have hread : (s.memory.shift d.buffer).read 0 (d.size - 0) =
      (msgs.map Message.bytes).flatten := by
    rw [Mem.read_shift, ← hmsgs]
    exact h
  have hparse := forMessages_flatten hlt msgs (by rw [Nat.zero_add, hsize]) hread []
    (Nat.lt_succ_self _)
  rw [Layer3Rx.setRxAppData, hn]
  exact ⟨_, _, hparse⟩

/-! ## Packets -/

section Packets

variable (low : Lower UdpIo) (client : Option UInt32) (p : TProtocolInstance UdpIo)
  (dest : Option UInt8)

/-- What `sendPacket` does with a packet for the handler that is not empty. -/
theorem sendPacket_overUdp (hlink : p.linkID = .linkId1) (hne : p.layer3.txIndex ≠ 0) :
    (p.sendPacket (overUdp low client) dest).2.packets = p.packets ++
        [Packet.datagram p.layer3.payload (p.lower.addTxData client p.layer3.payload).1] ∧
      (p.sendPacket (overUdp low client) dest).2.lower =
        (p.lower.addTxData client p.layer3.payload).2 := by
  rw [TProtocolInstance.sendPacket, hlink]
  dsimp only
  rw [if_pos hne]
  exact ⟨rfl, rfl⟩

theorem complete_iff (hlink : p.linkID = .linkId1) :
    Complete low client p dest ↔ p.lower.Refuses ∨ p.layer3.txIndex ≤ udpDataMaxSz := by
  have hlen : p.layer3.payload.length = p.layer3.txIndex := Mem.length_read ..
  by_cases hzero : p.layer3.txIndex = 0
  · refine iff_of_true (fun rc hpackets => ?_) (.inr (by omega))
    rw [TProtocolInstance.sendPacket_of_empty _ hzero, List.self_eq_append_right] at hpackets
    cases hpackets
  obtain ⟨hpackets, hlower⟩ := sendPacket_overUdp low client p dest hlink hzero
  rw [Complete, hpackets, hlower]
  by_cases hrefuses : p.lower.Refuses
  · refine iff_of_true (fun rc hrc hpos => ?_) (.inl hrefuses)
    have hle := addTxData_of_refuses p.lower client p.layer3.payload hrefuses
    rw [List.append_cancel_left_eq] at hrc
    cases hrc
    omega
  obtain ⟨hrc, d, hqueue, hsize, hread⟩ :=
    addTxData_of_not_refuses p.lower client p.layer3.payload hrefuses
  rw [or_iff_right hrefuses, hqueue]
  constructor
  · intro hcomplete
    have hpos : 0 < (p.lower.addTxData client p.layer3.payload).1 := by
      rw [hrc, UdpIo.taken, hlen, udpDataMaxSz]
      omega
    obtain ⟨d', hd', hwhole⟩ := hcomplete _ rfl hpos
    obtain rfl : d = d' := List.singleton_inj.1 (List.append_cancel_left hd')
    have hoctets := congrArg List.length hwhole.octets
    rw [Mem.length_read, hsize, UdpIo.taken, hlen] at hoctets
    omega
  · intro hle rc _ _
    have htaken : UdpIo.taken p.layer3.payload = p.layer3.payload.length := by
      rw [UdpIo.taken, hlen]
      exact min_eq_left hle
    rw [htaken, List.take_length] at hread
    refine ⟨d, rfl, whole_of_octets hread ?_⟩
    rw [hsize, htaken, hlen]
    exact hle.trans_lt (by decide)

/-- Packing leaves the link and what lies below. -/
theorem pack_keeps (msgs : List (Mem × Mem)) :
    (pack p msgs).linkID = .linkId1 ∧ (pack p msgs).lower = p.lower := by
  unfold pack
  apply Run.always_final (I := fun q : TProtocolInstance UdpIo =>
    q.linkID = .linkId1 ∧ q.lower = p.lower)
  · exact fun _ _ h => h
  · exact ⟨rfl, rfl⟩

/-- **Replies longer than a buffer.** For all messages packed under the limit of
`processInputAppData`, whenever the packet is passed to `addTxData` and not refused the datagram in
the queue is the whole packet, exactly when `addTxData` refuses anything or the packet is not longer
than a buffer. -/
theorem reply_complete_iff (msgs : List (Mem × Mem)) :
    Complete low client (pack p msgs) dest ↔
      p.lower.Refuses ∨ (pack p msgs).layer3.txIndex ≤ udpDataMaxSz := by
  obtain ⟨hlink, hlower⟩ := pack_keeps p msgs
  rw [complete_iff low client (pack p msgs) dest hlink, hlower]

end Packets

/-- The reply to a read of a parameter. -/
def valueReply : Mem × Mem := (Mem.ofList (valueMessage 1 5 0 0 0), fun _ => 0)

/-- The instance of the upper link before the first datagram. -/
def idleLink : TProtocolInstance UdpIo :=
  ⟨⟨fun _ => 0, 0, 244⟩, 0, .linkId0, UdpIo.initial, [], []⟩

/-- Nothing but `udp_io` lies below. -/
def noFrames : Lower UdpIo where
  layer2 := ⟨fun _ => 0, fun _ => 0, .stWait, 0, 0, 1, 0xFF, false⟩
  getTxFree _ := 0
  write _ s := (0, s)
  processTxAppData := none

/-- The replies to 121 reads make a packet of 1452 octets, and the last message is cut off. -/
theorem not_complete_reads :
    ¬ Complete noFrames none (pack idleLink (List.replicate 121 valueReply)) none := by
  rw [complete_iff _ _ _ _ (pack_keeps _ _).1, (pack_keeps _ _).2, not_or]
  constructor
  · rintro (h | h)
    · exact absurd h (by decide)
    · exact absurd h (by decide)
  · decide +kernel

end KS3.Udp
