import KS3.Protocol.TxBounds

/-!
# Refused transmissions

`sendPacket` empties the packet before it knows whether the layers below take it: `finishTxPacket`
resets the index before `getTxFree` is asked, and `startTxPacket` follows the handler whatever it
returns. The same happens in `addMessage`, when a message finds the packet full.

`pending_iff`: what was accepted is what was transmitted and what is still pending, after every step
of any run, exactly when no packet is refused and no message is accepted whose size wraps.
-/

namespace KS3.Protocol

open DataIO

/-- The octets of the packets that were transmitted: `sendPacket` did not return 0. -/
def transmitted (packets : List Packet) : List UInt8 :=
  (packets.filter fun packet => packet.result ≠ 0).flatMap Packet.payload

theorem transmitted_concat (packets : List Packet) (packet : Packet) :
    transmitted (packets ++ [packet]) =
      transmitted packets ++ if packet.result ≠ 0 then packet.payload else [] := by
  simp only [transmitted, List.filter_append, List.flatMap_append, List.append_cancel_left_eq]
  by_cases hresult : packet.result = 0
  · simp [hresult]
  · simp [hresult]

namespace TProtocolInstance

variable {τ : Type*} (low : Lower τ) {p : TProtocolInstance τ}

/-- The layers below take the packet: there is room for the frame and it is written, or the handler
returns a positive value. -/
def Taken (p : TProtocolInstance τ) (dest : Option UInt8) : Prop :=
  match p.linkID with
  | .linkId0 => p.Room low ∧ (low.write (p.octets low dest) p.lower).1 ≠ 0
  | .linkId1 => ∀ processTxAppData, low.processTxAppData = some processTxAppData →
      0 < (processTxAppData p.layer3.payload p.lower).1

/-- A message finds a packet that is not empty without room for it. -/
def Full (p : TProtocolInstance τ) (msg : Mem) : Prop :=
  p.layer3.txIndex ≠ 0 ∧
    ∃ size, messageSize msg = some size ∧ p.layer3.maxTxAppSize < p.layer3.txIndex + size

theorem Stuck.taken (h : p.Stuck low) (dest : Option UInt8) : p.Taken low dest := by
  rw [Taken, h.1]
  intro processTxAppData hsome
  rw [h.2] at hsome
  cases hsome

/-- What is passed down is transmitted exactly when it is taken. -/
theorem result_outgoing {dest : Option UInt8} {packet : Packet} {lower : τ}
    (h : p.outgoing low dest = some (packet, lower)) : packet.result ≠ 0 ↔ p.Taken low dest := by
  rw [Taken]
  obtain ⟨-, ⟨hlink, rfl⟩ | ⟨hlink, processTxAppData, hsome, rfl⟩⟩ := outgoing_cases low h
  · rw [hlink, Packet.result]
    by_cases hroom : p.Room low
    · simp [hroom]
    · simp [hroom]
  · rw [hlink, Packet.result, hsome]
    simp only [Option.some.injEq, forall_eq']
    omega

/-- `layer3->addMessage` finds no room, whether or not the size wraps. -/
theorem addMessage3_full (h : p.layer3.InBounds) (msg data : Mem) :
    (p.addMessage3 msg data).1 = -1 ↔
      ∃ size, messageSize msg = some size ∧ p.layer3.maxTxAppSize < p.layer3.txIndex + size := by
  by_cases hw : Layer3Tx.Wraps msg
  · have hsize : messageSize msg = some (appDataSize msg - 0xFFFA) := by
      rw [messageSize, if_pos hw.1, hw.mod_size]
    rw [addMessage3_wraps h hw, hsize]
    split_ifs with hroom
    · simpa using hroom
    · simpa using hroom
  rcases hsize : messageSize msg with _ | size
  · simp [addMessage3_unknown hsize]
  · obtain ⟨copies, -, hadd⟩ := addMessage3_eq h hsize hw data
    rw [hadd]
    split_ifs with hroom
    · simpa using hroom
    · simpa using hroom

end TProtocolInstance

/-! ## Runs -/

/-- The instance, with the messages that `addMessage` returned 0 for. -/
structure Ledger (τ : Type*) where
  inst : TProtocolInstance τ
  accepted : List (List UInt8)

/-- Calls of `addMessage` and `sendPacket`. Meanwhile the layers below may change in any way. -/
inductive SendOp (τ : Type*)
  | addMessage (msg data : Mem)
  | sendPacket (dest : Option UInt8)
  | elsewhere (lower : τ)

namespace Ledger

variable {τ : Type*} (low : Lower τ) {s : Ledger τ}

/-- An instance on either link with an empty packet, whose limit is one of the two. -/
def construct (txPacket : Mem) (srcAddress : UInt16) (linkID : LinkId) (t : ProtocolType)
    (lower : τ) : Ledger τ where
  inst := ⟨⟨txPacket, 0, (HiIo.limit t).toNat⟩, srcAddress, linkID, lower, [], []⟩
  accepted := []

/-- The outcome of a call of `addMessage`. -/
def note (accepted : List (List UInt8)) (msg data : Mem) (out : ℤ × TProtocolInstance τ) :
    Ledger τ :=
  ⟨out.2, if out.1 = 0 then accepted ++ [encoded msg data] else accepted⟩

/-- One call. -/
def step (s : Ledger τ) : SendOp τ → Ledger τ
  | .addMessage msg data => note s.accepted msg data (s.inst.addMessage low msg data)
  | .sendPacket dest => { s with inst := (s.inst.sendPacket low dest).2 }
  | .elsewhere lower => { s with inst := { s.inst with lower := lower } }

/-- What was accepted was transmitted or is pending. -/
def Kept (s : Ledger τ) : Prop :=
  s.accepted.flatten = transmitted s.inst.packets ++ s.inst.layer3.payload

/-- A call in which no packet is refused and no message is accepted whose size wraps. -/
def Served (s : Ledger τ) : SendOp τ → Prop
  | .addMessage msg _ => s.inst.Contained low msg ∧ (s.inst.Full msg → s.inst.Taken low none)
  | .sendPacket dest => s.inst.layer3.txIndex ≠ 0 → s.inst.Taken low dest
  | .elsewhere _ => True

/-- `sendPacket` keeps what was accepted exactly when the packet is taken. -/
theorem sendPacket_kept_iff (h : s.Kept) (hlt : s.inst.layer3.txIndex + 10 < 2 ^ 16)
    (dest : Option UInt8) :
    Kept { s with inst := (s.inst.sendPacket low dest).2 } ↔
      (s.inst.layer3.txIndex ≠ 0 → s.inst.Taken low dest) := by
  rcases TProtocolInstance.sendPacket_cases low hlt dest with
    ⟨hout, hsend⟩ | ⟨packet, lower, txPacket, hout, hsend⟩
  · rw [hsend]
    refine iff_of_true h fun hpos => ?_
    exact (((TProtocolInstance.outgoing_eq_none low).1 hout).resolve_left hpos).taken low dest
  · have hpos : s.inst.layer3.txIndex ≠ 0 := fun hzero => by
      rw [(TProtocolInstance.outgoing_eq_none low).2 (.inl hzero)] at hout
      cases hout
    have hpayload := TProtocolInstance.payload_outgoing low hout
    have hne : s.inst.layer3.payload ≠ [] := by
      rw [← List.length_pos_iff, Layer3Tx.payload, Mem.length_read]
      omega
    rw [forall_prop_of_true hpos, ← TProtocolInstance.result_outgoing low hout, hsend]
    simp only [Kept, transmitted_concat, Layer3Tx.payload, Mem.read_zero,
      List.append_nil]
    rw [h, hpayload, List.append_cancel_left_eq]
    split_ifs with hresult
    · exact iff_of_true rfl hresult
    · exact iff_of_false hne hresult

/-- `layer3->addMessage` keeps what was accepted if no size wraps unnoticed. -/
theorem addMessage3_kept_iff (hb : s.inst.layer3.InBounds) {msg : Mem}
    (hover : ¬ s.inst.Overruns msg) (data : Mem) :
    (note s.accepted msg data (s.inst.addMessage3 msg data)).Kept ↔ s.Kept := by
  by_cases hw : Layer3Tx.Wraps msg
  · rw [TProtocolInstance.addMessage3_wraps hb hw, if_neg fun hroom => hover ⟨hw, hroom⟩]
    exact Iff.rfl
  rcases hsize : messageSize msg with _ | size
  · rw [TProtocolInstance.addMessage3_unknown hsize]
    exact Iff.rfl
  obtain ⟨hlen, -⟩ := Layer3Tx.addMessage_eq hb hsize hw data
  obtain ⟨copies, -, hadd⟩ := TProtocolInstance.addMessage3_eq hb hsize hw data
  rw [hadd]
  split_ifs with hroom
  · have hmax := hb.max_lt
    have hpayload : (s.inst.layer3.append (encoded msg data)).payload =
        s.inst.layer3.payload ++ encoded msg data := Layer3Tx.payload_append (by omega)
    simp only [Kept, note, if_true, hpayload,  List.flatten_append,
      List.flatten_singleton, ← List.append_assoc, List.append_cancel_right_eq]
  · exact Iff.rfl

/-- A message whose size wraps is longer than what is pending after it. -/
theorem not_kept_of_overruns (hle : (transmitted s.inst.packets).length ≤ s.accepted.flatten.length)
    (hb : s.inst.layer3.InBounds) {msg : Mem} (hover : s.inst.Overruns msg) (data : Mem) :
    ¬ (note s.accepted msg data (s.inst.addMessage3 msg data)).Kept := by
  intro hkept
  rw [TProtocolInstance.addMessage3_wraps hb hover.1, if_pos hover.2] at hkept
  have hlength := congrArg List.length hkept
  have hencoded : (encoded msg data).length = sizeofTMsgAppTypeHeader + appDataSize msg := by
    simp [encoded, if_pos hover.1.1]
  have hbig : 0xFFFA ≤ appDataSize msg := hover.1.2
  have hindex : ((s.inst.layer3.append (msg.read 0 sizeofTMsgAppTypeHeader)).append
      (data.read 0 (appDataSize msg))).txIndex < 2 ^ 16 := Nat.mod_lt _ (by decide)
  simp only [note, if_true, List.flatten_append, List.flatten_singleton, List.length_append,
    hencoded, Layer3Tx.payload, Mem.length_read] at hlength
  simp only [sizeofTMsgAppTypeHeader] at hlength hindex
  omega

theorem length_transmitted_sendPending (h : s.Kept)
    (hlt : s.inst.layer3.txIndex + 10 < 2 ^ 16) :
    (transmitted (s.inst.sendPending low).packets).length ≤ s.accepted.flatten.length := by
  rw [h, TProtocolInstance.sendPending_eq, List.length_append]
  rcases TProtocolInstance.sendPacket_cases low hlt none with
    ⟨-, hsend⟩ | ⟨packet, lower, txPacket, hout, hsend⟩
  · rw [hsend]
    exact Nat.le_add_right _ _
  · rw [hsend, transmitted_concat, List.length_append,
      TProtocolInstance.payload_outgoing low hout]
    split_ifs <;> simp

/-- `addMessage` keeps what was accepted exactly when the packet is taken that it sends, if any, and
no message is accepted whose size wraps. -/
theorem addMessage_kept_iff (h : s.Kept) (hs : s.inst.Sound) (hmax : s.inst.Limited)
    (msg data : Mem) :
    (s.step low (.addMessage msg data)).Kept ↔ s.Served low (.addMessage msg data) := by
  have hb := hs.inBounds hmax
  have hlt : s.inst.layer3.txIndex + 10 < 2 ^ 16 := by
    have := hs.index_le.trans hmax.le
    omega
  obtain ⟨hs', hmax'⟩ := TProtocolInstance.sendPending_sound low hs hmax
  by_cases hc : s.inst.Contained low msg
  · rw [Served, and_iff_right hc, TProtocolInstance.Full,
      ← TProtocolInstance.addMessage3_full hb msg data]
    by_cases hrc : (s.inst.addMessage3 msg data).1 = -1
    · have hsame := (TProtocolInstance.addMessage3_sound hs hmax hc.not_overruns data).2 hrc
      rw [step, TProtocolInstance.addMessage_of_full low (Prod.ext hrc hsame)]
      have hadd := addMessage3_kept_iff (s := { s with inst := s.inst.sendPending low })
        (hs'.inBounds hmax') (hc.sendPending low hs hmax) data
      rw [hadd, TProtocolInstance.sendPending_eq, sendPacket_kept_iff low h hlt,
        and_iff_left hrc]
    · rw [step, TProtocolInstance.addMessage_of_ne low hrc,
        addMessage3_kept_iff hb hc.not_overruns]
      exact iff_of_true h fun hfull => absurd hfull.2 hrc
  · refine iff_of_false ?_ fun hserved => hc hserved.1
    obtain ⟨q, hq, hover, hadd⟩ := TProtocolInstance.exists_overruns low hs hmax hc data
    rw [step, hadd]
    rcases hq with rfl | rfl
    · refine not_kept_of_overruns ?_ hb hover data
      rw [h, List.length_append]
      exact Nat.le_add_right _ _
    · exact not_kept_of_overruns (s := { s with inst := s.inst.sendPending low })
        (length_transmitted_sendPending low h hlt) (hs'.inBounds hmax') hover data

/-- One call keeps what was accepted exactly when it is served. -/
theorem step_kept_iff (h : s.Kept) (hs : s.inst.Sound) (hmax : s.inst.Limited) (op : SendOp τ) :
    (s.step low op).Kept ↔ s.Served low op := by
  cases op with
  | addMessage msg data => exact addMessage_kept_iff low h hs hmax msg data
  | sendPacket dest =>
    have hle := hs.index_le.trans hmax.le
    exact sendPacket_kept_iff low h (by omega) dest
  | elsewhere lower => exact iff_of_true h trivial

/-- A call that is served leaves the packet in its bounds. -/
theorem step_bounds (hs : s.inst.Sound) (hmax : s.inst.Limited) {op : SendOp τ}
    (hop : s.Served low op) : (s.step low op).inst.Sound ∧ (s.step low op).inst.Limited := by
  cases op with
  | addMessage msg data =>
    refine ⟨TProtocolInstance.addMessage_sound low hs hmax hop.1 data, ?_⟩
    rwa [step, note, TProtocolInstance.Limited, TProtocolInstance.maxTxAppSize_addMessage]
  | sendPacket dest =>
    refine ⟨TProtocolInstance.sendPacket_sound low hs hmax dest, ?_⟩
    rwa [step, TProtocolInstance.Limited, TProtocolInstance.maxTxAppSize_sendPacket]
  | elsewhere lower => exact ⟨⟨hs.index_le, hs.copies_le⟩, hmax⟩

/-- **Accepted messages are transmitted or pending.** In every run of `addMessage` and `sendPacket`
on either link, whatever the layers below answer, after every call the octets of the messages
accepted so far are those transmitted and then those of the packet, exactly when every packet that
is sent, by `sendPacket` or for want of room, is taken, and no message is accepted whose size
wraps. -/
theorem pending_iff (txPacket : Mem) (srcAddress : UInt16) (linkID : LinkId) (t : ProtocolType)
    (lower : τ) (ops : List (SendOp τ)) :
    (∀ pre, pre <+: ops →
        (Run.final (step low) (construct txPacket srcAddress linkID t lower) pre).Kept) ↔
      ∀ m ∈ Run.steps (step low) (construct txPacket srcAddress linkID t lower) ops,
        m.1.Served low m.2 := by
  have h₀ : (construct txPacket srcAddress linkID t lower).Kept ∧
      (construct txPacket srcAddress linkID t lower).inst.Sound ∧
      (construct txPacket srcAddress linkID t lower).inst.Limited := by
    refine ⟨rfl, ⟨Nat.zero_le _, by simp [construct]⟩, ?_⟩
    cases t
    · exact .inl rfl
    · exact .inr rfl
  refine Run.forall_prefix_iff (Q := fun s : Ledger τ => s.Kept ∧ s.inst.Sound ∧ s.inst.Limited)
    (fun _ h => h.1) (fun _ op h => step_kept_iff low h.1 h.2.1 h.2.2 op) (fun s op h hop => ?_) h₀
  exact ⟨(step_kept_iff low h.1 h.2.1 h.2.2 op).2 hop, step_bounds low h.2.1 h.2.2 hop⟩

/-- One message, and no room in layer 1 when it is sent: `addMessage` and `sendPacket` both return
0, and the message is neither transmitted nor pending. -/
theorem pending_lost :
    let s := construct (fun _ => 0) 1 .linkId0 .kProtocolDataIo ()
    let msg := Mem.ofList [0x11, 1, 5, 0]
    let s₁ := s.step TxSide.nothingBelow (.addMessage msg fun _ => 0)
    (s.inst.addMessage TxSide.nothingBelow msg fun _ => 0).1 = 0 ∧
      (s₁.inst.sendPacket TxSide.nothingBelow none).1 = 0 ∧
      ¬ (s₁.step TxSide.nothingBelow (.sendPacket none)).Kept := by
  refine ⟨by decide +kernel, by decide +kernel, ?_⟩
  intro h
  exact absurd (congrArg List.length h) (by decide +kernel)

end Ledger

end KS3.Protocol
