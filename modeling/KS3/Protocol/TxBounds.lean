import KS3.Protocol.HiIo
import KS3.Foundations.Run

/-!
# The bounds of the transmit packet

Two things can take the packet out of its bounds. The size of an application message is a sum of 16
bits, so that a header with a data size from `0xFFFA` on passes for a message of at most five octets
while all its data are copied. And the limit is changed without regard to what the packet holds.

`bounds_iff`: the packet and every copy to it stay inside the limit, after every step of any run,
exactly when neither happens.
-/

namespace KS3.Protocol

open DataIO

namespace TProtocolInstance

variable {τ : Type*} (low : Lower τ) {p : TProtocolInstance τ}

/-! ## One packet -/

/-- The packet is inside its limit, and so was every copy made to it. -/
structure Sound (p : TProtocolInstance τ) : Prop where
  index_le : p.layer3.txIndex ≤ p.layer3.maxTxAppSize
  copies_le : ∀ c ∈ p.copies, c.index + c.length ≤ c.limit

/-- A message whose size wraps passes the test for room. -/
def Overruns (p : TProtocolInstance τ) (msg : Mem) : Prop :=
  Layer3Tx.Wraps msg ∧ p.layer3.txIndex + (appDataSize msg - 0xFFFA) ≤ p.layer3.maxTxAppSize

/-- The limit is one of the two the device uses. -/
def Limited (p : TProtocolInstance τ) : Prop :=
  p.layer3.maxTxAppSize = 244 ∨ p.layer3.maxTxAppSize = 1472

theorem Limited.le (h : p.Limited) : p.layer3.maxTxAppSize ≤ 1472 := by
  rcases h with h | h <;> omega

theorem Sound.inBounds (h : p.Sound) (hmax : p.Limited) : p.layer3.InBounds :=
  ⟨h.index_le, hmax.le.trans_lt (by decide)⟩

/-- A packet that is emptied, with the copies made so far. -/
theorem Sound.of_copies {q : TProtocolInstance τ} (h : p.Sound) (hcopies : q.copies = p.copies)
    (hzero : q.layer3.txIndex = 0) : q.Sound where
  index_le := by omega
  copies_le := hcopies ▸ h.copies_le

/-- The copy of data whose size wraps is longer than any packet. -/
theorem not_sound_of_overruns (h : p.Sound) (hmax : p.Limited) {msg : Mem} (hover : p.Overruns msg)
    (data : Mem) : ¬ (p.addMessage3 msg data).2.Sound := by
  intro hsound
  rw [addMessage3_wraps (h.inBounds hmax) hover.1, if_pos hover.2] at hsound
  have hcopy := hsound.copies_le
    ⟨(p.layer3.txIndex + sizeofTMsgAppTypeHeader) % 2 ^ 16, appDataSize msg,
      p.layer3.maxTxAppSize⟩ (by simp)
  have hbig : 0xFFFA ≤ appDataSize msg := hover.1.2
  have hle := hmax.le
  simp only at hcopy
  omega

/-- Every other message leaves the packet inside its limit, or unchanged when it is refused. -/
theorem addMessage3_sound (h : p.Sound) (hmax : p.Limited) {msg : Mem} (hover : ¬ p.Overruns msg)
    (data : Mem) :
    (p.addMessage3 msg data).2.Sound ∧
      ((p.addMessage3 msg data).1 = -1 → (p.addMessage3 msg data).2 = p) := by
  have hb := h.inBounds hmax
  by_cases hw : Layer3Tx.Wraps msg
  · rw [addMessage3_wraps hb hw, if_neg fun hroom => hover ⟨hw, hroom⟩]
    exact ⟨h, fun _ => rfl⟩
  rcases hsize : messageSize msg with _ | size
  · rw [addMessage3_unknown hsize]
    exact ⟨h, fun _ => rfl⟩
  obtain ⟨hlen, -⟩ := Layer3Tx.addMessage_eq hb hsize hw data
  obtain ⟨copies, hcopies, hadd⟩ := addMessage3_eq hb hsize hw data
  rw [hadd]
  split_ifs with hroom
  · have hmaxlt := hb.max_lt
    refine ⟨⟨?_, fun c hc => ?_⟩, fun hrc => absurd hrc (by decide)⟩
    · have hindex : (p.layer3.append (encoded msg data)).txIndex = p.layer3.txIndex + size := by
        rw [Layer3Tx.txIndex_append (by omega), hlen]
      rwa [← hindex] at hroom
    · rcases List.mem_append.1 hc with hc | hc
      · exact h.copies_le c hc
      · obtain ⟨hle, hlimit⟩ := hcopies c hc
        omega
  · exact ⟨h, fun _ => rfl⟩

/-- `layer3->addMessage` keeps the packet in its bounds exactly when no size wraps unnoticed. -/
theorem addMessage3_sound_iff (h : p.Sound) (hmax : p.Limited) (msg data : Mem) :
    (p.addMessage3 msg data).2.Sound ↔ ¬ p.Overruns msg :=
  ⟨fun hsound hover => not_sound_of_overruns h hmax hover data hsound,
    fun hover => (addMessage3_sound h hmax hover data).1⟩

theorem finishTxPacket_sound (h : p.Sound) (dest : Option UInt8) :
    (p.finishTxPacket low dest).2.Sound := by
  simp only [finishTxPacket, Layer3Tx.finishTxPacket]
  split_ifs with hzero
  · exact h.of_copies rfl rfl
  · exact h

theorem sendPacket_sound (h : p.Sound) (hmax : p.Limited) (dest : Option UInt8) :
    (p.sendPacket low dest).2.Sound := by
  have hle := h.index_le.trans hmax.le
  rcases sendPacket_cases low (p := p) (by omega) dest with
    ⟨-, hsend⟩ | ⟨packet, lower, txPacket, -, hsend⟩
  · rwa [hsend]
  · rw [hsend]
    exact h.of_copies rfl rfl

theorem sendPending_sound (h : p.Sound) (hmax : p.Limited) :
    (p.sendPending low).Sound ∧ (p.sendPending low).Limited := by
  refine ⟨?_, by rwa [Limited, maxTxAppSize_sendPending]⟩
  rw [sendPending_eq]
  exact sendPacket_sound low h hmax none

/-- `addMessage` of `TProtocol` keeps the packet in its bounds when no size wraps unnoticed,
neither before nor after the packet is sent. -/
def Contained (p : TProtocolInstance τ) (msg : Mem) : Prop :=
  Layer3Tx.Wraps msg → ¬ p.Overruns msg ∧ p.Stuck low

theorem Contained.not_overruns {msg : Mem} (h : p.Contained low msg) : ¬ p.Overruns msg :=
  fun hover => (h hover.1).1 hover

/-- A size that wraps passes the test for room in the packet that was sent. -/
theorem overruns_sendPending (h : p.Sound) (hmax : p.Limited) {msg : Mem}
    (hover : ¬ p.Overruns msg) :
    (p.sendPending low).Overruns msg ↔ Layer3Tx.Wraps msg ∧ ¬ p.Stuck low := by
  have hle := h.index_le.trans hmax.le
  rcases sendPending_cases low (p := p) (by omega) with ⟨hstuck, hsend⟩ | ⟨hstuck, hzero⟩
  · rw [hsend]
    exact iff_of_false hover fun h => h.2 hstuck
  · rw [Overruns, hzero, maxTxAppSize_sendPending]
    have hlt := appDataSize_lt msg
    refine and_congr_right fun _ => iff_of_true ?_ hstuck
    rcases hmax with hmax | hmax <;> omega

theorem Contained.sendPending {msg : Mem} (hc : p.Contained low msg) (h : p.Sound)
    (hmax : p.Limited) : ¬ (p.sendPending low).Overruns msg := by
  intro hover
  obtain ⟨hw, hstuck⟩ := (overruns_sendPending low h hmax hc.not_overruns).1 hover
  exact hstuck (hc hw).2

theorem addMessage_sound (h : p.Sound) (hmax : p.Limited) {msg : Mem} (hc : p.Contained low msg)
    (data : Mem) : (p.addMessage low msg data).2.Sound := by
  obtain ⟨hsound, hsame⟩ := addMessage3_sound h hmax hc.not_overruns data
  by_cases hrc : (p.addMessage3 msg data).1 = -1
  · obtain ⟨hs, hlimited⟩ := sendPending_sound low h hmax
    rw [addMessage_of_full low (Prod.ext hrc (hsame hrc))]
    exact (addMessage3_sound hs hlimited (hc.sendPending low h hmax) data).1
  · rw [addMessage_of_ne low hrc]
    exact hsound

/-- Otherwise the message is copied whose size wraps, before or after the packet is sent. -/
theorem exists_overruns (h : p.Sound) (hmax : p.Limited) {msg : Mem} (hc : ¬ p.Contained low msg)
    (data : Mem) :
    ∃ q, (q = p ∨ q = p.sendPending low) ∧ q.Overruns msg ∧
      p.addMessage low msg data = q.addMessage3 msg data := by
  obtain ⟨hw, hnot⟩ := Classical.not_imp.1 hc
  have hadd := addMessage3_wraps (h.inBounds hmax) hw data
  by_cases hover : p.Overruns msg
  · refine ⟨p, .inl rfl, hover, addMessage_of_ne low ?_⟩
    rw [if_pos hover.2] at hadd
    simp [hadd]
  · have hstuck : ¬ p.Stuck low := fun hstuck => hnot ⟨hover, hstuck⟩
    rw [if_neg fun hroom => hover ⟨hw, hroom⟩] at hadd
    exact ⟨p.sendPending low, .inr rfl,
      (overruns_sendPending low h hmax hover).2 ⟨hw, hstuck⟩, addMessage_of_full low hadd⟩

theorem contained_of_sound (h : p.Sound) (hmax : p.Limited) {msg data : Mem}
    (hsound : (p.addMessage low msg data).2.Sound) : p.Contained low msg := by
  by_contra hc
  obtain ⟨q, hq, hover, hadd⟩ := exists_overruns low h hmax hc data
  have hbounds : q.Sound ∧ q.Limited := by
    rcases hq with rfl | rfl
    · exact ⟨h, hmax⟩
    · exact sendPending_sound low h hmax
  rw [hadd] at hsound
  exact not_sound_of_overruns hbounds.1 hbounds.2 hover data hsound

end TProtocolInstance

/-! ## Runs -/

/-- The transmitting side of the upper link: `hi_io::protocolType` and the instance. -/
structure TxSide (τ : Type*) where
  protocolType : ProtocolType
  inst : TProtocolInstance τ

/-- What is done to the transmit packet. `processInput` is the beginning of `processInputData` or
`processInputAppData`; what these calls do next, they do by the operations before it. Meanwhile the
layers below may change in any way. -/
inductive TxOp (τ : Type*)
  | startTxPacket
  | layer3AddMessage (msg data : Mem)
  | addMessage (msg data : Mem)
  | finishTxPacket (dest : Option UInt8)
  | sendPacket (dest : Option UInt8)
  | setTxAppSize (t : ProtocolType)
  | processInput (t : ProtocolType)
  | elsewhere (lower : τ)

namespace TxSide

variable {τ : Type*} (low : Lower τ)

/-- The instance as it is constructed, with the given buffer and the state of what lies below. -/
def construct (txPacket : Mem) (lower : τ) : TxSide τ where
  protocolType := .kProtocolDataIo
  inst := ⟨⟨txPacket, 0, 244⟩, 0, .linkId0, lower, [], []⟩

/-- One operation. -/
def step (s : TxSide τ) : TxOp τ → TxSide τ
  | .startTxPacket => { s with inst := s.inst.startTxPacket }
  | .layer3AddMessage msg data => { s with inst := (s.inst.addMessage3 msg data).2 }
  | .addMessage msg data => { s with inst := (s.inst.addMessage low msg data).2 }
  | .finishTxPacket dest => { s with inst := (s.inst.finishTxPacket low dest).2 }
  | .sendPacket dest => { s with inst := (s.inst.sendPacket low dest).2 }
  | .setTxAppSize t => { s with inst := s.inst.setPayload (HiIo.limit t) }
  | .processInput t => ⟨t, HiIo.switch t s.protocolType s.inst⟩
  | .elsewhere lower => { s with inst := { s.inst with lower := lower } }

/-- An operation that keeps the packet in its bounds: no size wraps unnoticed, and a limit that is
set is not below what the packet holds. -/
def Safe (s : TxSide τ) : TxOp τ → Prop
  | .layer3AddMessage msg _ => ¬ s.inst.Overruns msg
  | .addMessage msg _ => s.inst.Contained low msg
  | .setTxAppSize t => s.inst.layer3.txIndex ≤ (HiIo.limit t).toNat
  | .processInput t => s.protocolType ≠ t → s.inst.layer3.txIndex ≤ (HiIo.limit t).toNat
  | _ => True

theorem limited_setPayload (p : TProtocolInstance τ) (t : ProtocolType) :
    (p.setPayload (HiIo.limit t)).Limited := by
  cases t
  · exact .inl rfl
  · exact .inr rfl

/-- A limit that is set is kept exactly when it is not below what the packet holds. -/
theorem setPayload_sound_iff {p : TProtocolInstance τ} (h : p.Sound) (t : ProtocolType) :
    (p.setPayload (HiIo.limit t)).Sound ↔ p.layer3.txIndex ≤ (HiIo.limit t).toNat :=
  ⟨fun hs => hs.index_le, fun hle => ⟨hle, h.copies_le⟩⟩

theorem switch_sound_iff {p : TProtocolInstance τ} (h : p.Sound) (t protocolType : ProtocolType) :
    (HiIo.switch t protocolType p).Sound ↔
      (protocolType ≠ t → p.layer3.txIndex ≤ (HiIo.limit t).toNat) := by
  rw [HiIo.switch]
  split_ifs with hne
  · rw [← setPayload_sound_iff h t]
    exact ⟨fun hs _ => ⟨hs.index_le, hs.copies_le⟩, fun hs => ⟨(hs hne).index_le, h.copies_le⟩⟩
  · exact iff_of_true ⟨h.index_le, h.copies_le⟩ fun h => absurd h hne

theorem limited_switch {p : TProtocolInstance τ} (h : p.Limited) (t protocolType : ProtocolType) :
    (HiIo.switch t protocolType p).Limited := by
  rw [HiIo.switch]
  split_ifs
  · exact limited_setPayload p t
  · exact h

/-- One operation keeps the packet in its bounds exactly when it is safe. -/
theorem step_sound_iff {s : TxSide τ} (h : s.inst.Sound) (hmax : s.inst.Limited) (op : TxOp τ) :
    (s.step low op).inst.Sound ↔ s.Safe low op := by
  cases op with
  | startTxPacket => exact iff_of_true (h.of_copies rfl rfl) trivial
  | layer3AddMessage msg data => exact TProtocolInstance.addMessage3_sound_iff h hmax msg data
  | addMessage msg data =>
    exact ⟨TProtocolInstance.contained_of_sound low h hmax,
      fun hc => TProtocolInstance.addMessage_sound low h hmax hc data⟩
  | finishTxPacket dest =>
    exact iff_of_true (TProtocolInstance.finishTxPacket_sound low h dest) trivial
  | sendPacket dest =>
    exact iff_of_true (TProtocolInstance.sendPacket_sound low h hmax dest) trivial
  | setTxAppSize t => exact setPayload_sound_iff h t
  | processInput t => exact switch_sound_iff h t s.protocolType
  | elsewhere lower => exact iff_of_true ⟨h.index_le, h.copies_le⟩ trivial

theorem step_limited {s : TxSide τ} (hmax : s.inst.Limited) (op : TxOp τ) :
    (s.step low op).inst.Limited := by
  cases op with
  | startTxPacket => exact hmax
  | layer3AddMessage msg data =>
    simpa only [step, TProtocolInstance.Limited, TProtocolInstance.maxTxAppSize_addMessage3]
  | addMessage msg data =>
    simpa only [step, TProtocolInstance.Limited, TProtocolInstance.maxTxAppSize_addMessage]
  | finishTxPacket dest =>
    simpa only [step, TProtocolInstance.Limited, TProtocolInstance.maxTxAppSize_finishTxPacket]
  | sendPacket dest =>
    simpa only [step, TProtocolInstance.Limited, TProtocolInstance.maxTxAppSize_sendPacket]
  | setTxAppSize t => exact limited_setPayload s.inst t
  | processInput t => exact limited_switch hmax t s.protocolType
  | elsewhere lower => exact hmax

/-- **The transmit packet is not overrun.** In every run of operations from the constructed
instance, after every step the packet is inside its limit and every copy made to it was, exactly
when no message whose size wraps passes the test for room and no limit is set below what the packet
holds. -/
theorem bounds_iff (txPacket : Mem) (lower : τ) (ops : List (TxOp τ)) :
    (∀ pre, pre <+: ops → (Run.final (step low) (construct txPacket lower) pre).inst.Sound) ↔
      ∀ m ∈ Run.steps (step low) (construct txPacket lower) ops, m.1.Safe low m.2 := by
  have h₀ : (construct txPacket lower).inst.Sound ∧ (construct txPacket lower).inst.Limited :=
    ⟨⟨Nat.zero_le _, by simp [construct]⟩, .inl rfl⟩
  exact Run.forall_prefix_iff (Q := fun s : TxSide τ => s.inst.Sound ∧ s.inst.Limited)
    (fun _ h => h.1) (fun _ op h => step_sound_iff low h.1 h.2 op)
    (fun _ op h hsafe => ⟨(step_sound_iff low h.1 h.2 op).2 hsafe, step_limited low h.2 op⟩)
    h₀

/-- Layers below that take nothing, with no handler installed. -/
def nothingBelow : Lower Unit where
  layer2 := ⟨fun _ => 0, fun _ => 0, .stWait, 0, 0, 1, 0xFF, false⟩
  getTxFree _ := 0
  write _ _ := (0, ())
  processTxAppData := none

/-- A header that claims 65535 octets is taken for a message of five; and 306 octets that nobody
takes are still there when the limit is 244 again. -/
theorem bounds_broken :
    ¬ (Run.final (step nothingBelow) (construct (fun _ => 0) ())
        [.addMessage (Mem.ofList [0x80, 0, 0, 0, 0xFF, 0xFF]) fun _ => 0]).inst.Sound ∧
      ¬ (Run.final (step nothingBelow) (construct (fun _ => 0) ())
        [.processInput .kProtocolApp, .startTxPacket,
          .addMessage (Mem.ofList [0x80, 0, 0, 0, 44, 1]) fun _ => 0, .sendPacket none,
          .processInput .kProtocolDataIo]).inst.Sound :=
  ⟨fun h => absurd h.copies_le (by decide +kernel), fun h => absurd h.index_le (by decide +kernel)⟩

end TxSide

end KS3.Protocol
