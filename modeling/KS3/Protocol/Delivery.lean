import KS3.DataIO.Messages
import KS3.DataIO.Reception
import KS3.Protocol.TProtocol

/-!
# What `processInputData` delivers

A stream of frames reaches the application as the events of its frames, however the stream is cut
into calls. The proof goes from the octet to the stream: a string of octets that makes no packet
ready changes only the receiver (`rxBytes_quiet`), a frame for this station is handled at its last
octet (`rxBytes_frame`), frames follow one another (`rxBytes_frames`), and calls without a silence
between them are one loop over all their octets (`processCalls_view`).

* `chunking`: after a silence, frames for this station are delivered completely and in order, for
  every way of cutting the stream;
* `filtering`: on a shared line the frames for this station are delivered and no others, if the
  frames for other stations hold no preamble behind their headers; `foreign_swallows` is why the
  condition is there.
-/

namespace KS3.Protocol

open DataIO

/-- The messages `getMessagePtr` splits out of a data block. -/
def messagesOf (bs : List UInt8) : List (List UInt8) :=
  match Layer3Rx.forMessages Layer3Rx.keepBytes (bs.length + 1)
      (Layer3Rx.setRxAppData (Mem.ofList bs) (UInt16.ofNat bs.length)) [] with
  | some (_, _, msgs) => msgs
  | none => []

/-- The events of a frame: its messages between a begin and an end. -/
def frameEvents (f : Frame) : List Event :=
  .onBeginRxPacketProcess ::
    (messagesOf f.data).map (.processRxMessage · f.dest.toUInt16 f.src.toUInt16) ++
    [.onEndRxPacketProcess f.src.toUInt16]

/-- The application headers of a frame's data are complete, and no size of them wraps. -/
def PayloadOk (f : Frame) : Prop := Layer3Rx.HeadersOk (Mem.ofList f.data) f.data.length

namespace TProtocol

variable {σ : Type*} {h : Handlers σ} {p : TProtocol} {s : σ}

/-! ## The receiver inside the protocol -/

theorem handlePacket_eq (p : TProtocol) (s : σ) {p' : TProtocol} {s' : σ}
    (heq : p.handlePacket h s = some (p', s')) :
    p'.layer2 = p.layer2.startRx ∧ p'.rxTicks = p.rxTicks ∧ p'.rxTimeout = p.rxTimeout := by
  simp only [handlePacket] at heq
  split at heq
  · cases heq
  · simp only [Option.some.injEq, Prod.mk.injEq] at heq
    obtain ⟨rfl, -⟩ := heq
    exact ⟨rfl, rfl, rfl⟩

/-- The equations of the loop, case by case. -/
theorem rxBytes_cons_ready {b : UInt8} {bs : List UInt8} {rc : ℤ}
    (hrc : (p.layer2.rxHandler b).rc = 2) :
    rxBytes h (b :: bs) rc p s =
      ({ p with layer2 := (p.layer2.rxHandler b).layer2 }.handlePacket h s).bind
        fun o => rxBytes h bs 2 o.1 o.2 := by
  rw [rxBytes, if_pos hrc]
  cases handlePacket h { p with layer2 := (p.layer2.rxHandler b).layer2 } s <;> rfl

theorem rxBytes_cons_quiet {b : UInt8} {bs : List UInt8} {rc : ℤ}
    (hrc : (p.layer2.rxHandler b).rc ≠ 2) (hrc' : (p.layer2.rxHandler b).rc ≠ 3) :
    rxBytes h (b :: bs) rc p s =
      rxBytes h bs rc { p with layer2 := (p.layer2.rxHandler b).layer2 } s := by
  rw [rxBytes, if_neg hrc, if_neg hrc']

/-- What the loop keeps: the tick, the timeout and the station. -/
theorem rxBytes_keeps {bs : List UInt8} {rc : ℤ} {o : InputOut σ}
    (heq : rxBytes h bs rc p s = some o) :
    o.protocol.rxTicks = p.rxTicks ∧ o.protocol.rxTimeout = p.rxTimeout ∧
      o.protocol.layer2.station = p.layer2.station := by
  induction bs generalizing rc p s with
  | nil =>
    simp only [rxBytes, Option.some.injEq] at heq
    subst heq
    exact ⟨rfl, rfl, rfl⟩
  | cons b bs ih =>
    have hst := p.layer2.station_rxHandler b
    rw [rxBytes] at heq
    split_ifs at heq with hready hlt
    · split at heq
      · cases heq
      · rename_i p' s' hhandle
        obtain ⟨hl2, hticks, htimeout⟩ := handlePacket_eq _ _ hhandle
        obtain ⟨h₁, h₂, h₃⟩ := ih heq
        refine ⟨h₁.trans hticks, h₂.trans htimeout, ?_⟩
        rw [h₃, hl2, ← hst]
        rfl
    · simp only [Option.some.injEq] at heq
      subst heq
      exact ⟨rfl, rfl, hst⟩
    · obtain ⟨h₁, h₂, h₃⟩ := ih heq
      exact ⟨h₁, h₂, h₃.trans hst⟩

/-- The loop over two strings is the loop over one and then the other. -/
theorem rxBytes_append (hlt : p.layer2.enableDataIOLt = false) (as bs : List UInt8) (rc : ℤ) :
    rxBytes h (as ++ bs) rc p s =
      (rxBytes h as rc p s).bind fun o => rxBytes h bs o.rc o.protocol o.handled := by
  induction as generalizing rc p s with
  | nil => rfl
  | cons a as ih =>
    have hne := p.layer2.rc_rxHandler_ne hlt a
    have hlt' : (p.layer2.rxHandler a).layer2.enableDataIOLt = false := by
      rw [← hlt]
      exact congrArg Station.lt (p.layer2.station_rxHandler a)
    rw [List.cons_append]
    by_cases hrc : (p.layer2.rxHandler a).rc = 2
    · rw [rxBytes_cons_ready hrc, rxBytes_cons_ready hrc, Option.bind_assoc]
      refine Option.bind_congr fun o ho => ?_
      refine ih (p := o.1) ?_ 2
      rw [(handlePacket_eq _ _ ho).1]
      exact hlt'
    · rw [rxBytes_cons_quiet hrc hne, rxBytes_cons_quiet hrc hne]
      exact ih (p := { p with layer2 := (p.layer2.rxHandler a).layer2 }) hlt' rc

/-! ## What the loop depends on -/

/-- The parts of a protocol's state, with the handlers' state, that the loop acts on. -/
def view (p : TProtocol) (s : σ) : DataIOLayer2 × Layer3Rx × σ := (p.layer2, p.layer3, s)

theorem bind_congr_of_map {α β γ : Type*} {x y : Option α} {f : α → β} {g g' : α → Option γ}
    (heq : x.map f = y.map f) (hg : ∀ a b, f a = f b → g a = g' b) : x.bind g = y.bind g' := by
  rcases x with _ | a <;> rcases y with _ | b
  · rfl
  · cases heq
  · cases heq
  · exact hg a b (Option.some.inj heq)

theorem handlePacket_view {p' : TProtocol} (hv : view p s = view p' s) :
    (p.handlePacket h s).map (fun o => view o.1 o.2) =
      (p'.handlePacket h s).map (fun o => view o.1 o.2) := by
  simp only [view, Prod.mk.injEq, and_true] at hv
  simp only [handlePacket, hv.1, hv.2]
  split <;> rfl

/-- The tick and the result so far have no influence on the rest. -/
theorem rxBytes_view (bs : List UInt8) (rc rc' : ℤ) {p' : TProtocol} (hv : view p s = view p' s) :
    (rxBytes h bs rc p s).map (fun o => view o.protocol o.handled) =
      (rxBytes h bs rc' p' s).map (fun o => view o.protocol o.handled) := by
  induction bs generalizing rc rc' p p' s with
  | nil => simpa [rxBytes] using hv
  | cons b bs ih =>
    have hl2 : p.layer2 = p'.layer2 := (Prod.mk.inj hv).1
    have hv' : view { p with layer2 := (p.layer2.rxHandler b).layer2 } s =
        view { p' with layer2 := (p'.layer2.rxHandler b).layer2 } s := by
      simp only [view, Prod.mk.injEq, and_true] at hv ⊢
      exact ⟨by rw [hl2], hv.2⟩
    by_cases hrc : (p.layer2.rxHandler b).rc = 2
    · rw [rxBytes_cons_ready hrc, rxBytes_cons_ready (hl2 ▸ hrc), Option.map_bind, Option.map_bind]
      refine bind_congr_of_map (handlePacket_view (h := h) hv') fun o o' ho => ?_
      have hs : o.2 = o'.2 := (Prod.mk.inj (Prod.mk.inj ho).2).2
      rw [Function.comp_apply, Function.comp_apply, ← hs]
      refine ih 2 2 ?_
      rw [ho, hs]
    by_cases hrc' : (p.layer2.rxHandler b).rc = 3
    · rw [rxBytes, rxBytes, if_neg hrc, if_pos hrc', if_neg (hl2 ▸ hrc), if_pos (hl2 ▸ hrc')]
      exact congrArg some hv'
    · rw [rxBytes_cons_quiet hrc hrc', rxBytes_cons_quiet (hl2 ▸ hrc) (hl2 ▸ hrc')]
      exact ih rc rc' hv'

/-- A call after a silence starts with a receiver at rest. -/
theorem beginInput_silence {now : UInt32} (hnow : Hal.difftime p.rxTicks now ≥ p.rxTimeout) :
    p.beginInput now false = { p with layer2 := p.layer2.startRx, rxTicks := now } := by
  simp only [beginInput, if_pos hnow]
  rfl

/-- A call without a silence before it starts with the receiver as it was left. -/
theorem beginInput_quiet {now : UInt32} (hnow : Hal.difftime p.rxTicks now < p.rxTimeout) :
    p.beginInput now false = { p with rxTicks := now } := by
  simp only [beginInput, if_neg (UInt32.not_le.2 hnow)]
  rfl

theorem station_beginInput (p : TProtocol) (now : UInt32) :
    (p.beginInput now false).layer2.station = p.layer2.station := by
  by_cases hnow : Hal.difftime p.rxTicks now ≥ p.rxTimeout
  · rw [beginInput_silence hnow]
    rfl
  · rw [beginInput_quiet (UInt32.not_le.1 hnow)]

/-- Calls without a silence between them are one loop over all their octets. -/
theorem processCalls_view (now : UInt32) (bytes : List UInt8) (calls : List (UInt32 × List UInt8))
    (hlt : p.layer2.enableDataIOLt = false)
    (hlater : ((now, bytes) :: calls).IsChain fun a b => Hal.difftime a.1 b.1 < p.rxTimeout) :
    (processCalls h ((now, bytes) :: calls) p s).map (fun o => view o.1 o.2) =
      (rxBytes h (((now, bytes) :: calls).flatMap Prod.snd) 0 (p.beginInput now false) s).map
        (fun o => view o.protocol o.handled) := by
  have hlt' : (p.beginInput now false).layer2.enableDataIOLt = false :=
    (congrArg Station.lt (p.station_beginInput now)).trans hlt
  induction calls generalizing p s now bytes with
  | nil =>
    simp only [processCalls, processInputData, List.flatMap_cons, List.flatMap_nil, List.append_nil]
    cases rxBytes h bytes 0 (p.beginInput now false) s <;> rfl
  | cons c calls ih =>
    obtain ⟨now', bytes'⟩ := c
    obtain ⟨hnow, htail⟩ := List.isChain_cons_cons.1 hlater
    rw [List.flatMap_cons, rxBytes_append hlt', processCalls, processInputData]
    cases hout : rxBytes h bytes 0 (p.beginInput now false) s with
    | none => rfl
    | some o =>
      obtain ⟨hticks, htimeout, hst⟩ := rxBytes_keeps hout
      have hquiet : Hal.difftime o.protocol.rxTicks now' < o.protocol.rxTimeout := by
        rw [hticks, htimeout]
        rw [show (p.beginInput now false).rxTicks = now from rfl]
        exact hnow
      have hlto : o.protocol.layer2.enableDataIOLt = false :=
        (congrArg Station.lt hst).trans hlt'
      have hrest := ih (p := o.protocol) (s := o.handled) now' bytes' hlto (by rwa [htimeout])
        (by rw [beginInput_quiet hquiet]; exact hlto)
      simp only [Option.bind_some]
      rw [hrest, beginInput_quiet hquiet]
      exact rxBytes_view _ _ _ rfl

/-! ## Frames -/

/-- Octets that make no packet ready change only the receiver. -/
theorem rxBytes_quiet {bs : List UInt8} (rc : ℤ)
    (hquiet : ∀ r ∈ (p.layer2.feed bs).1, r ≠ 2 ∧ r ≠ 3) :
    rxBytes h bs rc p s = some ⟨rc, [], { p with layer2 := (p.layer2.feed bs).2 }, s⟩ := by
  induction bs generalizing p with
  | nil => rfl
  | cons b bs ih =>
    simp only [DataIOLayer2.feed, List.forall_mem_cons] at hquiet
    rw [rxBytes_cons_quiet hquiet.1.1 hquiet.1.2]
    exact ih (p := { p with layer2 := (p.layer2.rxHandler b).layer2 }) hquiet.2

/-- Octets of which the last makes a packet ready. -/
theorem rxBytes_ready {bs : List UInt8} {rcs : List ℤ} (rc : ℤ)
    (hrcs : (p.layer2.feed bs).1 = rcs ++ [2]) (hquiet : ∀ r ∈ rcs, r ≠ 2 ∧ r ≠ 3) :
    rxBytes h bs rc p s = ({ p with layer2 := (p.layer2.feed bs).2 }.handlePacket h s).map
      fun o : TProtocol × σ => ⟨2, [], o.1, o.2⟩ := by
  induction bs generalizing p rcs with
  | nil => simp [DataIOLayer2.feed] at hrcs
  | cons b bs ih =>
    rcases rcs with _ | ⟨r, rcs⟩
    · simp only [DataIOLayer2.feed, List.nil_append, List.cons.injEq] at hrcs
      obtain rfl : bs = [] := by
        rcases bs with _ | ⟨c, bs⟩
        · rfl
        · simp [DataIOLayer2.feed] at hrcs
      have hfeed : (p.layer2.feed [b]).2 = (p.layer2.rxHandler b).layer2 := rfl
      rw [rxBytes_cons_ready hrcs.1, hfeed]
      cases handlePacket h { p with layer2 := (p.layer2.rxHandler b).layer2 } s <;> rfl
    · simp only [DataIOLayer2.feed, List.cons_append, List.cons.injEq] at hrcs
      simp only [List.forall_mem_cons, ← hrcs.1] at hquiet
      rw [rxBytes_cons_quiet hquiet.1.1 hquiet.1.2]
      exact ih (p := { p with layer2 := (p.layer2.rxHandler b).layer2 }) hrcs.2 hquiet.2

theorem length_lt (f : Frame) : f.data.length < 2 ^ 16 := by
  have := f.size_le
  simp only [maxLayer2DataSize] at this
  omega

/-- The loop over a frame's data ends, with the messages of the data. -/
theorem forMessages_data {f : Frame} (hok : PayloadOk f) :
    ∃ rc layer3, Layer3Rx.forMessages Layer3Rx.keepBytes (f.data.length + 1)
      ⟨Mem.ofList f.data, 0, f.data.length⟩ [] = some (rc, layer3, messagesOf f.data) := by
  have hstart : Layer3Rx.setRxAppData (Mem.ofList f.data) (UInt16.ofNat f.data.length) =
      ⟨Mem.ofList f.data, 0, f.data.length⟩ := by
    rw [Layer3Rx.setRxAppData, UInt16.toNat_ofNat_of_lt' (length_lt f)]
  have hsome := Layer3Rx.forMessages_isSome (h := Layer3Rx.keepBytes) (s := []) (length_lt f)
    hok.noStandstill .start (show f.data.length - 0 < f.data.length + 1 by omega)
  obtain ⟨⟨rc, layer3, msgs⟩, hloop⟩ := Option.isSome_iff_exists.1 hsome
  refine ⟨rc, layer3, ?_⟩
  rw [messagesOf, hstart, hloop]

/-- The same loop in the recorder, wherever the data lies in memory. -/
theorem forMessages_recorder {f : Frame} (hok : PayloadOk f) {m : Mem}
    (hm : m.read 0 f.data.length = f.data) (s : List Event) :
    ∃ rc layer3, Layer3Rx.forMessages
        (fun msg => recorder.processRxMessage msg f.dest.toUInt16 f.src.toUInt16)
        (f.data.length + 1) ⟨m, 0, f.data.length⟩ s = some (rc, layer3, s ++
          (messagesOf f.data).map (.processRxMessage · f.dest.toUInt16 f.src.toUInt16)) := by
  obtain ⟨rc, layer3, hloop⟩ := forMessages_data hok
  -- the recorder keeps the messages as events behind `s`
  have hmap := Layer3Rx.forMessages_map (h := Layer3Rx.keepBytes)
    (g := fun msg => recorder.processRxMessage msg f.dest.toUInt16 f.src.toUInt16)
    (fun msgs => s ++ msgs.map (.processRxMessage · f.dest.toUInt16 f.src.toUInt16))
    (by simp [Layer3Rx.keepBytes, recorder]) (f.data.length + 1)
    ⟨Mem.ofList f.data, 0, f.data.length⟩ []
  rw [hloop, List.map_nil, List.append_nil, Option.map_some] at hmap
  -- and memory behind the data does not matter
  have hcongr := Layer3Rx.forMessages_congr
    (g := fun bs s => s ++ [Event.processRxMessage bs f.dest.toUInt16 f.src.toUInt16])
    (length_lt f) (fun k hk => (m.eq_ofList_of_read hm hk).symm) hok .start s
    (f.data.length + 1)
  have hrec : (fun msg => recorder.processRxMessage msg f.dest.toUInt16 f.src.toUInt16) =
      fun msg s => s ++ [.processRxMessage (messageBytes msg) f.dest.toUInt16 f.src.toUInt16] :=
    rfl
  rw [hrec] at hmap ⊢
  rw [hmap] at hcongr
  obtain ⟨⟨rc', layer3', s'⟩, hrun, hout⟩ := Option.map_eq_some_iff.1 hcongr.symm
  simp only [Layer3Rx.outcome, Prod.mk.injEq] at hout
  obtain ⟨-, rfl⟩ := hout
  exact ⟨rc', layer3', hrun⟩

/-- A ready frame is handled as its events. -/
theorem handlePacket_frame {p : TProtocol} {f : Frame} (hready : p.layer2.Tracks (.ready f.bytes))
    (hok : PayloadOk f) (s : List Event) :
    ∃ p', p.handlePacket recorder s = some (p', s ++ frameEvents f) := by
  obtain ⟨hptr, hblock⟩ := DataIOLayer2.getRxDataPtr_ready hready
  obtain ⟨rc, layer3, hloop⟩ :=
    forMessages_recorder hok hblock (s ++ [Event.onBeginRxPacketProcess])
  have hread : p.layer3.readPacket p.layer2 =
      (⟨p.layer2.packet.shift 10, 0, f.data.length⟩, some (f.dest.toUInt16, f.src.toUInt16)) := by
    rw [Layer3Rx.readPacket, hptr]
  have hbegin : recorder.onBeginRxPacketProcess s = s ++ [Event.onBeginRxPacketProcess] := rfl
  have hevents : recorder.onEndRxPacketProcess f.src.toUInt16
      (s ++ [Event.onBeginRxPacketProcess] ++ (messagesOf f.data).map
        (Event.processRxMessage · f.dest.toUInt16 f.src.toUInt16)) = s ++ frameEvents f := by
    simp [recorder, frameEvents]
  rw [handlePacket, hread]
  simp only [Option.getD_some, Layer3Rx.rxDataSize_mk, Nat.sub_zero, hbegin, hloop, hevents]
  exact ⟨_, rfl⟩

/-- What holds of a protocol between frames. -/
structure AtRest (st : Station) (p : TProtocol) : Prop where
  wait : p.layer2.state = .stWait
  station : p.layer2.station = st

variable {st : Station}

/-- **A frame for this station** is handled at its last octet. -/
theorem rxBytes_frame {f : Frame} (hrest : AtRest st p) (hmine : st.Mine f.dest)
    (hdata : f.data ≠ []) (hok : PayloadOk f) (rc : ℤ) (s : List Event) :
    ∃ p', rxBytes recorder f.bytes rc p s = some ⟨2, [], p', s ++ frameEvents f⟩ ∧
      AtRest st p' := by
  obtain ⟨hwait, rfl⟩ := hrest
  obtain ⟨hrcs, hready, hst⟩ := DataIOLayer2.feed_frame hwait hdata hmine
  have hquiet : ∀ r ∈ (0 : ℤ) :: List.replicate (f.data.length + 8) 1, r ≠ 2 ∧ r ≠ 3 := by
    simp
  obtain ⟨p', hp'⟩ := handlePacket_frame (p := { p with layer2 := (p.layer2.feed f.bytes).2 })
    hready hok s
  refine ⟨p', ?_, ?_⟩
  · rw [rxBytes_ready rc hrcs hquiet, hp', Option.map_some]
  · have hl2 := (handlePacket_eq _ _ hp').1
    exact ⟨by rw [hl2]; rfl, by rw [hl2]; exact hst⟩

/-- Behind its header, a frame for another station holds no preamble, and it does not end with the
first octet of one. -/
def QuietTail (f : Frame) : Prop :=
  Receiver.NoPreamble f.tail ∧ f.tail.getLast? ≠ some layer2PreambleB0

/-- A frame for another station is passed over. -/
theorem rxBytes_foreign {f : Frame} (hrest : AtRest st p) (hlt : st.lt = false)
    (hforeign : ¬ st.Mine f.dest) (hquiet : QuietTail f) (rc : ℤ) :
    ∃ p', rxBytes h f.bytes rc p s = some ⟨rc, [], p', s⟩ ∧ AtRest st p' := by
  obtain ⟨hwait, rfl⟩ := hrest
  obtain ⟨hrcs, hwait', hst⟩ := DataIOLayer2.feed_foreign hwait hlt hforeign hquiet.1 hquiet.2
  exact ⟨_, rxBytes_quiet rc hrcs, hwait', hst⟩

/-- **Frames one after another**: the events of those for this station. -/
theorem rxBytes_frames (frames : List Frame) (hrest : AtRest st p) (hlt : st.lt = false)
    (hmine : ∀ f ∈ frames, st.Mine f.dest → f.data ≠ [] ∧ PayloadOk f)
    (hforeign : ∀ f ∈ frames, ¬ st.Mine f.dest → QuietTail f) (rc : ℤ) (s : List Event) :
    ∃ o, rxBytes recorder (frames.flatMap Frame.bytes) rc p s = some o ∧
      o.handled = s ++ (frames.filter fun f => st.Mine f.dest).flatMap frameEvents := by
  induction frames generalizing p rc s with
  | nil => exact ⟨⟨rc, [], p, s⟩, rfl, by simp⟩
  | cons f frames ih =>
    simp only [List.forall_mem_cons] at hmine hforeign
    have hlt' : p.layer2.enableDataIOLt = false := by
      rw [← hlt, ← hrest.station]
      rfl
    rw [List.flatMap_cons, rxBytes_append hlt']
    by_cases hf : st.Mine f.dest
    · obtain ⟨hdata, hok⟩ := hmine.1 hf
      obtain ⟨p', hp', hrest'⟩ := rxBytes_frame hrest hf hdata hok rc s
      obtain ⟨o, ho, hev⟩ := ih hrest' hmine.2 hforeign.2 2 (s ++ frameEvents f)
      refine ⟨o, by rw [hp']; exact ho, ?_⟩
      rw [hev, List.filter_cons_of_pos (by simpa using hf), List.flatMap_cons, List.append_assoc]
    · obtain ⟨p', hp', hrest'⟩ := rxBytes_foreign (h := recorder) (s := s) hrest hlt hf
        (hforeign.1 hf) rc
      obtain ⟨o, ho, hev⟩ := ih hrest' hmine.2 hforeign.2 rc s
      refine ⟨o, by rw [hp']; exact ho, ?_⟩
      rw [hev, List.filter_cons_of_neg (by simpa using hf)]

/-- The events of calls without a silence between them, whose octets are those of frames. -/
theorem processCalls_frames {now : UInt32} {bytes : List UInt8}
    {calls : List (UInt32 × List UInt8)} {frames : List Frame}
    (hlater : ((now, bytes) :: calls).IsChain fun a b => Hal.difftime a.1 b.1 < p.rxTimeout)
    (hsplit : ((now, bytes) :: calls).flatMap Prod.snd = frames.flatMap Frame.bytes)
    (hrest : AtRest p.layer2.station (p.beginInput now false))
    (hlt : p.layer2.enableDataIOLt = false)
    (hmine : ∀ f ∈ frames, p.layer2.station.Mine f.dest → f.data ≠ [] ∧ PayloadOk f)
    (hforeign : ∀ f ∈ frames, ¬ p.layer2.station.Mine f.dest → QuietTail f) (s : List Event) :
    (processCalls recorder ((now, bytes) :: calls) p s).map Prod.snd =
      some (s ++ (frames.filter fun f => p.layer2.station.Mine f.dest).flatMap frameEvents) := by
  obtain ⟨o, ho, hev⟩ := rxBytes_frames frames hrest hlt hmine hforeign 0 s
  have hview := processCalls_view (h := recorder) (s := s) now bytes calls hlt hlater
  rw [hsplit, ho] at hview
  have hsnd := congrArg (Option.map fun v => v.2.2) hview
  simp only [Option.map_map, Option.map_some, view] at hsnd
  rw [← hev]
  exact hsnd

/-! ## Whole streams -/

/-- **Chunking does not matter.** In whatever state the receiver was left, after a silence of at
least `rxTimeout` a stream of frames for this station is delivered as one begin, the messages and
one end for each frame, in order: the same for every way of cutting the stream into calls that
follow one another within `rxTimeout` as for one call with all octets. (Each call stores its tick
in `rxTicks`, so the later calls are compared with the call before them.) -/
theorem chunking (p : TProtocol) (hlt : p.layer2.enableDataIOLt = false) (frames : List Frame)
    (hframes : ∀ f ∈ frames,
      (f.dest = p.layer2.selfAddress ∨ f.dest = p.layer2.broadcastAddress) ∧ f.data ≠ [] ∧
        PayloadOk f)
    (now : UInt32) (bytes : List UInt8) (calls : List (UInt32 × List UInt8))
    (hfirst : Hal.difftime p.rxTicks now ≥ p.rxTimeout)
    (hlater : ((now, bytes) :: calls).IsChain fun a b => Hal.difftime a.1 b.1 < p.rxTimeout)
    (hsplit : ((now, bytes) :: calls).flatMap Prod.snd = frames.flatMap Frame.bytes) :
    (processCalls recorder ((now, bytes) :: calls) p []).map Prod.snd =
        some (frames.flatMap frameEvents) ∧
      (p.processInputData recorder now (frames.flatMap Frame.bytes) false []).map
        InputOut.handled = some (frames.flatMap frameEvents) := by
  have hrest : AtRest p.layer2.station (p.beginInput now false) := by
    rw [beginInput_silence hfirst]
    exact ⟨rfl, rfl⟩
  have hmine : ∀ f ∈ frames, p.layer2.station.Mine f.dest → f.data ≠ [] ∧ PayloadOk f :=
    fun f hf _ => (hframes f hf).2
  have hforeign : ∀ f ∈ frames, ¬ p.layer2.station.Mine f.dest → QuietTail f :=
    fun f hf hno => absurd (hframes f hf).1 hno
  have hall : frames.filter (fun f => p.layer2.station.Mine f.dest) = frames :=
    List.filter_eq_self.2 fun f hf => decide_eq_true (hframes f hf).1
  constructor
  · have hcalls := processCalls_frames hlater hsplit hrest hlt hmine hforeign []
    rwa [hall] at hcalls
  · obtain ⟨o, ho, hev⟩ := rxBytes_frames frames hrest hlt hmine hforeign 0 []
    rw [hall] at hev
    rw [processInputData, ho, Option.map_some, hev]
    rfl

/-- A station with the address 9 at rest, with a timeout of 100 ticks. -/
def listener : TProtocol where
  layer2 := ⟨fun _ => 0, fun _ => 0, .stWait, 0, 0, 9, 0xFF, false⟩
  layer3 := ⟨fun _ => 0, 0, 0⟩
  rxTimeout := 100
  rxTicks := 0
  srcAddress := 0

/-- A frame for that station with one `MsgParameterRead`. -/
def readFrame : Frame := ⟨9, 1, [0x11, 1, 5, 0], by decide⟩

theorem payloadOk_readFrame : PayloadOk readFrame := by
  have hne : ∀ i < 4, Mem.ofList [0x11, 1, 5, 0] i ≠ msgAppType := by decide
  exact fun i _ hlt happ => absurd happ (hne i hlt)

/-- Two such frames, cut inside the first preamble and inside the second header. -/
theorem chunking_two :
    (processCalls recorder [(500, [0xAA]), (510, readFrame.bytes.drop 1 ++ readFrame.bytes.take 5),
        (520, readFrame.bytes.drop 5)] listener []).map Prod.snd =
        some ([readFrame, readFrame].flatMap frameEvents) ∧
      (listener.processInputData recorder 500 ([readFrame, readFrame].flatMap Frame.bytes) false
        []).map InputOut.handled = some ([readFrame, readFrame].flatMap frameEvents) := by
  have hframe : (readFrame.dest = listener.layer2.selfAddress ∨
      readFrame.dest = listener.layer2.broadcastAddress) ∧ readFrame.data ≠ [] ∧
      PayloadOk readFrame := ⟨.inl rfl, by decide, payloadOk_readFrame⟩
  exact chunking listener rfl [readFrame, readFrame]
    (List.forall_mem_cons.2 ⟨hframe, List.forall_mem_singleton.2 hframe⟩) 500 [0xAA] _ (by decide)
    (by decide) (by decide +kernel)

/-- **Filtering on a shared line.** A waiting receiver that is fed frames for any stations, back to
back and without a silence, delivers exactly those for its own addresses, each once and in order,
if the frames for other stations hold no preamble behind their headers. -/
theorem filtering (p : TProtocol) (hwait : p.layer2.state = .stWait)
    (hlt : p.layer2.enableDataIOLt = false) (frames : List Frame)
    (hdata : ∀ f ∈ frames, f.data ≠ [])
    (hown : ∀ f ∈ frames, p.layer2.station.Mine f.dest → PayloadOk f)
    (hforeign : ∀ f ∈ frames, ¬ p.layer2.station.Mine f.dest → QuietTail f)
    (now : UInt32) (bytes : List UInt8) (calls : List (UInt32 × List UInt8))
    (hfirst : Hal.difftime p.rxTicks now < p.rxTimeout)
    (hlater : ((now, bytes) :: calls).IsChain fun a b => Hal.difftime a.1 b.1 < p.rxTimeout)
    (hsplit : ((now, bytes) :: calls).flatMap Prod.snd = frames.flatMap Frame.bytes) :
    (processCalls recorder ((now, bytes) :: calls) p []).map Prod.snd =
      some ((frames.filter fun f => p.layer2.station.Mine f.dest).flatMap frameEvents) := by
  have hrest : AtRest p.layer2.station (p.beginInput now false) := by
    rw [beginInput_quiet hfirst]
    exact ⟨hwait, rfl⟩
  exact processCalls_frames hlater hsplit hrest hlt (fun f hf hm => ⟨hdata f hf, hown f hf hm⟩)
    hforeign []

/-- A frame for station 8 without a preamble in it, and one for station 9. -/
theorem filtering_two :
    (processCalls recorder [(10, Frame.bytes ⟨8, 1, [1, 2], by decide⟩), (20, readFrame.bytes)]
      listener []).map Prod.snd = some (frameEvents readFrame) := by
  have hquiet : QuietTail ⟨8, 1, [1, 2], by decide⟩ := by
    constructor <;> decide +kernel
  have hrun := filtering listener rfl rfl [⟨8, 1, [1, 2], by decide⟩, readFrame] (by decide)
    (List.forall_mem_cons.2 ⟨fun hm => absurd hm (by decide),
      List.forall_mem_singleton.2 fun _ => payloadOk_readFrame⟩)
    (List.forall_mem_cons.2 ⟨fun _ => hquiet,
      List.forall_mem_singleton.2 fun hm => absurd (by decide) hm⟩)
    10 (Frame.bytes ⟨8, 1, [1, 2], by decide⟩) [(20, readFrame.bytes)] (by decide) (by decide)
    (by simp)
  rw [hrun]
  rfl

/-- A frame for station 8 whose data is a preamble swallows the frame for station 9 behind it. -/
theorem foreign_swallows :
    ¬ (processCalls recorder
        [(10, [⟨8, 1, [0xAA, 0x55], by decide⟩, readFrame].flatMap Frame.bytes)] listener []).map
        Prod.snd =
      some (([⟨8, 1, [0xAA, 0x55], by decide⟩, readFrame].filter
        fun f => listener.layer2.station.Mine f.dest).flatMap frameEvents) := by
  decide +kernel

end TProtocol

end KS3.Protocol
