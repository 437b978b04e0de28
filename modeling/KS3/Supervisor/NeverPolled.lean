import KS3.Protocol.Assembly
import KS3.Poll.Acknowledge
import KS3.Supervisor.Keeps
import KS3.Supervisor.NetworkState

/-!
# The slaves are never asked for data

The table of slaves is set up, and the polling is started and stopped with the network, but no task
calls `p_slave_data_io::process`. So the machine that polls the slaves stays at the first of them.

* `only_acknowledges`: in every run, all that the concentrator says on the local bus is that it has
  got blocks;
* `other_slaves_dropped`: in every run, a block from a slave other than the first of the table is
  acknowledged and not stored.
-/

namespace KS3.Supervisor

open Comm DataIO Protocol Net Udp Poll Buffers

/-! ## What the master is to send -/

/-- A packet of acknowledges and nothing else. -/
def AckPacket (packet : Protocol.Packet) : Prop :=
  ∃ dest reserved sn acks octets written,
    packet = .frame dest (TMasterTx.messages reserved sn acks).flatten octets written ∧
      acks ≠ [] ∧ ∀ rq ∈ acks, Acknowledges rq rq.address

/-- The requests in the queue are acknowledges, and so was all that has been sent. -/
structure OnlyAcks {τ : Type*} (m : TMasterTx τ) : Prop where
  requests : ∀ rq ∈ m.txQueue.toList, rq.Ok ∧ Acknowledges rq rq.address
  limit : m.protocol.layer3.maxTxAppSize = maxLayer2DataSize
  packets : ∀ packet ∈ m.protocol.packets, AckPacket packet

namespace OnlyAcks

variable {τ : Type*} (bus : LocalBus τ) {m : TMasterTx τ}

/-- **A call of `process`** makes a packet of acknowledges, if it makes one. -/
theorem process (h : OnlyAcks m) (now : UInt32) : OnlyAcks (m.process bus now) := by
  have hok (rq : TTxRequest) (hrq : rq ∈ m.txQueue.toList) : rq.Ok := (h.requests rq hrq).1
  obtain hsame | ⟨rq, rqs, hstate, hfree, hqueue, hdone⟩ | ⟨-, -, hout⟩ | ⟨-, -, hout⟩ :=
    TMasterTx.process_cases bus hok h.limit now
  · rw [hsame]
    exact h
  · rw [hqueue] at hok
    have hbegins : TMasterTx.batch (rq :: rqs) <+: rq :: rqs :=
      (TMasterTx.longest_batch (rq :: rqs)).begins
    obtain ⟨written, -, hpackets⟩ :=
      TMasterTx.packets_process bus hstate hfree hqueue hok h.limit now
    rw [TMasterTx.payload_fill bus hqueue hok h.limit] at hpackets
    refine ⟨fun rq' hrq' => h.requests rq' ?_, hdone.limit.trans h.limit, ?_⟩
    · rw [hdone.queue]
      exact List.mem_append_right _ hrq'
    · rw [hpackets]
      refine List.forall_mem_append.2 ⟨h.packets, List.forall_mem_singleton.2
        ⟨_, _, _, _, _, _, rfl, fun hnil => ?_, fun rq' hrq' => ?_⟩⟩
      · exact (TMasterTx.payloadSize_batch hok).1 (by rw [hnil]; rfl)
      · exact (h.requests rq' (hqueue ▸ hbegins.subset hrq')).2
  · rw [hout]
    exact ⟨h.requests, h.limit, h.packets⟩
  · rw [hout]
    exact ⟨h.requests, h.limit, h.packets⟩

/-- A request that acknowledges is queued. -/
theorem push {q : TQueue TTxRequest}
    (h : ∀ rq ∈ q.toList, rq.Ok ∧ Acknowledges rq rq.address) {rq : TTxRequest} (hok : rq.Ok)
    (hack : Acknowledges rq rq.address) :
    ∀ rq' ∈ (q.push rq).toList, rq'.Ok ∧ Acknowledges rq' rq'.address := by
  rw [TQueue.toList_push]
  split_ifs
  · exact h
  · exact List.forall_mem_append.2 ⟨h, List.forall_mem_singleton.2 ⟨hok, hack⟩⟩

/-- The acknowledges that are queued have the size of a packet number. -/
theorem ack_ok (address : UInt16) (data flags : UInt32) :
    (⟨msgAppType.toUInt16, address, 0x110002, data, flags⟩ : TTxRequest).Ok :=
  ⟨.inr (.inr (.inr rfl)), fun _ => (by decide : (loWord 0x110002).toNat ≤ 4)⟩

theorem ackStored_eq (q : TQueue TTxRequest) (src : UInt16) (block : TDataBuffer) :
    SlavePoll.ackStored q src block =
      q.push ⟨msgAppType.toUInt16, src, 0x110002, block.packet.toUInt32, 0⟩ := rfl

/-- **A message from a slave** makes the concentrator acknowledge, at most. -/
theorem rxMessageHandler {σ : Type*} (dataHandler : TDataBuffer → UInt16 → σ → ℤ × σ)
    {q : TQueue TTxRequest} (h : ∀ rq ∈ q.toList, rq.Ok ∧ Acknowledges rq rq.address)
    (p : SlavePoll) (s : σ) (msg : Mem) (src : UInt16) :
    ∀ rq ∈ (p.rxMessageHandler dataHandler q s msg src).2.1.toList,
      rq.Ok ∧ Acknowledges rq rq.address := by
  rw [SlavePoll.rxMessageHandler]
  split_ifs with happ
  · by_cases hdata : msg.word 2 = kDataId
    · have hfirst : ∀ rq ∈ (q.push (dataAck src)).toList, _ :=
        push h (ack_ok ..) (acknowledges_dataAck src)
      rw [SlavePoll.handleMsgAppType_data _ _ _ _ _ hdata rfl, sendDataAck_eq]
      simp only
      split_ifs
      · rw [ackStored_eq]
        exact push hfirst (ack_ok ..)
          ⟨rfl, rfl, (by decide : (0x110002 : UInt32) >>> 16 = msgAppDataAcknowledge.toUInt32)⟩
      · exact hfirst
    · rw [SlavePoll.handleMsgAppType, if_neg hdata]
      split_ifs <;> exact h
  · exact h

end OnlyAcks

/-! ## What all tasks keep -/

/-- The machine that polls the slaves is at the first of them, whose address is not known before the
table is set up and 1 afterwards; and the master sends acknowledges only. -/
structure Unpolled {τ : Type*} (d : Concentrator τ) : Prop where
  index : d.slPoll.index = 0
  address : (d.slPoll.slaves 0).address = 0 ∨ (d.slPoll.slaves 0).address = 1
  master : OnlyAcks d.masterTxLocal

namespace Unpolled

open Concentrator

variable {τ : Type*} (bus : LocalBus τ) {d : Concentrator τ}

theorem of_eq {d' : Concentrator τ} (h : Unpolled d) (hpoll : d'.slPoll = d.slPoll)
    (hmaster : d'.masterTxLocal = d.masterTxLocal) : Unpolled d' := by
  obtain ⟨hindex, haddress, hacks⟩ := h
  rw [← hpoll] at hindex haddress
  rw [← hmaster] at hacks
  exact ⟨hindex, haddress, hacks⟩

theorem monitorHandleEvent (h : Unpolled d) (msg : TCMessage) :
    Unpolled (d.monitorHandleEvent msg) := by
  unfold Concentrator.monitorHandleEvent
  split_ifs
  · exact ⟨h.index, .inr rfl, h.master⟩
  · exact ⟨h.index, h.address, h.master⟩
  · exact ⟨h.index, h.address, h.master⟩
  · exact h

theorem initProcess (h : Unpolled d) (now : UInt32) : (d.initProcess now).All Unpolled := by
  unfold Concentrator.initProcess
  split
  · exact h.of_eq rfl rfl
  · exact h.of_eq rfl rfl
  · have hactive : Unpolled ((d.activateMac now).activateUdp) := by
      refine h.of_eq ?_ ?_ <;>
        (unfold activateUdp activateMac; split_ifs <;> rfl)
    refine Code.All.map (P := Unpolled) (fun d' h' => h'.of_eq rfl rfl) ?_
    unfold activateMonitor
    split_ifs
    · exact fun _ => hactive.of_eq rfl rfl
    · exact hactive
  · exact h

/-- **Every method of every task keeps it.** -/
theorem tasks : (Concentrator.tasks bus).Keeps Unpolled where
  process i d h := by
    rcases i with _ | _ | _ | _ | i
    · exact ⟨h.index, h.address, h.master.process bus _⟩
    · exact Code.All.map (fun _ _ => h.of_eq rfl rfl) (Code.all_true _)
    · exact Code.All.map (fun _ _ => h.of_eq rfl rfl) (Code.all_true _)
    · exact h.initProcess _
    · exact h
  handleEvent i msg d h := by
    rcases i with _ | _ | _ | i
    · exact h.monitorHandleEvent msg
    · exact h.of_eq rfl rfl
    · exact h.of_eq rfl rfl
    · exact h

/-- What happens on the local bus keeps it. -/
theorem busEvent (h : Unpolled d) (e : BusEvent τ) : Unpolled (d.busEvent e) := by
  obtain ⟨hindex, haddress, hrequests, hlimit, hpackets⟩ := h
  cases e with
  | layer1 lower => exact ⟨hindex, haddress, hrequests, hlimit, hpackets⟩
  | onRxSlaveData now =>
    simp only [Concentrator.busEvent, TMasterTx.onRxSlaveData]
    split_ifs <;> exact ⟨hindex, haddress, hrequests, hlimit, hpackets⟩
  | onBeginRxPacketProcess srcAddress => exact ⟨hindex, haddress, hrequests, hlimit, hpackets⟩
  | onRxSlavePacket now =>
    simp only [Concentrator.busEvent, TMasterTx.onRxSlavePacket]
    split_ifs <;> exact ⟨hindex, haddress, hrequests, hlimit, hpackets⟩
  | message msg src =>
    obtain ⟨-, hkeepsIndex, hkeepsAddress⟩ := rxMessageHandler_keeps SlavePoll.writeData d.slPoll
      d.masterTxLocal.txQueue d.buffers msg src
    have hacks := OnlyAcks.rxMessageHandler SlavePoll.writeData hrequests d.slPoll d.buffers msg src
    refine ⟨hkeepsIndex.trans hindex, ?_, hacks, hlimit, hpackets⟩
    have hsame := hkeepsAddress 0
    exact haddress.imp hsame.trans hsame.trans

theorem foldl_busEvent (h : Unpolled d) (es : List (BusEvent τ)) :
    Unpolled (es.foldl Concentrator.busEvent d) := by
  induction es generalizing d with
  | nil => exact h
  | cons e es ih => exact ih (h.busEvent e)

/-- A pass of the main loop keeps it. -/
theorem loop {s s' : TSupervisor (Concentrator τ)} (h : Unpolled s.app) (e : Pass τ)
    (hs : Concentrator.loop bus s e = some s') : Unpolled s'.app := by
  have hpass : Unpolled { s.app with pass := e } := h.of_eq rfl rfl
  exact processMessages_keeps (tasks bus)
    (processTasks_keeps (tasks bus) (hpass.foldl_busEvent e.bus)) hs

end Unpolled

/-! ## Runs -/

namespace Concentrator

section Start

variable {τ : Type*} (bus : LocalBus τ) (pass : Pass τ) (now : UInt32) (memory : Mem) (raw : ℕ)
  (cells : ℕ → UdpData) (blocks : ℕ → TDataBuffer) (messageBuffer : ℕ → TCMessage)
  (address srcAddress : UInt16) (layer3 : Layer3Tx) (lower : τ) (requests : ℕ → TTxRequest)
  (T E : UInt32)

/-- `masterTxLocal` after construction: its queue is empty, and it has sent nothing. -/
def masterStart : TMasterTx τ :=
  (Line.init address srcAddress layer3 lower requests T E 0).master

theorem start_unpolled :
    Unpolled (start pass now (masterStart address srcAddress layer3 lower requests T E) memory raw
      cells blocks messageBuffer).app := by
  refine ⟨rfl, .inl rfl, fun rq hrq => ?_, ?_, fun packet hpacket => ?_⟩
  · exact absurd hrq List.not_mem_nil
  · exact (Line.ok_init address srcAddress layer3 lower requests T E 0).limit
  · exact absurd hpacket List.not_mem_nil

/-- The run, with what it keeps. -/
theorem run_unpolled (es : List (Pass τ)) :
    ∃ s, es.foldlM (loop bus) (start pass now
        (masterStart address srcAddress layer3 lower requests T E) memory raw cells blocks
        messageBuffer) = some s ∧ Unpolled s.app := by
  obtain ⟨s, hs, -⟩ := run_ok bus
    (start_calm pass now (masterStart address srcAddress layer3 lower requests T E) memory raw
      cells blocks messageBuffer) es
  exact ⟨s, hs, foldlM_keeps (I := fun s => Unpolled s.app)
    (fun _ e _ h hs => Unpolled.loop bus h e hs) (start_unpolled ..) hs⟩

/-- **The slaves are never asked for data**: whatever a run of the main loop meets, every packet the
concentrator has sent on the local bus consists of acknowledges, one or more, and nothing else waits
to be sent. -/
theorem only_acknowledges (es : List (Pass τ)) :
    ∃ s, es.foldlM (loop bus) (start pass now
        (masterStart address srcAddress layer3 lower requests T E) memory raw cells blocks
        messageBuffer) = some s ∧
      (∀ packet ∈ s.app.masterTxLocal.protocol.packets, AckPacket packet) ∧
      ∀ rq ∈ s.app.masterTxLocal.txQueue.toList, Acknowledges rq rq.address := by
  obtain ⟨s, hs, h⟩ := run_unpolled bus pass now memory raw cells blocks messageBuffer address
    srcAddress layer3 lower requests T E es
  exact ⟨s, hs, h.master.packets, fun rq hrq => (h.master.requests rq hrq).2⟩

/-- A data message from a slave. -/
def DataMessage (msg : Mem) : Prop := msg 0 = msgAppType ∧ msg.word 2 = kDataId

/-- **The blocks of the other slaves are lost**: in every run, when a block arrives, at any point of
a pass, from a slave whose address is not that of the first in the table, it is acknowledged if
there is room for a request, and the container is what it was. -/
theorem other_slaves_dropped (es : List (Pass τ)) (e : Pass τ) (bs : List (BusEvent τ)) {msg : Mem}
    (hmsg : DataMessage msg) {src : UInt16} (hnone : src ≠ 0) (hother : src ≠ slavesAddress 0) :
    ∃ s, es.foldlM (loop bus) (start pass now
        (masterStart address srcAddress layer3 lower requests T E) memory raw cells blocks
        messageBuffer) = some s ∧
      let d := bs.foldl busEvent { s.app with pass := e }
      (d.busEvent (.message msg src)).buffers = d.buffers ∧
        (d.busEvent (.message msg src)).masterTxLocal.txQueue =
          d.masterTxLocal.txQueue.push (dataAck src) := by
  obtain ⟨s, hs, h⟩ := run_unpolled bus pass now memory raw cells blocks messageBuffer address
    srcAddress layer3 lower requests T E es
  refine ⟨s, hs, ?_⟩
  intro d
  have hpass : Unpolled { s.app with pass := e } := h.of_eq rfl rfl
  obtain ⟨hindex, haddress, -⟩ : Unpolled d := hpass.foldl_busEvent bs
  have hpolled : d.slPoll.polled = d.slPoll.slaves 0 := by rw [SlavePoll.polled, hindex]
  have hne : ¬ d.slPoll.Passes src (blockOfMem (msg.shift 6)) := by
    rintro ⟨hsrc, -⟩
    rw [hpolled] at hsrc
    rcases haddress with h0 | h1
    · exact hnone (hsrc.trans h0)
    · exact hother (hsrc.trans h1)
  have hhandler : d.slPoll.rxMessageHandler SlavePoll.writeData d.masterTxLocal.txQueue d.buffers
      msg src = (d.slPoll.note src (blockOfMem (msg.shift 6)),
        d.masterTxLocal.txQueue.push (dataAck src), d.buffers) := by
    rw [SlavePoll.rxMessageHandler, if_pos hmsg.1,
      SlavePoll.handleMsgAppType_data _ _ _ _ _ hmsg.2 rfl, if_neg hne, if_neg fun h => hne h.1,
      sendDataAck_eq]
  rw [busEvent, hhandler]
  exact ⟨rfl, rfl⟩

end Start

/-- A pass in which nothing arrives. -/
def quietPass : Pass ℕ := ⟨[], fun _ => 0, ⟨false, fun _ => 0⟩, [], ⟨true, [], true, true⟩, []⟩

/-- The concentrator at the start, with the timeouts of the device. -/
def quietStart : TSupervisor (Concentrator ℕ) :=
  start quietPass 0 (masterStart 0 0 ⟨fun _ => 0, 0, 0⟩ 1000 (fun _ => ⟨0, 0, 0, 0, 0⟩) 20 2)
    (fun _ => 0) 0 (fun _ => ⟨0, 0, none, none⟩) (fun _ => ⟨0, 0, 0, fun _ => 0⟩)
    (fun _ => default)

/-- A message with the block of the number 7, which has two octets. -/
def seventhBlock : Mem :=
  Mem.write (fun _ => 0) 0 (appMessage 0 kDataId [7, 0, 1, 0, 0, 0, 0, 0, 5, 6])

/-- The second slave of the table. -/
theorem other_slaves_dropped_second :
    DataMessage seventhBlock ∧ slavesAddress 1 = 2 ∧
      ∃ s, (List.replicate 3 quietPass).foldlM (loop Line.uart) quietStart = some s ∧
        let d := [BusEvent.onRxSlaveData 3].foldl busEvent { s.app with pass := quietPass }
        (d.busEvent (.message seventhBlock 2)).buffers = d.buffers ∧
          (d.busEvent (.message seventhBlock 2)).masterTxLocal.txQueue =
            d.masterTxLocal.txQueue.push (dataAck 2) :=
  have hdata : DataMessage seventhBlock := ⟨appMessage_id .., appMessage_type ..⟩
  ⟨hdata, rfl, other_slaves_dropped Line.uart quietPass 0 (fun _ => 0) 0
    (fun _ => ⟨0, 0, none, none⟩) (fun _ => ⟨0, 0, 0, fun _ => 0⟩) (fun _ => default) 0 0
    ⟨fun _ => 0, 0, 0⟩ 1000 (fun _ => ⟨0, 0, 0, 0, 0⟩) 20 2 (List.replicate 3 quietPass) quietPass
    [.onRxSlaveData 3] hdata (by decide) (by decide)⟩

end Concentrator

end KS3.Supervisor
