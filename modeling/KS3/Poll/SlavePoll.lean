import KS3.Protocol.TxQueue
import KS3.Protocol.TProtocol
import KS3.Buffers.DataBuffers

/-!
# `SlavePoll`: polling the slaves and taking their blocks

The machine asks the slaves in turn for data (`process`), and takes what they answer: a block of
data (`handleData`) or the notice that there is none (`handleNoData`). `handleMsgAppType` is what
the receiver of the local bus calls for each message.

The handler of blocks, `dataHandler`, is a parameter that acts on a state of its own; in the device
it is `data_buffers::writeBuffer` on the container of buffers (`writeData`).
-/

namespace KS3.Poll

open Comm DataIO Protocol Buffers

/-! ## Data -/

/-- `kMaxSlaves`. -/
def kMaxSlaves : ℕ := 4

instance : NeZero kMaxSlaves := ⟨by decide⟩

/-- `kPnBufferFree`, as it is assigned to a packet number. -/
def kPnBufferFree : UInt16 := 0xFFFF

/-- `rq_res_t`. -/
inductive RqRes
  | kResIdle
  | kResWait
  | kResRcvData
  | kResNoData
  | kResTimeout
  deriving DecidableEq

/-- `state_t`. -/
inductive PollState
  | kStIdle
  | kStStart
  | kStStartPeriod
  | kStSendRq
  | kStWait
  | kStNext
  | kStWaitRqInterval
  | kStStop
  deriving DecidableEq

/-- `slave_info_t`. -/
structure SlaveInfo where
  address : UInt16
  packet : UInt16
  state : RqRes

/-- The data members of `SlavePoll`. The sequence number is not among them: nothing reads it. -/
structure SlavePoll where
  state : PollState
  slaves : Fin kMaxSlaves → SlaveInfo
  rqPeriod : UInt32
  rqTimeout : UInt32
  tmPeriod : UInt32
  tmRq : UInt32
  index : Fin kMaxSlaves
  rcvData : Bool
  rcvNoData : Bool

/-- The block of data at a pointer into a message. -/
def blockOfMem (m : Mem) : TDataBuffer where
  packet := m.word 0
  size := m.word 2
  sync := (m.word 4).toUInt32 ||| ((m.word 6).toUInt32 <<< 16)
  data := m.shift 8

namespace SlavePoll

/-- The machine after construction, `configure` and `setup`; a static object is zero before. -/
def init (period timeout : UInt32) (address : Fin kMaxSlaves → UInt16) : SlavePoll where
  state := .kStIdle
  slaves i := ⟨address i, 0, .kResIdle⟩
  rqPeriod := period
  rqTimeout := timeout
  tmPeriod := 0
  tmRq := 0
  index := 0
  rcvData := false
  rcvNoData := false

/-- The slave the machine is at: `slaves[index]`. -/
def polled (p : SlavePoll) : SlaveInfo := p.slaves p.index

/-- Replace what is known of that slave. -/
def setPolled (p : SlavePoll) (info : SlaveInfo) : SlavePoll :=
  { p with slaves := Function.update p.slaves p.index info }

/-! ## Requests -/

/-- `sendRequest`. -/
def sendRequest (q : TQueue TTxRequest) (addr : UInt16) : TQueue TTxRequest :=
  (addTxMsgApp q addr msgAppRequestData.toUInt32 0 0 (fBreakPacket ||| fRqAnswer) linkIdLocal).2

/-- `sendDataAck`. The packet number is not used: the data of the message are its own size. -/
def sendDataAck (q : TQueue TTxRequest) (addr _pn : UInt16) : TQueue TTxRequest :=
  let dataSize : UInt32 := 2
  (addTxMsgApp q addr msgAppDataAcknowledge.toUInt32 2 dataSize (fBreakPacket ||| fRqAnswer)
    linkIdLocal).2

/-- `start`. -/
def start (p : SlavePoll) : SlavePoll := { p with state := .kStStart }

/-- `stop`. -/
def stop (p : SlavePoll) : SlavePoll := { p with state := .kStStop }

/-- `TIMEOUT(timer, msec)`. -/
def timeout (now timer msec : UInt32) : Bool := Hal.difftime timer now ≥ msec

/-- `process`, at the tick `now`. -/
def process (p : SlavePoll) (now : UInt32) (q : TQueue TTxRequest) :
    SlavePoll × TQueue TTxRequest :=
  match p.state with
  | .kStIdle => (p, q)
  | .kStStart =>
    ({ p with
        slaves := fun i => { p.slaves i with packet := kPnBufferFree }
        state := .kStStartPeriod }, q)
  | .kStStop => ({ p with state := .kStIdle }, q)
  | .kStStartPeriod => ({ p with index := 0, tmPeriod := now, state := .kStSendRq }, q)
  | .kStSendRq =>
    if p.polled.address > 0 then
      ({ p.setPolled { p.polled with state := .kResWait } with
          rcvData := false
          rcvNoData := false
          tmRq := now
          state := .kStWaitRqInterval }, sendRequest q p.polled.address)
    else
      ({ p with state := .kStNext }, q)
  | .kStWait =>
    if timeout now p.tmRq p.rqTimeout then
      ({ p.setPolled { p.polled with state := .kResTimeout } with state := .kStNext }, q)
    else if p.rcvData then
      ({ p with state := .kStNext }, q)
    else if p.rcvNoData then
      ({ p with state := .kStNext }, q)
    else
      (p, q)
  | .kStNext =>
    if h : p.index + 1 < kMaxSlaves then
      ({ p with index := ⟨p.index + 1, h⟩, state := .kStSendRq }, q)
    else
      ({ p with index := 0, state := .kStWaitRqInterval }, q)
  | .kStWaitRqInterval =>
    if timeout now p.tmPeriod p.rqPeriod then ({ p with state := .kStStartPeriod }, q) else (p, q)

/-! ## Answers -/

section Handlers

variable {σ : Type*} (dataHandler : TDataBuffer → UInt16 → σ → ℤ × σ)

/-- `handleData`: its result, and the states of the machine, of the queue and of the handler. -/
def handleData (p : SlavePoll) (q : TQueue TTxRequest) (s : σ) (srcAddress : UInt16)
    (block : TDataBuffer) (dataId : UInt16) : ℤ × SlavePoll × TQueue TTxRequest × σ :=
  let p := { p with rcvData := true }
  let q := sendDataAck q srcAddress block.packet
  if srcAddress = p.polled.address then
    let p := p.setPolled { p.polled with state := .kResRcvData }
    if block.packet ≠ p.polled.packet then
      let p := p.setPolled { p.polled with packet := block.packet }
      let (rc, s) := dataHandler block dataId s
      (rc, p, q, s)
    else
      (0, p, q, s)
  else
    (0, p, q, s)

/-- `handleNoData`. -/
def handleNoData (p : SlavePoll) (srcAddress : UInt16) : SlavePoll :=
  let p := { p with rcvNoData := true }
  if srcAddress = p.polled.address then
    p.setPolled { p.polled with state := .kResNoData }
  else
    p

/-- `P_SlaveMsgHandlers_Local::handleMsgAppType`. -/
def handleMsgAppType (p : SlavePoll) (q : TQueue TTxRequest) (s : σ) (msg : Mem)
    (srcAddress : UInt16) : SlavePoll × TQueue TTxRequest × σ :=
  if msg.word 2 = kDataId then
    let block := blockOfMem (msg.shift 6)
    let (rc, p, q, s) := p.handleData dataHandler q s srcAddress block (msg.word 2)
    if rc > 0 then
      (p, (addTxMsgApp q srcAddress msgAppDataAcknowledge.toUInt32 2 block.packet.toUInt32 0
        linkIdLocal).2, s)
    else
      (p, q, s)
  else if msg.word 2 = msgAppDataAbsence then
    (p.handleNoData srcAddress, q, s)
  else
    (p, q, s)

/-- `P_SlaveMsgHandlers_Local::RxMessageHandler`; the handler of `MsgParameterValue` does
nothing. -/
def rxMessageHandler (p : SlavePoll) (q : TQueue TTxRequest) (s : σ) (msg : Mem)
    (srcAddress : UInt16) : SlavePoll × TQueue TTxRequest × σ :=
  if msg 0 = msgAppType then p.handleMsgAppType dataHandler q s msg srcAddress
  else (p, q, s)

end Handlers

/-- The handler of blocks in the device. -/
def writeData (block : TDataBuffer) (dataId : UInt16) (c : TDataBuffersContainer) :
    ℤ × TDataBuffersContainer :=
  c.writeBuffer block dataId.toUInt32

/-! ## What a block of data does -/

section Specification

variable {σ : Type*} (dataHandler : TDataBuffer → UInt16 → σ → ℤ × σ)

/-- A block is passed to the handler: it comes from the slave the machine is at, and its packet
number is not the one remembered for it. -/
def Passes (p : SlavePoll) (srcAddress : UInt16) (block : TDataBuffer) : Prop :=
  srcAddress = p.polled.address ∧ block.packet ≠ p.polled.packet

instance (p : SlavePoll) (srcAddress : UInt16) (block : TDataBuffer) :
    Decidable (p.Passes srcAddress block) :=
  inferInstanceAs (Decidable (srcAddress = p.polled.address ∧ block.packet ≠ p.polled.packet))

@[simp] theorem polled_setPolled (p : SlavePoll) (info : SlaveInfo) :
    (p.setPolled info).polled = info := Function.update_self ..

@[simp] theorem setPolled_setPolled (p : SlavePoll) (info info' : SlaveInfo) :
    (p.setPolled info).setPolled info' = p.setPolled info' := by
  simp only [setPolled, Function.update_idem]

/-- The machine after a block. -/
def note (p : SlavePoll) (srcAddress : UInt16) (block : TDataBuffer) : SlavePoll :=
  if srcAddress = p.polled.address then
    { p with rcvData := true }.setPolled ⟨p.polled.address, block.packet, .kResRcvData⟩
  else
    { p with rcvData := true }

/-- **What `handleData` does.** Every block is acknowledged. A block that passes is handled, and
the result is that of the handler; the packet number is remembered whatever the result is. -/
theorem handleData_eq (p : SlavePoll) (q : TQueue TTxRequest) (s : σ) (src : UInt16)
    (block : TDataBuffer) (dataId : UInt16) :
    p.handleData dataHandler q s src block dataId =
      if p.Passes src block then
        ((dataHandler block dataId s).1, p.note src block, sendDataAck q src block.packet,
          (dataHandler block dataId s).2)
      else
        (0, p.note src block, sendDataAck q src block.packet, s) := by
  have hpolled : ({ p with rcvData := true } : SlavePoll).polled = p.polled := rfl
  by_cases hsrc : src = p.polled.address
  · by_cases hpn : block.packet = p.polled.packet
    · rw [if_neg fun h => h.2 hpn]
      simp [handleData, note, hpolled, hsrc, hpn]
    · rw [if_pos ⟨hsrc, hpn⟩]
      simp [handleData, note, hpolled, hsrc, hpn]
  · rw [if_neg fun h => hsrc h.1]
    simp [handleData, note, hpolled, hsrc]

/-- The acknowledge `handleMsgAppType` adds for a block that was stored. -/
def ackStored (q : TQueue TTxRequest) (srcAddress : UInt16) (block : TDataBuffer) :
    TQueue TTxRequest :=
  (addTxMsgApp q srcAddress msgAppDataAcknowledge.toUInt32 2 block.packet.toUInt32 0 linkIdLocal).2

/-- **What a data message does.** -/
theorem handleMsgAppType_data (p : SlavePoll) (q : TQueue TTxRequest) (s : σ) {msg : Mem}
    (src : UInt16) (h : msg.word 2 = kDataId) {block : TDataBuffer}
    (hblock : blockOfMem (msg.shift 6) = block) :
    p.handleMsgAppType dataHandler q s msg src =
      (p.note src block,
        if p.Passes src block ∧ (dataHandler block kDataId s).1 > 0 then
          ackStored (sendDataAck q src block.packet) src block
        else sendDataAck q src block.packet,
        if p.Passes src block then (dataHandler block kDataId s).2 else s) := by
  rw [handleMsgAppType, if_pos h, h, hblock]
  simp only [handleData_eq]
  by_cases hpass : p.Passes src block
  · simp only [hpass, true_and]
    split_ifs <;> rfl
  · simp [hpass]

end Specification

/-! ## What the machine keeps -/

section Keeps

theorem slaves_setPolled (p : SlavePoll) (info : SlaveInfo) (i : Fin kMaxSlaves) :
    (p.setPolled info).slaves i = if i = p.index then info else p.slaves i :=
  Function.update_apply ..

/-- `process` keeps the addresses of the slaves, and their packet numbers outside `kStStart`, which
it leaves. -/
theorem process_keeps (p : SlavePoll) (now : UInt32) (q : TQueue TTxRequest)
    (i : Fin kMaxSlaves) :
    ((p.process now q).1.slaves i).address = (p.slaves i).address ∧
      (p.state ≠ .kStStart → ((p.process now q).1.slaves i).packet = (p.slaves i).packet) ∧
      (p.process now q).1.state ≠ .kStStart := by
  unfold process
  repeat' split
  all_goals
    refine ⟨?_, fun _ => ?_, by simp_all⟩
    all_goals first
      | rfl
      | contradiction
      | (simp only [slaves_setPolled]; split_ifs with hi <;> simp [hi, polled])

/-- A notice that there is no data changes only the result of the request. -/
theorem handleNoData_keeps (p : SlavePoll) (src : UInt16) (i : Fin kMaxSlaves) :
    ((p.handleNoData src).slaves i).address = (p.slaves i).address ∧
      ((p.handleNoData src).slaves i).packet = (p.slaves i).packet ∧
      (p.handleNoData src).state = p.state ∧ (p.handleNoData src).index = p.index := by
  simp only [handleNoData]
  split_ifs
  · refine ⟨?_, ?_, rfl, rfl⟩
    all_goals
      simp only [slaves_setPolled]
      split_ifs with hi <;> simp [hi, polled]
  · exact ⟨rfl, rfl, rfl, rfl⟩

/-- A block from another slave leaves the table. -/
theorem note_of_ne {p : SlavePoll} {src : UInt16} (h : src ≠ p.polled.address)
    (block : TDataBuffer) : p.note src block = { p with rcvData := true } := if_neg h

/-- A block from the slave the machine is at changes its entry. -/
theorem slaves_note {p : SlavePoll} (block : TDataBuffer) (i : Fin kMaxSlaves) :
    (p.note p.polled.address block).slaves i =
      if i = p.index then ⟨p.polled.address, block.packet, .kResRcvData⟩ else p.slaves i := by
  rw [note, if_pos rfl]
  exact slaves_setPolled ..

theorem note_keeps (p : SlavePoll) (src : UInt16) (block : TDataBuffer) :
    (p.note src block).state = p.state ∧ (p.note src block).index = p.index := by
  unfold note
  split_ifs <;> exact ⟨rfl, rfl⟩

end Keeps

end SlavePoll

end KS3.Poll
