import KS3.Protocol.HiIo
import KS3.Protocol.TxQueue

/-!
# `TMasterTx`: requests to the slaves become packets

The machine that talks to the slaves over the half-duplex local bus. `process` takes requests for
one address from the queue, makes one packet of them and passes it to layer 1; if one of the
requests asks for an answer, it then waits. Two notifications tell it what arrives: `onRxSlaveData`
for any data, `onRxSlavePacket` for a packet. One timer serves both waiting states.

The requests are popped one by one while the packet is filled, and what `sendPacket` returns is
only kept in `txSize`.
-/

namespace KS3.Protocol

open Comm DataIO

/-! ## Data -/

/-- What the machine is connected to: the instance of the local bus with its layer 1, and what
happens to be in the field of `TMsgReadBlock` that is not initialized. -/
structure LocalBus (τ : Type*) extends Lower τ where
  reserved : τ → UInt8

/-- `TMasterTx::TState`. -/
inductive TMasterState
  | stReadyToTx
  | stWaitAnswer
  | stWaitRxComplete
  deriving DecidableEq

/-- The data members of `TMasterTx`. -/
structure TMasterTx (τ : Type*) where
  sn : UInt8
  txSize : ℕ
  state : TMasterState
  address : UInt16
  timer : UInt32
  timeoutSlaveAnswer : UInt32
  timeoutEndPacket : UInt32
  protocol : TProtocolInstance τ
  txQueue : TQueue TTxRequest

/-- `MaxTxSize`. -/
def maxTxSize : ℕ := 128

namespace TTxRequest

/-- `rq->flags & FRqAnswer`. -/
def Asks (rq : TTxRequest) : Prop := rq.flags &&& fRqAnswer ≠ 0

instance (rq : TTxRequest) : Decidable rq.Asks := inferInstanceAs (Decidable (_ ≠ _))

/-- `rq->flags & FBreakPacket`. -/
def Breaks (rq : TTxRequest) : Prop := rq.flags &&& fBreakPacket ≠ 0

instance (rq : TTxRequest) : Decidable rq.Breaks := inferInstanceAs (Decidable (_ ≠ _))

/-- The record `TMasterTx::addMessage` fills for a request, and the octets of the variable `data`.
Only four octets are there, and no function that makes requests allows more. -/
def message (rq : TTxRequest) (sequenceNumber reserved : UInt8) :
    Option (List UInt8 × List UInt8) :=
  let p0 := rq.parameter0
  let p1 := rq.parameter1
  if rq.type = msgParameterWrite.toUInt16 then
    some ([msgParameterWrite, sequenceNumber] ++ wordBytes (loWord p0) ++
      wordBytes (loWord p1) ++ wordBytes (hiWord p1), [])
  else if rq.type = msgParameterRead.toUInt16 then
    some ([msgParameterRead, sequenceNumber] ++ wordBytes (loWord p0), [])
  else if rq.type = msgReadBlock.toUInt16 then
    some ([msgReadBlock, sequenceNumber] ++ wordBytes (loWord p0) ++ [p1.toUInt8, reserved], [])
  else if rq.type = msgAppType.toUInt16 then
    some ([msgAppType, sequenceNumber] ++ wordBytes (hiWord p0) ++ wordBytes (loWord p0),
      wordBytes (loWord p1) ++ wordBytes (hiWord p1))
  else
    none

end TTxRequest

namespace TMasterTx

variable {τ : Type*} (bus : LocalBus τ)

/-- The constructor; `address` is not initialized. -/
def init (address : UInt16) (protocol : TProtocolInstance τ) (txQueue : TQueue TTxRequest)
    (timeoutSlaveAnswer timeoutEndPacket : UInt32) : TMasterTx τ :=
  ⟨0, 0, .stReadyToTx, address, 0, timeoutSlaveAnswer, timeoutEndPacket, protocol, txQueue⟩

/-! ## Filling a packet -/

/-- `getSeqNumber`: the number it leaves behind; it returns the one before. -/
def nextSeqNumber (sn : UInt8) : UInt8 := if sn ≥ 254 then 0 else sn + 1

/-- `addMessage`. -/
def addMessage (m : TMasterTx τ) (rq : TTxRequest) (rqAnswer : Bool) : TMasterTx τ :=
  match rq.message (if rqAnswer then m.sn else 0xFF) (bus.reserved m.protocol.lower) with
  | none => m
  | some (msg, data) =>
    let protocol := (m.protocol.addMessage bus.toLower (Mem.ofList msg) (Mem.ofList data)).2
    { m with
      sn := if rqAnswer then nextSeqNumber m.sn else m.sn
      protocol := protocol
      txSize := protocol.layer3.txIndex }

/-- A request at the head of the queue is added to the packet and popped. -/
def take (m : TMasterTx τ) (rq : TTxRequest) : TMasterTx τ :=
  let m := m.addMessage bus rq rq.Asks
  { m with txQueue := m.txQueue.pop }

/-- The loop over the further requests for the same address; `rqAnswer` is the variable of that
name. Each round but the last pops a request, so that the queue is empty after as many rounds as
there are requests in it. -/
def takeMore : ℕ → Bool → TMasterTx τ → Bool × TMasterTx τ
  | 0, rqAnswer, m => (rqAnswer, m)
  | rounds + 1, rqAnswer, m =>
    match m.txQueue.front with
    | none => (rqAnswer, m)
    | some rq =>
      if m.address = rq.address then
        let m := m.take bus rq
        let rqAnswer := rqAnswer || rq.Asks
        if ¬ rq.Breaks ∧ m.txSize < maxTxSize then takeMore rounds rqAnswer m else (rqAnswer, m)
      else
        (rqAnswer, m)

/-- The packet of a `process` in `stReadyToTx` with the request `rq` at the head of the queue:
whether an answer is asked for, and the machine before `sendPacket`. -/
def fill (m : TMasterTx τ) (rq : TTxRequest) : Bool × TMasterTx τ :=
  let m := { m with address := rq.address, protocol := m.protocol.startTxPacket }
  let m := m.take bus rq
  if rq.Breaks then (rq.Asks, m) else m.takeMore bus m.txQueue.size rq.Asks

/-- The argument `dest` of `sendPacket` for an address: a signed number, of which -1 stands for the
source of the last packet received. -/
def dest (address : UInt16) : Option UInt8 :=
  if address = 0xFFFF then none else some address.toUInt8

/-- The call of `sendPacket` in `process`. -/
def send (m : TMasterTx τ) : TMasterTx τ :=
  let (n, protocol) := m.protocol.sendFrame bus.toLower (dest m.address)
  { m with txSize := n, protocol := protocol }

/-! ## The machine -/

/-- `TIMEOUT(timer, msec)` at the tick `now`. -/
def TimedOut (timer now msec : UInt32) : Prop := Hal.difftime timer now ≥ msec

instance (timer now msec : UInt32) : Decidable (TimedOut timer now msec) :=
  inferInstanceAs (Decidable (_ ≥ _))

/-- `process`, at the tick `now`. -/
def process (m : TMasterTx τ) (now : UInt32) : TMasterTx τ :=
  match m.state with
  | .stReadyToTx =>
    if bus.getTxFree m.protocol.lower ≠ 0 then
      match m.txQueue.front with
      | none => m
      | some rq =>
        let (rqAnswer, m) := m.fill bus rq
        let m := m.send bus
        if rqAnswer then { m with timer := now, state := .stWaitAnswer } else m
    else
      m
  | .stWaitAnswer =>
    if TimedOut m.timer now m.timeoutSlaveAnswer then
      { m with state := .stReadyToTx, timer := now }
    else
      m
  | .stWaitRxComplete =>
    if TimedOut m.timer now m.timeoutEndPacket then
      { m with state := .stReadyToTx, timer := now }
    else
      m

/-- `onRxSlaveData`, at the tick `now`. -/
def onRxSlaveData (m : TMasterTx τ) (now : UInt32) : TMasterTx τ :=
  if m.state = .stReadyToTx ∨ m.state = .stWaitRxComplete then
    { m with state := .stWaitRxComplete, timer := now }
  else
    m

/-- `onRxSlavePacket`, at the tick `now`. -/
def onRxSlavePacket (m : TMasterTx τ) (now : UInt32) : TMasterTx τ :=
  if m.state = .stWaitAnswer then { m with state := .stWaitRxComplete, timer := now } else m

end TMasterTx

end KS3.Protocol
