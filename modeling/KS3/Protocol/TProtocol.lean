import KS3.DataIO.Layer3

/-!
# `TProtocol`: from received octets to handled messages

`processInputData` takes the octets an interface has received: it restarts the receiver after a
silence, feeds it octet by octet and handles each packet as it becomes ready. `processInputAppData`
handles a datagram, which is a data block without a frame. The handlers of the application are
parameters; they act on a state of their own.

Handling a packet runs the loop over its messages, which need not end. The model gives the loop as
many rounds as it can use (`Layer3Rx.forMessages_isSome`, `Layer3Rx.forMessages_none`), so that
`none` is the outcome exactly when the code never returns.
-/

namespace KS3

namespace Hal

/-- `hal::difftime`. -/
def difftime (ticks1 ticks2 : UInt32) : UInt32 :=
  if ticks2 ≥ ticks1 then ticks2 - ticks1 else ticks2 + (0xFFFFFFFF - ticks1)

end Hal

namespace Protocol

open DataIO

/-- `TPacketProcessHandlers` and `TRxMessageHandler`, with the state they act on. -/
structure Handlers (σ : Type*) where
  onBeginRxPacketProcess : σ → σ
  processRxMessage : Mem → UInt16 → UInt16 → σ → σ
  onEndRxPacketProcess : UInt16 → σ → σ

/-- The data members of `TProtocol` that reception uses. -/
structure TProtocol where
  layer2 : DataIOLayer2
  layer3 : Layer3Rx
  rxTimeout : UInt32
  rxTicks : UInt32
  srcAddress : UInt16

/-- The outcome of `processInputData`: its result, the octets left in the buffer and the states
of the protocol and of the handlers. -/
structure InputOut (σ : Type*) where
  rc : ℤ
  unread : List UInt8
  protocol : TProtocol
  handled : σ

namespace TProtocol

variable {σ : Type*} (h : Handlers σ)

/-- The branch `r == 2` of `processInputData`. The receiver has a packet ready there, so
`readPacket` gives the addresses. -/
def handlePacket (p : TProtocol) (s : σ) : Option (TProtocol × σ) :=
  let packet := p.layer3.readPacket p.layer2
  let (dest, src) := packet.2.getD (0, 0)
  let s := h.onBeginRxPacketProcess s
  match Layer3Rx.forMessages (fun msg => h.processRxMessage msg dest src)
      (packet.1.rxDataSize + 1) packet.1 s with
  | none => none
  | some (_, layer3, s) =>
    some ({ p with layer2 := p.layer2.startRx, layer3 := layer3, srcAddress := src },
      h.onEndRxPacketProcess src s)

/-- The loop `while(n--)` of `processInputData`; `rc` is the variable of that name. -/
def rxBytes : List UInt8 → ℤ → TProtocol → σ → Option (InputOut σ)
  | [], rc, p, s => some ⟨rc, [], p, s⟩
  | b :: bs, rc, p, s =>
    let out := p.layer2.rxHandler b
    let p := { p with layer2 := out.layer2 }
    if out.rc = 2 then
      match p.handlePacket h s with
      | none => none
      | some (p, s) => rxBytes bs 2 p s
    else if out.rc = 3 then
      some ⟨3, bs, p, s⟩
    else
      rxBytes bs rc p s

/-- `processInputData` before its loop. -/
def beginInput (p : TProtocol) (now : UInt32) (preambleRecieved : Bool) : TProtocol :=
  let layer2 := if Hal.difftime p.rxTicks now ≥ p.rxTimeout then p.layer2.startRx else p.layer2
  { p with
    layer2 := if preambleRecieved then layer2.setPreambleRecieved else layer2
    rxTicks := now }

/-- `processInputData`, for the octets `bytes` of the buffer, at the tick `now`. -/
def processInputData (p : TProtocol) (now : UInt32) (bytes : List UInt8)
    (preambleRecieved : Bool) (s : σ) : Option (InputOut σ) :=
  rxBytes h bytes 0 (p.beginInput now preambleRecieved) s

/-- `processInputAppData`; the result is the number of messages. -/
def processInputAppData (p : TProtocol) (buffer : Mem) (n dest src : UInt16) (s : σ) :
    Option (ℤ × TProtocol × σ) :=
  let layer3 := Layer3Rx.setRxAppData buffer n
  let s := h.onBeginRxPacketProcess s
  match Layer3Rx.forMessages (fun msg (s, msgCounter) =>
      (h.processRxMessage msg dest src s, msgCounter + 1)) (layer3.rxDataSize + 1) layer3
      (s, (0 : ℤ)) with
  | none => none
  | some (_, layer3, s, msgCounter) =>
    some (msgCounter, { p with layer3 := layer3, srcAddress := src }, h.onEndRxPacketProcess src s)

/-- Calls of `processInputData` one after the other, each with its tick and its octets. -/
def processCalls : List (UInt32 × List UInt8) → TProtocol → σ → Option (TProtocol × σ)
  | [], p, s => some (p, s)
  | (now, bytes) :: calls, p, s =>
    match p.processInputData h now bytes false s with
    | none => none
    | some out => processCalls calls out.protocol out.handled

end TProtocol

/-! ## What the application sees -/

/-- The calls of the handlers. -/
inductive Event
  | onBeginRxPacketProcess
  | processRxMessage (message : List UInt8) (dest src : UInt16)
  | onEndRxPacketProcess (src : UInt16)
  deriving DecidableEq

/-- Handlers that record how they are called. -/
def recorder : Handlers (List Event) where
  onBeginRxPacketProcess s := s ++ [.onBeginRxPacketProcess]
  processRxMessage msg dest src s := s ++ [.processRxMessage (messageBytes msg) dest src]
  onEndRxPacketProcess src s := s ++ [.onEndRxPacketProcess src]

end Protocol

end KS3
