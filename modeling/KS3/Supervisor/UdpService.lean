import KS3.Supervisor.MacService
import KS3.Udp.UdpIo

/-!
# `TTaskUDP_Service`: datagrams while there is a link

The task follows the messages about the network: it initialises `udp_io` when the network is ready,
and while there is a connection it works off the two queues, one datagram at a time, in a cycle of
three calls of `process`. `processTxData` is what the upper link calls for its packets; it takes
none while there is no connection.

Whether `udp_io::init` succeeds, what the upper link answers and what the network library says is
part of the input. `inits` notes the results of `udp_io::init`.
-/

namespace KS3.Supervisor

open Comm Udp

/-- `msgUDP_InitOk`. -/
def msgUDPInitOk : Int32 := 1206

/-- `msgUDP_InitError`. -/
def msgUDPInitError : Int32 := 1207

/-- The states of the task. -/
inductive UdpState
  | kStIdle
  | kStInit
  | kStInitOk
  | kStProcess
  | kStProcessRx
  | kStProcessTx
  deriving DecidableEq

/-- The data of `TTaskUDP_Service` and of its base, `netState`, whether the upper link has
`processTxData` as its handler, and `udp_io`. -/
structure TTaskUDPService where
  active : Bool
  state : UdpState
  udpInitOk : Bool
  connected : Bool
  appTxHandler : Bool
  io : UdpIo
  inits : List Bool

/-- What a call of `process` meets: the result of `udp_io::init`, the packets the upper link passes
down for a datagram, and what `udp_connect` and `udp_send` say. -/
structure UdpInput where
  initOk : Bool
  packets : List (List UInt8)
  connectOk : Bool
  sendOk : Bool

namespace TTaskUDPService

/-- `activate`. -/
def activate (t : TTaskUDPService) : TTaskUDPService :=
  { t with
    active := true, udpInitOk := false, connected := false, state := .kStIdle
    appTxHandler := true }

/-- `handleEvent`. -/
def handleEvent (msg : TCMessage) (t : TTaskUDPService) : TTaskUDPService :=
  if msg.msgNo = msgNetInitStart.toInt16 then { t with state := .kStIdle }
  else if msg.msgNo = msgNetInitOk.toInt16 then { t with state := .kStInit }
  else if msg.msgNo = msgNetConnected.toInt16 then
    let t := { t with connected := true }
    if t.udpInitOk then { t with state := .kStProcess }
    else if t.state ≠ .kStInit then { t with state := .kStInit }
    else t
  else if msg.msgNo = msgNetDisconnected.toInt16 then
    { t with connected := false, state := .kStIdle }
  else if msg.msgNo = msgNetError.toInt16 then { t with state := .kStIdle }
  else t

/-- `udp_io::init`. The buffers of the pool get the addresses they had; the queues are not
touched. -/
def initIo (t : TTaskUDPService) (ok : Bool) : TTaskUDPService :=
  { t with io := { t.io with inited := ok }, inits := t.inits ++ [ok] }

/-- The packets that `processTxData` passes to `addTxData`. -/
def processTxData (t : TTaskUDPService) (packets : List (List UInt8)) : List (List UInt8) :=
  if t.connected then packets else []

/-- `process`. -/
def process (t : TTaskUDPService) (e : UdpInput) : Code TTaskUDPService :=
  match t.state with
  | .kStIdle => .ret t
  | .kStInit =>
    let t := t.initIo e.initOk
    if e.initOk then
      .sendMessage grpNet msgUDPInitOk 0 0 fun _ =>
        .ret { t with udpInitOk := true, state := .kStInitOk }
    else
      .sendMessage grpNet msgUDPInitError 0 0 fun _ =>
        .ret { t with udpInitOk := false, state := .kStIdle }
  | .kStInitOk =>
    if t.connected then .ret { t with state := .kStProcess } else .ret { t with state := .kStIdle }
  | .kStProcess => .ret { t with state := .kStProcessRx }
  | .kStProcessRx =>
    .ret { t with io := t.io.processRxQueue [t.processTxData e.packets], state := .kStProcessTx }
  | .kStProcessTx =>
    .ret { t with io := t.io.processTxQueue [(e.connectOk, e.sendOk)], state := .kStProcess }

end TTaskUDPService

end KS3.Supervisor
