import KS3.Supervisor.MacLink
import KS3.Supervisor.UdpService
import KS3.Poll.SlavePoll
import KS3.Protocol.TMasterTx

/-!
# The tasks of the concentrator

The four tasks of `tasks.cpp` with the data they share, and the main loop: `hal::process` takes what
has arrived on the local bus, `processTasks` lets the tasks work in the order of the table and
`processMessages` hands round the messages they have sent. `TTaskInit` is the only task that is
active at first; it sets up the modules, activates the others and deactivates itself.

What comes from outside in a pass of the main loop is its `Pass`: what happens on the local bus, the
ticks at which the tasks have their turns, the MII, the datagrams, and what the network library and
the upper link do.
-/

namespace KS3.Supervisor

open Comm Protocol Net Udp Poll Buffers

/-! ## Messages -/

/-- `grpSystem`. -/
def grpSystem : UInt32 := 0x10000010

/-- `grpNetState`. -/
def grpNetState : UInt32 := 0x200

/-- `TaskMask`. -/
def taskMask : UInt32 := 0xFFFFFFFF

/-- `MESSAGE_QUEUE_SIZE`. -/
def messageQueueSize : ℕ := 32

/-! ## Data -/

/-- The data of `TTaskMonitor` that it uses. -/
structure TTaskMonitor where
  active : Bool
  timer : UInt32

/-- The data of `TTaskInit`. -/
structure TTaskInit where
  active : Bool
  state : ℕ
  timer : UInt32

/-- What happens on the local bus while `hal::process` works: the driver goes on, data arrive, a
packet begins, a message is handled, and the packet ends. -/
inductive BusEvent (τ : Type*)
  | layer1 (lower : τ)
  | onRxSlaveData (now : UInt32)
  | onBeginRxPacketProcess (srcAddress : UInt16)
  | message (msg : Mem) (srcAddress : UInt16)
  | onRxSlavePacket (now : UInt32)

/-- What a pass of the main loop meets: the local bus; the tick at the turn of each task; the MII;
the datagrams that arrive, each with its sender, its address and its length; what the task of the
datagrams meets, and the application messages in the datagram that is processed. -/
structure Pass (τ : Type*) where
  bus : List (BusEvent τ)
  now : ℕ → UInt32
  mii : Mii
  datagrams : List (UInt32 × ℕ × ℕ)
  udp : UdpInput
  requests : List (Mem × UInt16)

/-- The tasks and what they work on, with the pass that is under way. -/
structure Concentrator (τ : Type*) where
  pass : Pass τ
  tsMonitor : TTaskMonitor
  tsMACService : MacLink
  tsUDPService : TTaskUDPService
  tsInit : TTaskInit
  slPoll : SlavePoll
  masterTxLocal : TMasterTx τ
  buffers : TDataBuffersContainer

/-! ## `p_slave_data_io` -/

/-- `SlavePoll::configure`. -/
def configure (p : SlavePoll) (period timeout : UInt32) : SlavePoll :=
  { p with rqPeriod := period, rqTimeout := timeout }

/-- `SlavePoll::setup`. -/
def setup (p : SlavePoll) (address : Fin kMaxSlaves → UInt16) : SlavePoll :=
  { p with slaves := fun i => { p.slaves i with address := address i } }

/-- `SLAVE_RQ_PERIOD`. -/
def slaveRqPeriod : UInt32 := 200

/-- `SLAVE_RQ_TIMEOUT`. -/
def slaveRqTimeout : UInt32 := 50

/-- `slavesAddress`. -/
def slavesAddress : Fin kMaxSlaves → UInt16 := ![1, 2, 0, 0]

/-- `p_slave_data_io::init`. -/
def slaveDataInit (p : SlavePoll) : SlavePoll :=
  setup (configure p slaveRqPeriod slaveRqTimeout) slavesAddress

namespace Concentrator

variable {τ : Type*} (bus : LocalBus τ)

/-! ## The tasks -/

/-- `TTaskMonitor::handleEvent`. -/
def monitorHandleEvent (msg : TCMessage) (d : Concentrator τ) : Concentrator τ :=
  if msg.msgNo = msgSysInit then { d with slPoll := slaveDataInit d.slPoll }
  else if msg.msgNo = msgNetConnected.toInt16 then { d with slPoll := d.slPoll.start }
  else if msg.msgNo = msgNetDisconnected.toInt16 then { d with slPoll := d.slPoll.stop }
  else d

/-- `TTaskMonitor::process`. -/
def monitorProcess (now : UInt32) (d : Concentrator τ) : Concentrator τ :=
  { d with
    masterTxLocal := d.masterTxLocal.process bus now
    tsMonitor :=
      if TMasterTx.TimedOut d.tsMonitor.timer now 5 then { d.tsMonitor with timer := now }
      else d.tsMonitor }

/-- The datagrams that arrive while the network stack is served: `udp_receive_callback`, once
`udp_io::init` has registered it. -/
def receiveDatagrams (d : Concentrator τ) : TTaskUDPService :=
  if d.tsMACService.task.state = .kStControlLinkStatus ∧ d.tsUDPService.io.inited then
    { d.tsUDPService with
      io := d.pass.datagrams.foldl (fun io g => io.receive g.1 g.2.1 g.2.2) d.tsUDPService.io }
  else
    d.tsUDPService

/-- `TTaskMAC_Service::process`. -/
def macProcess (now : UInt32) (d : Concentrator τ) : Code (Concentrator τ) :=
  (d.tsMACService.process now d.pass.mii).map fun link =>
    { d with tsUDPService := d.receiveDatagrams, tsMACService := link }

/-- `TTaskUDP_Service::process`, with what the application messages of the datagram it processes do
to the container of blocks. -/
def udpProcess (d : Concentrator τ) : Code (Concentrator τ) :=
  (d.tsUDPService.process d.pass.udp).map fun task =>
    { d with
      tsUDPService := task
      buffers :=
        if d.tsUDPService.state = .kStProcessRx ∧ !d.tsUDPService.io.rxQueue.isEmpty then
          d.pass.requests.foldl (fun c r => (c.extMsgAppTypeHandler r.1 r.2).2) d.buffers
        else
          d.buffers }

/-- `activateTask(task_MAC_Service)`. -/
def activateMac (now : UInt32) (d : Concentrator τ) : Concentrator τ :=
  if !d.tsMACService.task.active then
    { d with tsMACService := { d.tsMACService with task := d.tsMACService.task.activate now } }
  else
    d

/-- `activateTask(task_UDP_Service)`. -/
def activateUdp (d : Concentrator τ) : Concentrator τ :=
  if !d.tsUDPService.active then { d with tsUDPService := d.tsUDPService.activate } else d

/-- `activateTask(task_Monitor)`. -/
def activateMonitor (d : Concentrator τ) : Code (Concentrator τ) :=
  if !d.tsMonitor.active then
    .sendMessage grpSystem msgSysInit.toInt32 0 0 fun _ =>
      .ret { d with tsMonitor := { d.tsMonitor with active := true } }
  else
    .ret d

/-- `TTaskInit::process`. `Protocol::init` puts the parts of the protocol together, which is how the
model has them. `data_buffers::init` gives the buffers of the container their memory. -/
def initProcess (now : UInt32) (d : Concentrator τ) : Code (Concentrator τ) :=
  match d.tsInit.state with
  | 0 => .ret { d with tsInit := { d.tsInit with timer := now, state := 2 } }
  | 2 => .ret { d with tsInit := { d.tsInit with state := 3 } }
  | 3 =>
    ((d.activateMac now).activateUdp.activateMonitor).map fun d =>
      { d with tsInit := { d.tsInit with active := false } }
  | _ => .ret d

/-- The table of tasks. `TTaskInit` handles no message. -/
def tasks : Tasks (Concentrator τ) where
  numTasks := 4
  numTasks_lt := by decide
  eventMask
    | 1 => grpSystem ||| grpNet
    | 2 => grpSystem ||| grpNetState
    | _ => taskMask
  isActive i d :=
    match i with
    | 0 => d.tsMonitor.active
    | 1 => d.tsMACService.task.active
    | 2 => d.tsUDPService.active
    | 3 => d.tsInit.active
    | _ => false
  handleEvent i msg d :=
    match i with
    | 0 => .ret (msg, d.monitorHandleEvent msg)
    | 1 =>
      .ret (msg, { d with tsMACService :=
        { d.tsMACService with task := d.tsMACService.task.handleEvent msg } })
    | 2 => .ret (msg, { d with tsUDPService := d.tsUDPService.handleEvent msg })
    | _ => .ret (msg, d)
  process i d :=
    match i with
    | 0 => .ret (d.monitorProcess bus (d.pass.now 0))
    | 1 => d.macProcess (d.pass.now 1)
    | 2 => d.udpProcess
    | 3 => d.initProcess (d.pass.now 3)
    | _ => .ret d

/-! ## The main loop -/

/-- An event on the local bus. A message is handled by `P_SlaveMsgHandlers_Local`. -/
def busEvent (d : Concentrator τ) : BusEvent τ → Concentrator τ
  | .layer1 lower =>
    { d with masterTxLocal := { d.masterTxLocal with
      protocol := { d.masterTxLocal.protocol with lower := lower } } }
  | .onRxSlaveData now => { d with masterTxLocal := d.masterTxLocal.onRxSlaveData now }
  | .onBeginRxPacketProcess srcAddress =>
    { d with masterTxLocal := { d.masterTxLocal with
      protocol := { d.masterTxLocal.protocol.startTxPacket with srcAddress := srcAddress } } }
  | .message msg srcAddress =>
    let (slPoll, txQueue, buffers) :=
      d.slPoll.rxMessageHandler SlavePoll.writeData d.masterTxLocal.txQueue d.buffers msg srcAddress
    { d with
      slPoll := slPoll
      masterTxLocal := { d.masterTxLocal with txQueue := txQueue }
      buffers := buffers }
  | .onRxSlavePacket now => { d with masterTxLocal := d.masterTxLocal.onRxSlavePacket now }

/-- `hal::process`, at the beginning of a pass. -/
def halProcess (d : Concentrator τ) (e : Pass τ) : Concentrator τ :=
  e.bus.foldl busEvent { d with pass := e }

/-- A pass of the main loop; nothing if `processMessages` has not come to an end after as many
rounds as there is room for messages. -/
def loop (s : TSupervisor (Concentrator τ)) (e : Pass τ) : Option (TSupervisor (Concentrator τ)) :=
  (({ s with app := s.app.halProcess e }.processTasks (tasks bus)).processMessages (tasks bus)
    messageQueueSize)

/-- The device before the main loop: static data are zero, and `initTasks` has activated `tsInit` at
the tick `now`. The rest is what happens to be in memory. -/
def start (pass : Pass τ) (now : UInt32) (master : TMasterTx τ) (memory : Mem) (raw : ℕ)
    (cells : ℕ → UdpData) (blocks : ℕ → TDataBuffer) (messageBuffer : ℕ → TCMessage) :
    TSupervisor (Concentrator τ) :=
  .init
    { pass := pass
      tsMonitor := ⟨false, 0⟩
      tsMACService := ⟨⟨false, .kStIdle, 0, 0, 0, false, []⟩, staticEmac⟩
      tsUDPService := ⟨false, .kStIdle, false, false, false, .init memory raw cells false, []⟩
      tsInit := ⟨true, 0, now⟩
      slPoll := .init 0 0 fun _ => 0
      masterTxLocal := master
      buffers := .init blocks }
    messageBuffer messageQueueSize (by decide)

end Concentrator

end KS3.Supervisor
