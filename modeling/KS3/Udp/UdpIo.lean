import KS3.Udp.TBuffersPool
import KS3.Comm.TQueue
import KS3.Foundations.Memory
import KS3.Foundations.Run

/-!
# `udp_io`: datagrams in and out

A datagram that is received goes to `rxQueue` with its packet buffer, which is freed when the
datagram has been processed. A datagram to be sent is copied to a buffer of the pool `udpBuffers`
and goes to `txQueue`; its buffer is released when `udp_send` has taken it. All datagrams are sent
through one connection, which is renewed when a datagram comes from another address.

The network library is seen from outside: whether `udp_connect` and `udp_send` succeed is part of
the input. What processing a received datagram does is seen by the data it has sent in reply.

`processRxQueue_eq`, `processTxQueue_eq`: the two loops are runs of their passes. `run_eq`: a run
of calls is a run of passes.
-/

namespace KS3.Udp

open Comm

/-! ## Data -/

/-- `UDP_DATA_MAX_SZ`. -/
def udpDataMaxSz : ℕ := 1440

/-- `UDP_TX_Q_SIZE`, which is also the number of buffers in the pool. -/
def udpTxQSize : ℕ := 4

/-- `UDP_RX_Q_SIZE`. -/
def udpRxQSize : ℕ := 4

/-- `kRcTxQueueFull`. -/
def kRcTxQueueFull : ℤ := -4

/-- `kRcTxBufferFull`. -/
def kRcTxBufferFull : ℤ := -5

/-- `UdpData`: the address of the data, their size and the packet buffer, which is known by the
number of its reception. The connection is left out: it is null in every datagram. The address of
the client, which the source does not keep, says whose request the datagram is or answers. -/
structure UdpData where
  buffer : ℕ
  size : ℕ
  ex : Option ℕ
  client : Option UInt32

/-- A call of `udp_send`: where the connection leads, what is sent, whether it was taken, and the
client whose request it answers. -/
structure UdpSend where
  remoteIp : UInt32
  payload : List UInt8
  ok : Bool
  client : Option UInt32
  deriving DecidableEq

/-- The data of `udp_io`: the memory, the pool, the queues and `txData`, with the address its
`upcb` is connected to. Behind them, what has happened so far: the number of packet buffers
received, those freed, the calls of `addTxData` with their results and the calls of `udp_send`. -/
structure UdpIo where
  memory : Mem
  udpBuffers : TBuffersPool ℕ
  txQueue : TQueue UdpData
  rxQueue : TQueue UdpData
  raddr : UInt32
  connected : Bool
  update : Bool
  remoteIp : UInt32
  inited : Bool
  received : ℕ
  freed : List (Option ℕ)
  calls : List (List UInt8 × ℤ)
  sends : List UdpSend

namespace UdpIo

/-- The address of a buffer of the pool: `&udpRAW_Buffer[UDP_DATA_MAX_SZ * i]`. -/
def slot (raw i : ℕ) : ℕ := raw + udpDataMaxSz * i

/-- The state after `init`, which succeeded or not, with `udpRAW_Buffer` at the address `raw`, any
memory and any contents of the queues' cells. -/
def init (memory : Mem) (raw : ℕ) (cells : ℕ → UdpData) (inited : Bool) : UdpIo where
  memory := memory
  udpBuffers := .init (slot raw) udpTxQSize
  txQueue := .init cells udpTxQSize (by decide)
  rxQueue := .init cells udpRxQSize (by decide)
  raddr := 0
  connected := false
  update := false
  remoteIp := 0
  inited := inited
  received := 0
  freed := []
  calls := []
  sends := []

/-! ## Receiving -/

/-- `udp_receive_callback`, for a datagram from `addr` with its payload at an address. -/
def receive (s : UdpIo) (addr : UInt32) (payload len : ℕ) : UdpIo :=
  let s := if s.raddr ≠ addr ∨ !s.connected then { s with raddr := addr, update := true } else s
  { s with
    rxQueue := s.rxQueue.push ⟨payload, len, some s.received, some addr⟩
    received := s.received + 1 }

/-- `getMaxAppDataSize`. -/
def getMaxAppDataSize : ℕ := udpDataMaxSz

/-- `addTxData`. -/
def addTxData (s : UdpIo) (client : Option UInt32) (data : List UInt8) : ℤ × UdpIo :=
  if s.txQueue.isFull then (kRcTxQueueFull, s)
  else
    match s.udpBuffers.get with
    | (some buffer, pool) =>
      let size := if data.length > getMaxAppDataSize then getMaxAppDataSize else data.length
      (size,
        { s with
          udpBuffers := pool
          memory := s.memory.write buffer (data.take size)
          txQueue := s.txQueue.push ⟨buffer, size, none, client⟩ })
    | (none, pool) => (kRcTxBufferFull, { s with udpBuffers := pool })

/-- A call of `addTxData`, with its result noted. -/
def add (s : UdpIo) (client : Option UInt32) (data : List UInt8) : UdpIo :=
  { (s.addTxData client data).2 with calls := s.calls ++ [(data, (s.addTxData client data).1)] }

/-- A pass of the loop in `processRxQueue`: the first datagram is processed, which sends `replies`,
and given back. -/
def rxPass (s : UdpIo) (replies : List (List UInt8)) : UdpIo :=
  match s.rxQueue.front with
  | none => s
  | some d =>
    let s := Run.final (fun s => s.add d.client) s replies
    { s with
      freed := s.freed ++ [d.ex]
      udpBuffers := s.udpBuffers.release d.buffer
      rxQueue := s.rxQueue.pop }

/-- `processRxQueue`, with as many passes at most as there are lists of replies. -/
def processRxQueue (s : UdpIo) : List (List (List UInt8)) → UdpIo
  | [] => s
  | replies :: rest =>
    if s.rxQueue.isEmpty then s else (s.rxPass replies).processRxQueue rest

/-! ## Sending -/

/-- The connection is renewed, in `send`. -/
def reconnect (s : UdpIo) (connectOk : Bool) : UdpIo :=
  let s := if s.connected then { s with remoteIp := 0, connected := false } else s
  if connectOk then { s with remoteIp := s.raddr, connected := true, update := false } else s

/-- `send`. When `udp_connect` fails, there is no connection and nothing is sent. -/
def send (s : UdpIo) (d : UdpData) (connectOk sendOk : Bool) : ℕ × UdpIo :=
  if s.inited then
    let s := if s.update then s.reconnect connectOk else s
    if s.connected then
      let s := { s with sends := s.sends ++
        [⟨s.remoteIp, s.memory.read d.buffer d.size, sendOk, d.client⟩] }
      if sendOk then (d.size, s) else (0, s)
    else
      (0, s)
  else
    (0, s)

/-- A pass of the loop in `processTxQueue`. -/
def txPass (s : UdpIo) (connectOk sendOk : Bool) : UdpIo :=
  match s.txQueue.front with
  | none => s
  | some d =>
    let (n, s) := s.send d connectOk sendOk
    if n > 0 then
      { s with udpBuffers := s.udpBuffers.release d.buffer, txQueue := s.txQueue.pop }
    else
      s

/-- `processTxQueue`, with as many passes at most as there are answers of the network library. -/
def processTxQueue (s : UdpIo) : List (Bool × Bool) → UdpIo
  | [] => s
  | (connectOk, sendOk) :: rest =>
    if s.txQueue.isEmpty then s else (s.txPass connectOk sendOk).processTxQueue rest

/-- `send` comes to `udp_send`: the connection stands, or it is renewed. -/
def Transmits (s : UdpIo) (connectOk : Bool) : Prop :=
  s.inited ∧ if s.update then connectOk else s.connected

instance (s : UdpIo) (connectOk : Bool) : Decidable (s.Transmits connectOk) :=
  inferInstanceAs (Decidable (_ ∧ _))

/-- The address a datagram is sent to when `send` comes to `udp_send`. -/
def target (s : UdpIo) : UInt32 := if s.update then s.raddr else s.remoteIp

/-- The state after a call of `udp_send`. -/
def sent (s : UdpIo) (d : UdpData) (sendOk : Bool) : UdpIo :=
  { s with
    connected := true
    update := false
    remoteIp := s.target
    sends := s.sends ++ [⟨s.target, s.memory.read d.buffer d.size, sendOk, d.client⟩] }

/-- **What `send` does** when it comes to `udp_send`. -/
theorem send_of_transmits {s : UdpIo} {connectOk : Bool} (h : s.Transmits connectOk) (d : UdpData)
    (sendOk : Bool) :
    s.send d connectOk sendOk = (if sendOk then d.size else 0, s.sent d sendOk) := by
  obtain ⟨memory, pool, tx, rx, raddr, connected, update, remoteIp, inited, n, freed, calls,
    sends⟩ := s
  obtain ⟨hinited, hlink⟩ := h
  cases update <;> cases connected <;> cases sendOk <;>
    simp_all [send, sent, reconnect, target]

/-- What `send` does otherwise: it may lose the connection it was to renew. -/
theorem send_of_not_transmits {s : UdpIo} {connectOk : Bool} (h : ¬ s.Transmits connectOk)
    (d : UdpData) (sendOk : Bool) :
    (s.send d connectOk sendOk).1 = 0 ∧ ((s.send d connectOk sendOk).2 = s ∨
      s.update ∧ ∃ remoteIp, (s.send d connectOk sendOk).2 =
        { s with connected := false, remoteIp := remoteIp }) := by
  obtain ⟨memory, pool, tx, rx, raddr, connected, update, remoteIp, inited, n, freed, calls,
    sends⟩ := s
  cases update <;> cases connected <;> cases connectOk <;> cases inited <;>
    simp_all [send, reconnect, Transmits]

/-- A pass of `processTxQueue` that comes to `udp_send`: the datagram is taken from the queue and
its buffer released if `udp_send` has taken it and it is not empty. -/
theorem txPass_of_transmits {s : UdpIo} {connectOk : Bool} (h : s.Transmits connectOk)
    {d : UdpData} {ds : List UdpData} (hd : s.txQueue.toList = d :: ds) (sendOk : Bool) :
    s.txPass connectOk sendOk =
      if sendOk ∧ 0 < d.size then
        { s.sent d sendOk with
          udpBuffers := s.udpBuffers.release d.buffer
          txQueue := s.txQueue.pop }
      else s.sent d sendOk := by
  rw [txPass, TQueue.front_eq, hd]
  simp only [List.head?_cons, send_of_transmits h]
  cases sendOk <;> simp [sent]

/-- A pass of `processTxQueue` that does not come to `udp_send`. -/
theorem txPass_of_not_transmits {s : UdpIo} {connectOk : Bool} (h : ¬ s.Transmits connectOk)
    (sendOk : Bool) :
    s.txPass connectOk sendOk = s ∨ s.update ∧ ∃ remoteIp, s.txPass connectOk sendOk =
      { s with connected := false, remoteIp := remoteIp } := by
  rw [txPass]
  rcases s.txQueue.front with _ | d
  · exact .inl rfl
  · obtain ⟨hzero, hstate⟩ := send_of_not_transmits h d sendOk
    rcases hsend : s.send d connectOk sendOk with ⟨n, t⟩
    rw [hsend] at hzero hstate
    obtain rfl : n = 0 := hzero
    simpa only [hsend, lt_irrefl, if_false] using hstate

theorem txPass_of_nil {s : UdpIo} (h : s.txQueue.toList = []) (connectOk sendOk : Bool) :
    s.txPass connectOk sendOk = s := by
  rw [txPass, TQueue.front_eq, h]
  rfl

/-! ## What the operations leave -/

/-- `addTxData` changes the memory, the pool and the transmit queue. -/
theorem add_frame (s : UdpIo) (client : Option UInt32) (data : List UInt8) :
    ∃ memory pool txQueue calls, s.add client data =
      { s with memory := memory, udpBuffers := pool, txQueue := txQueue, calls := calls } := by
  unfold add addTxData
  by_cases hfull : s.txQueue.isFull
  · simp only [hfull]
    exact ⟨_, _, _, _, rfl⟩
  · simp only [hfull]
    rcases s.udpBuffers.get with ⟨_ | b, pool⟩ <;> exact ⟨_, _, _, _, rfl⟩

/-- So do the replies to a datagram. -/
theorem adds_frame (s : UdpIo) (client : Option UInt32) (replies : List (List UInt8)) :
    ∃ memory pool txQueue calls, Run.final (fun s => s.add client) s replies =
      { s with memory := memory, udpBuffers := pool, txQueue := txQueue, calls := calls } := by
  induction replies generalizing s with
  | nil => exact ⟨_, _, _, _, rfl⟩
  | cons data replies ih =>
    obtain ⟨memory, pool, txQueue, calls, hadd⟩ := s.add_frame client data
    rw [Run.final_cons, hadd]
    exact ih _

/-- A pass of `processRxQueue` does the same, and takes the datagram from the queue. -/
theorem rxPass_frame {s : UdpIo} {d : UdpData} {ds : List UdpData}
    (hd : s.rxQueue.toList = d :: ds) (replies : List (List UInt8)) :
    ∃ memory pool txQueue calls, s.rxPass replies =
      { s with
        memory := memory, udpBuffers := pool, txQueue := txQueue, calls := calls
        freed := s.freed ++ [d.ex], rxQueue := s.rxQueue.pop } := by
  obtain ⟨memory, pool, txQueue, calls, hadds⟩ := s.adds_frame d.client replies
  rw [rxPass, TQueue.front_eq, hd]
  simp only [List.head?_cons, hadds]
  exact ⟨_, _, _, _, rfl⟩

theorem rxPass_of_nil {s : UdpIo} (h : s.rxQueue.toList = []) (replies : List (List UInt8)) :
    s.rxPass replies = s := by
  rw [rxPass, TQueue.front_eq, h]
  rfl

/-- A pass of `processTxQueue` changes the pool, the transmit queue and the connection. -/
theorem txPass_frame (s : UdpIo) (connectOk sendOk : Bool) :
    ∃ pool txQueue connected update remoteIp sends, s.txPass connectOk sendOk =
      { s with
        udpBuffers := pool, txQueue := txQueue, connected := connected, update := update
        remoteIp := remoteIp, sends := sends } := by
  by_cases htr : s.Transmits connectOk
  · rcases hd : s.txQueue.toList with _ | ⟨d, ds⟩
    · rw [txPass_of_nil hd]
      exact ⟨_, _, _, _, _, _, rfl⟩
    · rw [txPass_of_transmits htr hd]
      split_ifs <;> exact ⟨_, _, _, _, _, _, rfl⟩
  · rcases txPass_of_not_transmits htr sendOk with heq | ⟨-, r, heq⟩ <;> rw [heq] <;>
      exact ⟨_, _, _, _, _, _, rfl⟩

/-! ## Runs -/

/-- The calls. -/
inductive Call
  | receive (addr : UInt32) (payload len : ℕ)
  | addTxData (data : List UInt8)
  | processRxQueue (replies : List (List (List UInt8)))
  | processTxQueue (answers : List (Bool × Bool))

/-- One call. -/
def call (s : UdpIo) : Call → UdpIo
  | .receive addr payload len => s.receive addr payload len
  | .addTxData data => s.add none data
  | .processRxQueue replies => s.processRxQueue replies
  | .processTxQueue answers => s.processTxQueue answers

/-- The passes of the loops, and the calls without a loop. -/
inductive Pass
  | receive (addr : UInt32) (payload len : ℕ)
  | add (data : List UInt8)
  | rxPass (replies : List (List UInt8))
  | txPass (connectOk sendOk : Bool)

/-- One pass. -/
def pass (s : UdpIo) : Pass → UdpIo
  | .receive addr payload len => s.receive addr payload len
  | .add data => s.add none data
  | .rxPass replies => s.rxPass replies
  | .txPass connectOk sendOk => s.txPass connectOk sendOk

/-- The passes of a call. -/
def Call.passes : Call → List Pass
  | .receive addr payload len => [.receive addr payload len]
  | .addTxData data => [.add data]
  | .processRxQueue replies => replies.map .rxPass
  | .processTxQueue answers => answers.map fun a => .txPass a.1 a.2

theorem toList_of_isEmpty {q : TQueue UdpData} (h : q.isEmpty) : q.toList = [] :=
  List.eq_nil_of_length_eq_zero (q.length_toList.trans (q.empty_iff.1 h))

/-- **The loop of `processRxQueue`** is a run of its passes. -/
theorem processRxQueue_eq (s : UdpIo) (replies : List (List (List UInt8))) :
    s.processRxQueue replies = Run.final pass s (replies.map .rxPass) := by
  induction replies generalizing s with
  | nil => rfl
  | cons r rest ih =>
    rw [processRxQueue, List.map_cons, Run.final_cons, pass]
    split_ifs with hempty
    · rw [rxPass_of_nil (toList_of_isEmpty hempty), ← ih]
      cases rest with
      | nil => rfl
      | cons _ _ => rw [processRxQueue, if_pos hempty]
    · exact ih _

/-- **The loop of `processTxQueue`** is a run of its passes. -/
theorem processTxQueue_eq (s : UdpIo) (answers : List (Bool × Bool)) :
    s.processTxQueue answers = Run.final pass s (answers.map fun a => .txPass a.1 a.2) := by
  induction answers generalizing s with
  | nil => rfl
  | cons a rest ih =>
    rw [processTxQueue, List.map_cons, Run.final_cons, pass]
    split_ifs with hempty
    · rw [txPass_of_nil (toList_of_isEmpty hempty), ← ih]
      cases rest with
      | nil => rfl
      | cons _ _ => rw [processTxQueue, if_pos hempty]
    · exact ih _

theorem call_eq (s : UdpIo) (c : Call) : s.call c = Run.final pass s c.passes := by
  cases c with
  | receive => rfl
  | addTxData => rfl
  | processRxQueue replies => exact processRxQueue_eq s replies
  | processTxQueue answers => exact processTxQueue_eq s answers

/-- **A run of calls** is a run of passes. -/
theorem run_eq (s : UdpIo) (cs : List Call) :
    Run.final call s cs = Run.final pass s (cs.flatMap Call.passes) := by
  induction cs generalizing s with
  | nil => rfl
  | cons c cs ih => rw [Run.final_cons, List.flatMap_cons, Run.final_append, ← call_eq, ih]

end UdpIo

end KS3.Udp
