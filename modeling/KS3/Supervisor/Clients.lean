import KS3.Protocol.Upper
import KS3.Supervisor.UdpService
import KS3.Udp.Requests

/-!
# Clients that take turns

The upper link on the network, from the datagram of a client to the datagrams it gets: the task
works off the queues of `udp_io`, `processRxData` gives a datagram to the protocol, and the packets
of the protocol go to the transmit queue.

One buffer holds 1440 octets, the queue holds four of them, and replies go to the client that was
heard of last. A client whose replies take no more than one buffer, that asks for data at most three
times and is left alone until its replies are out, gets them all, as long as the network library
does what it is asked to.

* `Loaded.send`: a datagram that is sent is the first one in the queue, and goes to the client;
* `drain`: the queue is empty after three calls of `process` for each datagram;
* `client_served`: whichever clients have been served before, one after the other, the next one gets
  the replies that the server of the module `Server` gives to its commands, and nothing else.
-/

namespace KS3.Supervisor

open Buffers Comm DataIO Protocol Udp

/-! ## Datagrams in the queue -/

namespace Udp

open UdpIo

/-- The datagrams in the transmit queue are those of a client, and the connection leads there or
will. -/
structure Loaded (raw : ℕ) (addr : UInt32) (payloads : List (List UInt8)) (io : UdpIo) : Prop where
  agrees : io.Agrees raw
  linked : io.Linked
  inited : io.inited
  raddr_eq : io.raddr = addr
  link : io.update ∨ io.connected
  sizes : ∀ d ∈ io.txQueue.toList, 0 < d.size ∧ d.size ≤ udpDataMaxSz
  queue : io.txQueue.toList.map (fun d => (io.memory.read d.buffer d.size, d.client)) =
    payloads.map fun payload => (payload, some addr)

variable {raw : ℕ} {addr : UInt32} {payloads : List (List UInt8)} {io : UdpIo}

theorem Loaded.length_queue (h : Loaded raw addr payloads io) :
    io.txQueue.size = payloads.length := by
  have hlen := congrArg List.length h.queue
  rwa [List.length_map, List.length_map, TQueue.length_toList] at hlen

theorem Loaded.transmits (h : Loaded raw addr payloads io) : io.Transmits true := by
  refine ⟨h.inited, ?_⟩
  split_ifs with hupdate
  · rfl
  · exact h.link.resolve_left hupdate

/-- A datagram of a client comes, and the queues are empty. -/
theorem loaded_receive (hagrees : io.Agrees raw) (hlinked : io.Linked) (hinited : io.inited)
    (hempty : io.txQueue.toList = []) (addr : UInt32) {place : ℕ} (hplace : Foreign raw place)
    (len : ℕ) : Loaded raw addr [] (io.receive addr place len) := by
  obtain ⟨update, hreceive, -⟩ := io.receive_eq addr place len
  have htx : (io.receive addr place len).txQueue.toList = [] := by
    rw [hreceive]
    exact hempty
  refine ⟨hagrees.receive hplace addr len, (hlinked.pass (.receive addr place len)).1, ?_, ?_, ?_,
    ?_, ?_⟩
  · rw [hreceive]
    exact hinited
  · rw [hreceive]
  · rw [UdpIo.receive]
    split_ifs with hnew
    · exact .inl rfl
    · right
      simpa using (not_or.1 hnew).2
  · rw [htx]
    simp
  · rw [htx]
    rfl

/-- **The first datagram is sent**, to the client. -/
theorem Loaded.send {payload : List UInt8} (h : Loaded raw addr (payload :: payloads) io) :
    Loaded raw addr payloads (io.txPass true true) ∧
      (io.txPass true true).sends = io.sends ++ [⟨addr, payload, true, some addr⟩] ∧
      (io.txPass true true).rxQueue = io.rxQueue := by
  obtain ⟨d, ds, hqueue, hfirst, hrest⟩ := List.map_eq_cons_iff.1 h.queue
  obtain ⟨hpayload, hclient⟩ := Prod.mk.inj hfirst
  have hsizes := h.sizes
  rw [hqueue, List.forall_mem_cons] at hsizes
  have htarget := (h.linked.target_eq h.transmits).trans h.raddr_eq
  have hagrees := h.agrees.txPass true true
  have hlinked := (h.linked.txPass true true).1
  rw [txPass_of_transmits h.transmits hqueue, if_pos ⟨rfl, hsizes.1.1⟩] at hagrees hlinked ⊢
  have hqueue' : io.txQueue.pop.toList = ds := by
    rw [TQueue.toList_pop, hqueue]
    rfl
  refine ⟨⟨hagrees, hlinked, h.inited, h.raddr_eq, .inr rfl, ?_, ?_⟩, ?_, rfl⟩
  · change ∀ d ∈ io.txQueue.pop.toList, _
    rw [hqueue']
    exact hsizes.2
  · change io.txQueue.pop.toList.map _ = _
    rw [hqueue']
    exact hrest
  · simp only [sent, htarget, hpayload, hclient]

/-- Only a full queue refuses. -/
theorem addTxData_ne_of_room (hfull : ¬ io.txQueue.isFull) (client : Option UInt32)
    (data : List UInt8) : (io.addTxData client data).1 ≠ kRcTxQueueFull := by
  rw [addTxData, if_neg hfull]
  rcases io.udpBuffers.get with ⟨_ | buffer, pool⟩
  · exact (by decide : kRcTxBufferFull ≠ kRcTxQueueFull)
  · simp only [kRcTxQueueFull]
    omega

/-- **A datagram is added** behind the others. -/
theorem Loaded.add (h : Loaded raw addr payloads io) (hroom : payloads.length < udpTxQSize)
    {data : List UInt8} (hdata : Sized data) :
    Loaded raw addr (payloads ++ [data]) (io.add (some addr) data) ∧
      (io.add (some addr) data).sends = io.sends ∧
      (io.add (some addr) data).rxQueue = io.rxQueue := by
  have hfull : ¬ io.txQueue.isFull := by
    rw [TQueue.full_iff, h.length_queue, h.agrees.queue_eq]
    omega
  obtain hrefused | ⟨-, i, hi, hadd, hagrees⟩ := h.agrees.add_cases (some addr) data
  · have hcalls := congrArg UdpIo.calls hrefused
    have hlast := List.singleton_inj.1 (List.append_cancel_left hcalls)
    exact absurd (Prod.mk.inj hlast).2 (addTxData_ne_of_room hfull (some addr) data)
  have htaken : taken data = data.length := min_eq_left hdata.2
  have hqueue : (io.added raw i (some addr) data).txQueue.toList =
      io.txQueue.toList ++ [⟨slot raw i, data.length, none, some addr⟩] := by
    simp only [added, TQueue.toList_push, hfull, htaken, Bool.false_eq_true, if_false]
  have hmemory : (io.added raw i (some addr) data).memory = io.memory.write (slot raw i) data := by
    simp only [added, htaken, List.take_length]
  rw [hadd]
  refine ⟨⟨hagrees, h.linked, h.inited, h.raddr_eq, h.link, fun d hd => ?_, ?_⟩, rfl, rfl⟩
  · rw [hqueue, List.mem_append, List.mem_singleton] at hd
    rcases hd with hd | rfl
    · exact h.sizes d hd
    · exact hdata
  · rw [hqueue, hmemory, List.map_append, List.map_append, ← h.queue, List.map_singleton,
      List.map_singleton, Mem.read_write]
    congr 1
    exact List.map_congr_left fun d hd => by
      rw [h.agrees.read_write hi hdata.2 hd (h.sizes d hd).2]

/-- All the replies to a datagram are added. -/
theorem Loaded.adds (new : List (List UInt8)) (h : Loaded raw addr payloads io)
    (hroom : payloads.length + new.length ≤ udpTxQSize) (hnew : ∀ data ∈ new, Sized data) :
    Loaded raw addr (payloads ++ new) (Run.final (fun io => io.add (some addr)) io new) ∧
      (Run.final (fun io => io.add (some addr)) io new).sends = io.sends ∧
      (Run.final (fun io => io.add (some addr)) io new).rxQueue = io.rxQueue := by
  induction new generalizing payloads io with
  | nil =>
    rw [List.append_nil]
    exact ⟨h, rfl, rfl⟩
  | cons data new ih =>
    rw [List.length_cons] at hroom
    rw [List.forall_mem_cons] at hnew
    obtain ⟨hadd, hsends, hrx⟩ := h.add (by omega) hnew.1
    obtain ⟨hadds, hsends', hrx'⟩ := ih hadd
      (by rw [List.length_append, List.length_singleton]; omega) hnew.2
    rw [List.append_assoc, List.singleton_append] at hadds
    rw [Run.final_cons]
    exact ⟨hadds, hsends'.trans hsends, hrx'.trans hrx⟩

/-- **The only datagram in the queue is processed**, and its replies are in the transmit queue. -/
theorem Loaded.rxPass (h : Loaded raw addr [] io) {d : UdpData} (hrx : io.rxQueue.toList = [d])
    (hclient : d.client = some addr) {new : List (List UInt8)} (hroom : new.length ≤ udpTxQSize)
    (hnew : ∀ data ∈ new, Sized data) :
    Loaded raw addr new (io.rxPass new) ∧ (io.rxPass new).sends = io.sends ∧
      (io.rxPass new).rxQueue.toList = [] := by
  obtain ⟨hadds, hsends, hrx'⟩ := h.adds new (by rwa [List.length_nil, Nat.zero_add]) hnew
  have hagrees := h.agrees.rxPass new
  -- the payload of the datagram is none of the pool, so that nothing is released
  have hrelease := TBuffersPool.release_of_ne
    (p := (Run.final (fun io => io.add (some addr)) io new).udpBuffers) (b := d.buffer)
    fun i hi => by
      rw [hadds.agrees.buffers_eq]
      exact h.agrees.foreign d (hrx ▸ List.mem_singleton_self d) i (hadds.agrees.size_eq ▸ hi)
  simp only [UdpIo.rxPass, TQueue.front_eq, hrx, List.head?_cons, hclient, hrelease] at hagrees ⊢
  refine ⟨⟨hagrees, hadds.linked, hadds.inited, hadds.raddr_eq, hadds.link, hadds.sizes,
    hadds.queue⟩, hsends, ?_⟩
  rw [TQueue.toList_pop, hrx', hrx]
  rfl

end Udp

/-! ## The upper link and the task -/

/-- The task with `udp_io`, and the upper link. -/
structure Station (ρ : Type*) where
  task : TTaskUDPService
  upper : HiIo (UpperState ρ)

namespace Station

variable {ρ : Type*} (b : Surroundings ρ)

/-- A datagram from an address comes, with its octets at a place in memory. -/
def receive (s : Station ρ) (addr : UInt32) (place : ℕ) (octets : List UInt8) : Station ρ :=
  let io := { s.task.io with memory := s.task.io.memory.write place octets }
  { s with task := { s.task with io := io.receive addr place octets.length } }

/-- `processRxData` for the first datagram in the queue: the upper link after it, and the payloads
of the packets that it has passed down. -/
def processRxData (s : Station ρ) : Option (HiIo (UpperState ρ) × List (List UInt8)) :=
  match s.task.io.rxQueue.front with
  | none => some (s.upper, [])
  | some d =>
    match s.upper.processInputAppData b.device (s.task.io.memory.shift d.buffer)
        (UInt16.ofNat d.size) 1 2 with
    | none => none
    | some upper => some (upper,
        (upper.session.inst.packets.drop s.upper.session.inst.packets.length).map
          Packet.payload)

/-- A call of `process` of the task; the messages it sends when it initialises `udp_io` are not seen
here. -/
def process (s : Station ρ) (e : UdpInput) : Option (Station ρ) :=
  match if s.task.state = .kStProcessRx then s.processRxData b else some (s.upper, []) with
  | none => none
  | some (upper, packets) =>
    match s.task.process { e with packets := packets } with
    | .ret task => some ⟨task, upper⟩
    | _ => none

variable {b} {raw : ℕ} {addr : UInt32} {payloads : List (List UInt8)} {s : Station ρ} {e : UdpInput}

theorem processTxQueue_single (io : UdpIo) (connectOk sendOk : Bool) :
    io.processTxQueue [(connectOk, sendOk)] = io.txPass connectOk sendOk :=
  UdpIo.processTxQueue_eq io [(connectOk, sendOk)]

theorem processRxQueue_single (io : UdpIo) (replies : List (List UInt8)) :
    io.processRxQueue [replies] = io.rxPass replies := UdpIo.processRxQueue_eq io [replies]

theorem process_of_process (hstate : s.task.state = .kStProcess) :
    s.process b e = some { s with task := { s.task with state := .kStProcessRx } } := by
  simp [process, TTaskUDPService.process, hstate]

theorem process_of_tx (hstate : s.task.state = .kStProcessTx) :
    s.process b e = some { s with task := { s.task with
      io := s.task.io.txPass e.connectOk e.sendOk, state := .kStProcess } } := by
  simp [process, TTaskUDPService.process, hstate, processTxQueue_single]

theorem process_of_rx_empty (hstate : s.task.state = .kStProcessRx)
    (hrx : s.task.io.rxQueue.toList = []) :
    s.process b e = some { s with task := { s.task with state := .kStProcessTx } } := by
  have hfront : s.task.io.rxQueue.front = none := by
    rw [TQueue.front_eq, hrx]
    rfl
  simp [process, processRxData, hfront, TTaskUDPService.process, hstate, processRxQueue_single,
    UdpIo.rxPass_of_nil hrx]

/-- There is a connection, the task goes through its cycle, and the upper link is as it should
be. -/
structure Serving (s : Station ρ) : Prop where
  cycle : s.task.state = .kStProcess ∨ s.task.state = .kStProcessRx ∨
    s.task.state = .kStProcessTx
  connected : s.task.connected
  consistent : s.upper.Consistent
  ready : Surroundings.Ready s.upper.session.inst.lower.server

/-- The network library does what it is asked to. -/
def Succeeds (e : UdpInput) : Prop := e.connectOk ∧ e.sendOk

/-- The calls of `process` until the given number of datagrams is sent. -/
def callsLeft (state : UdpState) : ℕ → ℕ
  | 0 => 0
  | n + 1 =>
    match state with
    | .kStProcessTx => 3 * n + 1
    | .kStProcessRx => 3 * n + 2
    | _ => 3 * n + 3

/-- The state of the queue while it is emptied, with the datagrams that have been sent. -/
structure Drains (raw : ℕ) (addr : UInt32) (payloads : List (List UInt8)) (sends : List UdpSend)
    (upper : HiIo (UpperState ρ)) (s : Station ρ) : Prop where
  serving : s.Serving
  loaded : Udp.Loaded raw addr payloads s.task.io
  received : s.task.io.rxQueue.toList = []
  sends_eq : s.task.io.sends ++ payloads.map (fun data => ⟨addr, data, true, some addr⟩) = sends
  upper_eq : s.upper = upper

/-- **A call of `process`** while the queue is emptied: it takes one call less until all is sent. -/
theorem Drains.process {sends : List UdpSend} {upper : HiIo (UpperState ρ)}
    (h : Drains raw addr payloads sends upper s) (he : Succeeds e) :
    ∃ s' payloads', s.process b e = some s' ∧ Drains raw addr payloads' sends upper s' ∧
      callsLeft s'.task.state payloads'.length ≤
        callsLeft s.task.state payloads.length - 1 := by
  obtain hstate | hstate | hstate := h.serving.cycle
  · refine ⟨_, payloads, process_of_process hstate, ?_, ?_⟩
    · exact ⟨⟨.inr (.inl rfl), h.serving.connected, h.serving.consistent, h.serving.ready⟩,
        h.loaded, h.received, h.sends_eq, h.upper_eq⟩
    · rw [hstate]
      cases payloads.length <;> simp [callsLeft]
  · refine ⟨_, payloads, process_of_rx_empty hstate h.received, ?_, ?_⟩
    · exact ⟨⟨.inr (.inr rfl), h.serving.connected, h.serving.consistent, h.serving.ready⟩,
        h.loaded, h.received, h.sends_eq, h.upper_eq⟩
    · rw [hstate]
      cases payloads.length <;> simp [callsLeft]
  · have hprocess := process_of_tx (b := b) (e := e) hstate
    rw [he.1, he.2] at hprocess
    have hserving : ∀ io, Serving { s with task := { s.task with
        io := io, state := .kStProcess } } := fun io =>
      ⟨.inl rfl, h.serving.connected, h.serving.consistent, h.serving.ready⟩
    cases payloads with
    | nil =>
      have hempty : s.task.io.txQueue.toList = [] := List.map_eq_nil_iff.1 h.loaded.queue
      rw [UdpIo.txPass_of_nil hempty] at hprocess
      exact ⟨_, [], hprocess, ⟨hserving _, h.loaded, h.received, h.sends_eq, h.upper_eq⟩,
        Nat.zero_le _⟩
    | cons payload payloads =>
      obtain ⟨hloaded, hsends, hrx⟩ := h.loaded.send
      refine ⟨_, payloads, hprocess, ⟨hserving _, hloaded, ?_, ?_, h.upper_eq⟩, ?_⟩
      · rw [hrx]
        exact h.received
      · rw [← h.sends_eq, hsends, List.append_assoc]
        rfl
      · rw [hstate, List.length_cons]
        cases payloads.length with
        | zero => simp [callsLeft]
        | succ n =>
          simp only [callsLeft]
          omega

/-- **The queue is emptied.** -/
theorem drain {sends : List UdpSend} {upper : HiIo (UpperState ρ)} (es : List UdpInput)
    (h : Drains raw addr payloads sends upper s) (hes : ∀ e ∈ es, Succeeds e)
    (hlong : callsLeft s.task.state payloads.length ≤ es.length) :
    ∃ s', es.foldlM (Station.process b) s = some s' ∧ Drains raw addr [] sends upper s' := by
  induction es generalizing s payloads with
  | nil =>
    have hnil : payloads = [] := by
      cases payloads with
      | nil => rfl
      | cons payload payloads =>
        obtain hstate | hstate | hstate := h.serving.cycle <;>
          simp [callsLeft, hstate] at hlong
    subst hnil
    exact ⟨s, rfl, h⟩
  | cons e es ih =>
    rw [List.forall_mem_cons] at hes
    obtain ⟨s₁, payloads', hprocess, h₁, hleft⟩ := h.process (b := b) hes.1
    obtain ⟨s', hrest, h'⟩ := ih h₁ hes.2 (by rw [List.length_cons] at hlong; omega)
    refine ⟨s', ?_, h'⟩
    rw [List.foldlM_cons, hprocess]
    exact hrest

/-! ## A datagram is processed -/

/-- Commands whose replies fit the transmit queue: they fit one buffer, and data are asked for at
most three times. -/
structure Modest (cs : List Command) : Prop where
  size_le : (cs.map Command.replySize).sum ≤ udpDataMaxSz
  flushes_le : (cs.map Command.flushes).sum < udpTxQSize

/-- The payloads of packets are the replies they carry. -/
theorem map_payload {src : UInt16} {groups : List (List (List UInt8))} {packets : List Packet}
    (h : List.Forall₂ (Carries .linkId1 src) groups packets) :
    packets.map Packet.payload = groups.map List.flatten := by
  induction h with
  | nil => rfl
  | cons hcarries _ ih =>
    obtain ⟨-, -, rc, rfl⟩ := hcarries
    rw [List.map_cons, List.map_cons, ih]
    rfl

/-- The packets that carry modest replies are taken by `addTxData` as they are. -/
theorem sized_of_carries {src : UInt16} {groups : List (List (List UInt8))} {packets : List Packet}
    (h : List.Forall₂ (Carries .linkId1 src) groups packets)
    (hne : ∀ reply ∈ groups.flatten, reply ≠ [])
    (hle : groups.flatten.flatten.length ≤ udpDataMaxSz) :
    ∀ data ∈ groups.map List.flatten, UdpIo.Sized data := by
  intro data hdata
  obtain ⟨group, hgroup, rfl⟩ := List.mem_map.1 hdata
  have hgroup_ne : group ≠ [] := by
    obtain ⟨i, hi, rfl⟩ := List.getElem_of_mem hgroup
    exact (h.get hi (h.length_eq ▸ hi)).1
  obtain ⟨reply, rest, rfl⟩ := List.exists_cons_of_ne_nil hgroup_ne
  have hreply : reply ≠ [] := hne reply (List.mem_flatten.2 ⟨_, hgroup, List.mem_cons_self⟩)
  have hpart : (reply :: rest).flatten.length ≤ groups.flatten.flatten.length :=
    (List.sublist_flatten_of_mem hgroup).flatten.length_le
  refine ⟨?_, hpart.trans hle⟩
  rw [List.flatten_cons, List.length_append]
  exact Nat.add_pos_left (List.length_pos_iff.2 hreply) _

/-- A datagram with commands of a client waits, and nothing else. -/
structure Waits (raw : ℕ) (addr : UInt32) (cs : List Command) (d : UdpData) (s : Station ρ) :
    Prop where
  serving : s.Serving
  loaded : Udp.Loaded raw addr [] s.task.io
  received : s.task.io.rxQueue.toList = [d]
  client_eq : d.client = some addr
  octets : s.task.io.memory.read d.buffer d.size = (cs.map Command.bytes).flatten
  size_lt : d.size < 2 ^ 16
  modest : Modest cs

section Visit

variable (hhandler : b.processTxAppData.isSome) {cs : List Command} {d : UdpData}

include hhandler

/-- **The datagram is processed** and its replies are in the queue. -/
theorem process_of_rx (h : Waits raw addr cs d s) (hstate : s.task.state = .kStProcessRx) :
    ∃ s', ∃ groups : List (List (List UInt8)), s.process b e = some s' ∧
      s'.task.state = .kStProcessTx ∧ (groups.map List.flatten).length ≤ udpTxQSize ∧
      Drains raw addr (groups.map List.flatten) (s.task.io.sends ++
        (groups.map List.flatten).map fun data => ⟨addr, data, true, some addr⟩) s'.upper s' ∧
      ServerState.Serves b.debug s.upper.session.inst.lower.server cs
        s'.upper.session.inst.lower.server groups.flatten := by
  obtain ⟨hserving, hloaded, hrx, hclient, hoctets, hsize, hmodest⟩ := h
  have hn : (UInt16.ofNat d.size).toNat = d.size := by
    rw [UInt16.toNat_ofNat', Nat.mod_eq_of_lt hsize]
  obtain ⟨upper, hcall, hconsistent, hready, groups, packets, hpackets, hgroups, hserves, hfew⟩ :=
    Surroundings.served hhandler hserving.consistent hserving.ready cs
      (s.task.io.memory.shift d.buffer) (UInt16.ofNat d.size) 1 2
      (by rw [hn, Mem.read_shift, Nat.add_zero, hoctets]) (by decide)
  have htotal : groups.flatten.flatten.length ≤ udpDataMaxSz := by
    rw [hserves.length_flatten]
    exact hmodest.size_le
  have hcount : (groups.map List.flatten).length ≤ udpTxQSize := by
    have hlt := hmodest.flushes_le
    rw [List.length_map, hgroups.length_eq]
    exact (hfew (htotal.trans (by decide))).trans hlt
  have hsized := sized_of_carries hgroups hserves.ne_nil htotal
  obtain ⟨hpass, hsends, hrx'⟩ := hloaded.rxPass hrx hclient hcount hsized
  have hdrop : (upper.session.inst.packets.drop s.upper.session.inst.packets.length).map
      Packet.payload = groups.map List.flatten := by
    rw [hpackets, List.drop_left, map_payload hgroups]
  have hfront : s.task.io.rxQueue.front = some d := by
    rw [TQueue.front_eq, hrx]
    rfl
  have hprocess : s.process b e = some ⟨{ s.task with
      io := s.task.io.rxPass (groups.map List.flatten), state := .kStProcessTx }, upper⟩ := by
    simp only [process, hstate, if_true, processRxData, hfront, hcall, hdrop,
      TTaskUDPService.process, TTaskUDPService.processTxData, hserving.connected,
      processRxQueue_single]
  refine ⟨_, groups, hprocess, rfl, hcount, ⟨?_, hpass, hrx', ?_, rfl⟩, hserves⟩
  · exact ⟨.inr (.inr rfl), hserving.connected, hconsistent, hready⟩
  · rw [hsends]

/-- The client gets its replies: there is nothing else in the datagrams that are sent, and nothing
is left. -/
def Answered (b : Surroundings ρ) (raw : ℕ) (addr : UInt32) (cs : List Command)
    (s : Station ρ) (s' : Station ρ) : Prop :=
  ∃ groups : List (List (List UInt8)),
    Drains raw addr [] (s.task.io.sends ++
      (groups.map List.flatten).map fun data => ⟨addr, data, true, some addr⟩) s'.upper s' ∧
    ServerState.Serves b.debug s.upper.session.inst.lower.server cs
      s'.upper.session.inst.lower.server groups.flatten

theorem serve_rx (h : Waits raw addr cs d s) (hstate : s.task.state = .kStProcessRx)
    {es : List UdpInput} (hes : ∀ e ∈ es, Succeeds e) (hlong : 11 ≤ es.length) :
    ∃ s', es.foldlM (Station.process b) s = some s' ∧ Answered b raw addr cs s s' := by
  obtain ⟨e, es, rfl⟩ : ∃ e es', es = e :: es' :=
    List.exists_cons_of_ne_nil (List.ne_nil_of_length_pos (by omega))
  rw [List.forall_mem_cons] at hes
  obtain ⟨s₁, groups, hprocess, hstate₁, hcount, hdrains, hserves⟩ :=
    process_of_rx (e := e) hhandler h hstate
  have hleft : callsLeft s₁.task.state (groups.map List.flatten).length ≤ es.length := by
    rw [List.length_cons] at hlong
    rw [udpTxQSize] at hcount
    rw [hstate₁]
    cases hn : (groups.map List.flatten).length with
    | zero => exact Nat.zero_le _
    | succ n =>
      rw [callsLeft]
      omega
  obtain ⟨s', hrest, hdrains'⟩ := drain es hdrains hes.2 hleft
  refine ⟨s', ?_, groups, ?_, ?_⟩
  · rw [List.foldlM_cons, hprocess]
    exact hrest
  · rw [hdrains'.upper_eq]
    exact hdrains'
  · rw [hdrains'.upper_eq]
    exact hserves

theorem serve_process (h : Waits raw addr cs d s) (hstate : s.task.state = .kStProcess)
    {es : List UdpInput} (hes : ∀ e ∈ es, Succeeds e) (hlong : 12 ≤ es.length) :
    ∃ s', es.foldlM (Station.process b) s = some s' ∧ Answered b raw addr cs s s' := by
  obtain ⟨e, es, rfl⟩ : ∃ e es', es = e :: es' :=
    List.exists_cons_of_ne_nil (List.ne_nil_of_length_pos (by omega))
  rw [List.forall_mem_cons] at hes
  have hserving : Serving { s with task := { s.task with state := .kStProcessRx } } :=
    ⟨.inr (.inl rfl), h.serving.connected, h.serving.consistent, h.serving.ready⟩
  rw [List.foldlM_cons, process_of_process hstate]
  exact serve_rx hhandler (s := { s with task := { s.task with state := .kStProcessRx } })
    ⟨hserving, h.loaded, h.received, h.client_eq, h.octets, h.size_lt, h.modest⟩ rfl hes.2
    (Nat.le_of_succ_le_succ hlong)

theorem serve_tx (h : Waits raw addr cs d s) (hstate : s.task.state = .kStProcessTx)
    {es : List UdpInput} (hes : ∀ e ∈ es, Succeeds e) (hlong : 13 ≤ es.length) :
    ∃ s', es.foldlM (Station.process b) s = some s' ∧ Answered b raw addr cs s s' := by
  obtain ⟨e, es, rfl⟩ : ∃ e es', es = e :: es' :=
    List.exists_cons_of_ne_nil (List.ne_nil_of_length_pos (by omega))
  rw [List.forall_mem_cons] at hes
  have hserving : Serving { s with task := { s.task with state := .kStProcess } } :=
    ⟨.inl rfl, h.serving.connected, h.serving.consistent, h.serving.ready⟩
  have hempty : s.task.io.txQueue.toList = [] := List.map_eq_nil_iff.1 h.loaded.queue
  rw [List.foldlM_cons, process_of_tx hstate, UdpIo.txPass_of_nil hempty]
  exact serve_process hhandler (s := { s with task := { s.task with state := .kStProcess } })
    ⟨hserving, h.loaded, h.received, h.client_eq, h.octets, h.size_lt, h.modest⟩ rfl hes.2
    (Nat.le_of_succ_le_succ hlong)

end Visit

/-! ## Visits -/

/-- A client sends commands in a datagram, and `process` is called until its replies are out. The
octets of the datagram are not where the buffers of the pool are. -/
structure Visit (raw : ℕ) where
  addr : UInt32
  place : ℕ
  commands : List Command
  calls : List UdpInput
  modest : Modest commands
  short : (commands.map Command.bytes).flatten.length < 2 ^ 16
  apart : place < raw ∧ place + (commands.map Command.bytes).flatten.length ≤ raw ∨
    raw + udpTxQSize * udpDataMaxSz ≤ place
  succeeds : ∀ e ∈ calls, Succeeds e
  enough : 13 ≤ calls.length

/-- The visit of a client. -/
def visit (b : Surroundings ρ) (s : Station ρ) (v : Visit raw) : Option (Station ρ) :=
  v.calls.foldlM (process b) (s.receive v.addr v.place (v.commands.map Command.bytes).flatten)

/-- Between two visits: nothing is in the queues. -/
structure Rests (raw : ℕ) (s : Station ρ) : Prop where
  serving : s.Serving
  agrees : s.task.io.Agrees raw
  linked : s.task.io.Linked
  inited : s.task.io.inited
  queue : s.task.io.txQueue.toList = []
  received : s.task.io.rxQueue.toList = []

theorem Rests.of_drains {sends : List UdpSend} {upper : HiIo (UpperState ρ)}
    (h : Drains raw addr [] sends upper s) : Rests raw s where
  serving := h.serving
  agrees := h.loaded.agrees
  linked := h.loaded.linked
  inited := h.loaded.inited
  queue := List.map_eq_nil_iff.1 h.loaded.queue
  received := h.received

theorem foreign_of_apart {place n : ℕ}
    (h : place < raw ∧ place + n ≤ raw ∨ raw + udpTxQSize * udpDataMaxSz ≤ place) :
    UdpIo.Foreign raw place := by
  intro i hi
  simp only [UdpIo.slot, udpDataMaxSz, udpTxQSize] at *
  omega

/-- A datagram comes. -/
theorem Rests.receive (h : Rests raw s) (v : Visit raw) :
    Waits raw v.addr v.commands
      ⟨v.place, (v.commands.map Command.bytes).flatten.length, some s.task.io.received,
        some v.addr⟩
      (s.receive v.addr v.place (v.commands.map Command.bytes).flatten) := by
  have hroom : ¬ s.task.io.rxQueue.isFull := by
    have hpos := s.task.io.rxQueue.begin_lt
    rw [TQueue.full_iff, ← TQueue.length_toList, h.received, List.length_nil]
    omega
  have hagrees : UdpIo.Agrees raw { s.task.io with
      memory := s.task.io.memory.write v.place (v.commands.map Command.bytes).flatten } :=
    h.agrees.of_eq rfl rfl rfl rfl
  obtain ⟨update, hreceive, -⟩ := UdpIo.receive_eq { s.task.io with
    memory := s.task.io.memory.write v.place (v.commands.map Command.bytes).flatten } v.addr
    v.place (v.commands.map Command.bytes).flatten.length
  refine ⟨⟨h.serving.cycle, h.serving.connected, h.serving.consistent, h.serving.ready⟩,
    Udp.loaded_receive hagrees h.linked h.inited h.queue v.addr (foreign_of_apart v.apart) _, ?_,
    rfl, ?_, v.short, v.modest⟩
  · simp only [Station.receive, hreceive]
    rw [TQueue.toList_push, if_neg hroom, h.received]
    rfl
  · simp only [Station.receive, hreceive]
    exact Mem.read_write ..

/-- **A visit**: the client gets its replies, and nothing is left. -/
theorem Rests.visit (hhandler : b.processTxAppData.isSome) (h : Rests raw s) (v : Visit raw) :
    ∃ s', s.visit b v = some s' ∧ Rests raw s' ∧
      ∃ groups : List (List (List UInt8)),
        s'.task.io.sends = s.task.io.sends ++
          (groups.map List.flatten).map (fun data => ⟨v.addr, data, true, some v.addr⟩) ∧
        ServerState.Serves b.debug s.upper.session.inst.lower.server v.commands
          s'.upper.session.inst.lower.server groups.flatten := by
  have hwaits := h.receive v
  have hlong := v.enough
  have hsends : (s.receive v.addr v.place (v.commands.map Command.bytes).flatten).task.io.sends =
      s.task.io.sends := by
    obtain ⟨update, hreceive, -⟩ := UdpIo.receive_eq { s.task.io with
      memory := s.task.io.memory.write v.place (v.commands.map Command.bytes).flatten } v.addr
      v.place (v.commands.map Command.bytes).flatten.length
    simp only [Station.receive, hreceive]
  obtain ⟨s', hcalls, groups, hdrains, hserves⟩ : ∃ s', s.visit b v = some s' ∧
      Answered b raw v.addr v.commands
        (s.receive v.addr v.place (v.commands.map Command.bytes).flatten) s' := by
    obtain hstate | hstate | hstate := hwaits.serving.cycle
    · exact serve_process hhandler hwaits hstate v.succeeds (by omega)
    · exact serve_rx hhandler hwaits hstate v.succeeds (by omega)
    · exact serve_tx hhandler hwaits hstate v.succeeds hlong
  refine ⟨s', hcalls, .of_drains hdrains, groups, ?_, hserves⟩
  have hsent := hdrains.sends_eq
  rwa [List.map_nil, List.append_nil, hsends] at hsent

/-- Every visit of a run goes through. -/
theorem Rests.visits (hhandler : b.processTxAppData.isSome) (vs : List (Visit raw))
    (h : Rests raw s) : ∃ s', vs.foldlM (Station.visit b) s = some s' ∧ Rests raw s' := by
  induction vs generalizing s with
  | nil => exact ⟨s, rfl, h⟩
  | cons v vs ih =>
    obtain ⟨s₁, hvisit, h₁, -⟩ := h.visit hhandler v
    obtain ⟨s', hvisits, h'⟩ := ih h₁
    refine ⟨s', ?_, h'⟩
    rw [List.foldlM_cons, hvisit]
    exact hvisits

/-- The device with a connection, before the first datagram. -/
def connected (rx : TProtocol) (txPacket : Mem) (memory : ℕ → TDataBuffer) (behind : Mem)
    (lower : ρ) (ram : Mem) (raw : ℕ) (cells : ℕ → UdpData) : Station ρ where
  task := ⟨true, .kStProcess, true, true, true, .init ram raw cells true, [true]⟩
  upper := Surroundings.start rx txPacket memory behind lower

theorem rests_connected (rx : TProtocol) (txPacket : Mem) (memory : ℕ → TDataBuffer)
    (behind : Mem) (lower : ρ) (ram : Mem) (raw : ℕ) (cells : ℕ → UdpData) :
    Rests raw (connected rx txPacket memory behind lower ram raw cells) where
  serving := by
    have hstart := Surroundings.Kept.start rx txPacket memory behind lower
    exact ⟨.inl rfl, rfl, hstart.consistent, hstart.ready⟩
  agrees := UdpIo.agrees_init ram raw cells true
  linked := fun hconn => absurd hconn Bool.false_ne_true
  inited := rfl
  queue := rfl
  received := rfl

/-- **Clients that take turns are served.** Let the device have a connection, and let any clients
have visited it, one after the other, each with a datagram of commands whose replies fit a buffer
and with at most three requests for data; let the network library do what it is asked to. The next
client that does so gets, by the time `process` has been called thirteen times, the replies of the
server that `ServerState.serve` describes to its commands: in order and whole, in datagrams that are
sent to it. Nothing else is sent, to it or to others. -/
theorem client_served (hhandler : b.processTxAppData.isSome) (rx : TProtocol) (txPacket : Mem)
    (memory : ℕ → TDataBuffer) (behind : Mem) (lower : ρ) (ram : Mem) (raw : ℕ)
    (cells : ℕ → UdpData) (vs : List (Visit raw)) (v : Visit raw) :
    ∃ s s', ∃ groups : List (List (List UInt8)),
      vs.foldlM (visit b) (connected rx txPacket memory behind lower ram raw cells) = some s ∧
      s.visit b v = some s' ∧
      s'.task.io.sends = s.task.io.sends ++
        groups.map (fun group => ⟨v.addr, group.flatten, true, some v.addr⟩) ∧
      ServerState.Serves b.debug s.upper.session.inst.lower.server v.commands
        s'.upper.session.inst.lower.server groups.flatten := by
  obtain ⟨s, hvisits, h⟩ := Rests.visits hhandler vs
    (rests_connected rx txPacket memory behind lower ram raw cells)
  obtain ⟨s', hvisit, -, groups, hsends, hserves⟩ := h.visit hhandler v
  rw [List.map_map] at hsends
  exact ⟨s, s', groups, hvisits, hvisit, hsends, hserves⟩

/-- A call of `process` while the network library does what it is asked to. -/
def call : UdpInput := ⟨true, [], true, true⟩

/-- Calls of `process`. -/
theorem succeeds_replicate (n : ℕ) : ∀ e ∈ List.replicate n call, Succeeds e := by
  intro e he
  rw [List.eq_of_mem_replicate he]
  exact ⟨rfl, rfl⟩

/-- A client writes register 14. -/
def firstVisit : Visit 0 where
  addr := 0x0A000001
  place := 10000
  commands := [.query (.write 1 14 5)]
  calls := List.replicate 13 call
  modest := ⟨by decide, by decide⟩
  short := by decide
  apart := by decide
  succeeds := succeeds_replicate 13
  enough := by decide

/-- A client asks for data and reads register 14. -/
def secondVisit : Visit 0 where
  addr := 0x0A000002
  place := 20000
  commands := [.app 3 msgAppRequestData [] (by decide) (by decide), .query (.read 4 14)]
  calls := List.replicate 15 call
  modest := ⟨by decide, by decide⟩
  short := by decide
  apart := by decide
  succeeds := succeeds_replicate 15
  enough := by decide

/-- One client after the other. -/
theorem client_served_second :
    ∃ s s', ∃ groups : List (List (List UInt8)),
      [firstVisit].foldlM (visit Surroundings.quiet) (connected TProtocol.listener (fun _ => 0)
        (fun _ => ⟨0, 0, 0, fun _ => 0⟩) (fun _ => 0) () (fun _ => 0) 0
        fun _ => ⟨0, 0, none, none⟩) = some s ∧
      s.visit Surroundings.quiet secondVisit = some s' ∧
      s'.task.io.sends = s.task.io.sends ++
        groups.map (fun group => ⟨0x0A000002, group.flatten, true, some 0x0A000002⟩) ∧
      ServerState.Serves Surroundings.quiet.debug s.upper.session.inst.lower.server
        secondVisit.commands s'.upper.session.inst.lower.server groups.flatten :=
  client_served rfl TProtocol.listener _ _ _ () _ 0 _ [firstVisit] secondVisit

end Station

end KS3.Supervisor
