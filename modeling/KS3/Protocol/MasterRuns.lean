import KS3.Foundations.Run
import KS3.Hal.Ticks
import KS3.Protocol.MasterPackets

/-!
# Runs of `TMasterTx`

A run of the machine: time passes, requests are queued by the functions of `protocol.cpp`, layer 1
and the receiver of the local bus go on, and `process` and the two notifications are called, in any
order. Time is a number that does not wrap; the tick counter of the device is its low 32 bits, and
`timedOut_le` says that a timeout is never early.

* `invariant_step`: the requests in the queue and the limit of the packet are always as
  `process_ready` needs them;
* `process_cases`: everything a call of `process` can do;
* `keepsRefused_iff`: in every reachable state requests survive the refusal of their packet exactly
  when layer 1 has room for it, that is, when it is not refused.
-/

namespace KS3.Protocol

open Comm DataIO

/-! ## Ticks -/

/-- The tick counter at a time. -/
def tick (time : ℕ) : UInt32 := UInt32.ofNat time

/-- `difftime` of two moments is at most the time between them. -/
theorem difftime_le {start time : ℕ} (h : start ≤ time) :
    (Hal.difftime (tick start) (tick time)).toNat ≤ time - start := by
  have hadd : tick time = tick start + tick (time - start) := by
    rw [tick, tick, tick, ← UInt32.ofNat_add, Nat.add_sub_cancel' h]
  have hlen : (tick (time - start)).toNat ≤ time - start := by
    rw [tick, UInt32.toNat_ofNat']
    exact Nat.mod_le _ _
  rw [hadd, Hal.toNat_difftime_add]
  split_ifs <;> omega

namespace TMasterTx

/-- A timeout is never early. -/
theorem timedOut_le {start time : ℕ} {msec : UInt32} (h : start ≤ time)
    (hout : TimedOut (tick start) (tick time) msec) : start + msec.toNat ≤ time := by
  have hle := difftime_le h
  have hge := UInt32.le_iff_toNat_le.1 hout
  omega

end TMasterTx

/-! ## Runs -/

/-- The machine at a time, with the time of the last call of `onRxSlaveData`. -/
structure Line (τ : Type*) where
  master : TMasterTx τ
  time : ℕ
  lastRxData : Option ℕ

namespace Line

variable {τ : Type*} (bus : LocalBus τ)

/-- The machine after construction. The limit of the packet is `TProtocol::MaxPacketPayload`. -/
def init (address srcAddress : UInt16) (layer3 : Layer3Tx) (lower : τ) (cells : ℕ → TTxRequest)
    (timeoutSlaveAnswer timeoutEndPacket : UInt32) (time : ℕ) : Line τ where
  master := .init address
    ⟨layer3.setTxAppSize (UInt16.ofNat maxLayer2DataSize), srcAddress, .linkId0, lower, [], []⟩
    (.init cells txRqNLoc txRqNLoc_pos) timeoutSlaveAnswer timeoutEndPacket
  time := time
  lastRxData := none

/-- What happens: time passes; layer 1 goes on; a packet from an address begins to be processed,
which empties the packet to be sent; requests are queued or flushed; the methods of the machine are
called. -/
inductive Event (τ : Type*)
  | pass (ticks : ℕ)
  | layer1 (lower : τ)
  | receive (srcAddress : UInt16)
  | addTxMsgWrite (a : UInt16) (p0 p1 f : UInt32) (id : UInt8)
  | addTxMsgRead (a : UInt16) (p0 f : UInt32) (id : UInt8)
  | addTxMsgApp (a : UInt16) (t sz data f : UInt32) (id : UInt8)
  | addTxMsgReadBlock (a base size : UInt16) (f : UInt32) (id : UInt8)
  | flushTxBuffer (id : UInt8)
  | process
  | onRxSlaveData
  | onRxSlavePacket

/-- The queue is changed. -/
def withQueue (s : Line τ) (q : TQueue TTxRequest) : Line τ :=
  { s with master := { s.master with txQueue := q } }

/-- One event. -/
def step (s : Line τ) : Event τ → Line τ
  | .pass ticks => { s with time := s.time + ticks }
  | .layer1 lower =>
    { s with master := { s.master with protocol := { s.master.protocol with lower := lower } } }
  | .receive srcAddress =>
    { s with master := { s.master with
      protocol := { s.master.protocol.startTxPacket with srcAddress := srcAddress } } }
  | .addTxMsgWrite a p0 p1 f id => s.withQueue (addTxMsgWrite s.master.txQueue a p0 p1 f id)
  | .addTxMsgRead a p0 f id => s.withQueue (addTxMsgRead s.master.txQueue a p0 f id)
  | .addTxMsgApp a t sz data f id =>
    s.withQueue (addTxMsgApp s.master.txQueue a t sz data f id).2
  | .addTxMsgReadBlock a base size f id =>
    s.withQueue (addTxMsgReadBlock s.master.txQueue a base size f id)
  | .flushTxBuffer id => s.withQueue (flushTxBuffer s.master.txQueue id)
  | .process => { s with master := s.master.process bus (tick s.time) }
  | .onRxSlaveData =>
    { s with master := s.master.onRxSlaveData (tick s.time), lastRxData := some s.time }
  | .onRxSlavePacket => { s with master := s.master.onRxSlavePacket (tick s.time) }

/-! ## What the queue holds -/

/-- The requests in the queue are as they should be, the limit of the packet is the one set at
construction, and so are the timeouts. -/
structure Ok (timeoutSlaveAnswer timeoutEndPacket : UInt32) (s : Line τ) : Prop where
  requests : ∀ rq ∈ s.master.txQueue.toList, rq.Ok
  limit : s.master.protocol.layer3.maxTxAppSize = maxLayer2DataSize
  answer : s.master.timeoutSlaveAnswer = timeoutSlaveAnswer
  endPacket : s.master.timeoutEndPacket = timeoutEndPacket

variable {timeoutSlaveAnswer timeoutEndPacket : UInt32} {s : Line τ}

/-- The size of an application message comes back from the first parameter of its request. -/
theorem loWord_packed (t : UInt32) {sz : UInt32} (hsz : sz ≤ 4) :
    (loWord ((t <<< 16) ||| sz)).toNat = sz.toNat := by
  have hle : sz.toNat ≤ 4 := UInt32.le_iff_toNat_le.1 hsz
  have hshift : (t <<< 16).toNat % 2 ^ 16 = 0 := by
    rw [toNat_shiftLeft_sixteen, Nat.mul_mod_left]
  rw [loWord, UInt16.toNat_ofNat', UInt32.toNat_or, Nat.or_mod_two_pow, hshift, Nat.zero_or]
  omega

theorem ok_withQueue (h : s.Ok timeoutSlaveAnswer timeoutEndPacket) {q : TQueue TTxRequest}
    (hq : ∀ rq ∈ q.toList, rq.Ok) : (s.withQueue q).Ok timeoutSlaveAnswer timeoutEndPacket :=
  ⟨hq, h.limit, h.answer, h.endPacket⟩

/-- A request that is as it should be is pushed. -/
theorem ok_push {q : TQueue TTxRequest} (h : ∀ rq ∈ q.toList, rq.Ok) {rq : TTxRequest}
    (hrq : rq.Ok) : ∀ rq' ∈ (q.push rq).toList, rq'.Ok := by
  rw [TQueue.toList_push]
  split_ifs
  · exact h
  · exact List.forall_mem_append.2 ⟨h, List.forall_mem_singleton.2 hrq⟩

/-- A request that is no application message is as it should be. -/
theorem ok_record {rq : TTxRequest} (htype : rq.type = msgParameterWrite.toUInt16 ∨
    rq.type = msgParameterRead.toUInt16 ∨ rq.type = msgReadBlock.toUInt16) : rq.Ok where
  known := by
    rcases htype with h | h | h
    · exact .inl h
    · exact .inr (.inl h)
    · exact .inr (.inr (.inl h))
  short happ := by
    rw [happ] at htype
    exact absurd htype (by decide)

theorem ok_addTxMsgApp {q : TQueue TTxRequest} (h : ∀ rq ∈ q.toList, rq.Ok) (a : UInt16)
    (t sz data f : UInt32) (id : UInt8) :
    ∀ rq ∈ (addTxMsgApp q a t sz data f id).2.toList, rq.Ok := by
  rw [addTxMsgApp]
  split_ifs with hsz
  · refine ok_push h ⟨.inr (.inr (.inr rfl)), fun _ => ?_⟩
    rw [loWord_packed t hsz]
    exact UInt32.le_iff_toNat_le.1 hsz
  · exact h
  · exact h

end Line

namespace TMasterTx

variable {τ : Type*} (bus : LocalBus τ) {m : TMasterTx τ}

/-- **Everything a call of `process` can do.** -/
theorem process_cases (hok : ∀ rq ∈ m.txQueue.toList, rq.Ok)
    (hlimit : m.protocol.layer3.maxTxAppSize = maxLayer2DataSize) (now : UInt32) :
    m.process bus now = m ∨
      (∃ rq rqs, m.state = .stReadyToTx ∧ bus.getTxFree m.protocol.lower ≠ 0 ∧
        m.txQueue.toList = rq :: rqs ∧
        Processed bus m (m.process bus now) (batch (rq :: rqs)) now) ∨
      (m.state = .stWaitAnswer ∧ TimedOut m.timer now m.timeoutSlaveAnswer ∧
        m.process bus now = { m with state := .stReadyToTx, timer := now }) ∨
      (m.state = .stWaitRxComplete ∧ TimedOut m.timer now m.timeoutEndPacket ∧
        m.process bus now = { m with state := .stReadyToTx, timer := now }) := by
  cases hstate : m.state with
  | stReadyToTx =>
    by_cases hfree : bus.getTxFree m.protocol.lower = 0
    · left
      simp [process, hstate, hfree]
    · cases hqueue : m.txQueue.toList with
      | nil =>
        left
        simp [process, hstate, TQueue.front_eq, hqueue]
      | cons rq rqs =>
        right; left
        rw [hqueue] at hok
        exact ⟨rq, rqs, rfl, hfree, rfl, process_ready bus hstate hfree hqueue hok hlimit now⟩
  | stWaitAnswer =>
    by_cases hout : TimedOut m.timer now m.timeoutSlaveAnswer
    · right; right; left
      exact ⟨rfl, hout, by simp [process, hstate, hout]⟩
    · left
      simp [process, hstate, hout]
  | stWaitRxComplete =>
    by_cases hout : TimedOut m.timer now m.timeoutEndPacket
    · right; right; right
      exact ⟨rfl, hout, by simp [process, hstate, hout]⟩
    · left
      simp [process, hstate, hout]

end TMasterTx

namespace Line

variable {τ : Type*} (bus : LocalBus τ) {timeoutSlaveAnswer timeoutEndPacket : UInt32}

theorem ok_process {s : Line τ} (h : s.Ok timeoutSlaveAnswer timeoutEndPacket) :
    (s.step bus .process).Ok timeoutSlaveAnswer timeoutEndPacket := by
  obtain hsame | ⟨rq, rqs, -, -, hqueue, hdone⟩ | ⟨-, -, hout⟩ | ⟨-, -, hout⟩ :=
    TMasterTx.process_cases bus h.requests h.limit (tick s.time)
  · rw [step, hsame]
    exact h
  · refine ⟨fun rq' hrq' => h.requests rq' ?_, hdone.limit.trans h.limit,
      hdone.timeouts.1.trans h.answer, hdone.timeouts.2.trans h.endPacket⟩
    rw [hdone.queue]
    exact List.mem_append_right _ hrq'
  · rw [step, hout]
    exact ⟨h.requests, h.limit, h.answer, h.endPacket⟩
  · rw [step, hout]
    exact ⟨h.requests, h.limit, h.answer, h.endPacket⟩

/-- Every event leaves the queue, the limit and the timeouts as they should be. -/
theorem invariant_step (s : Line τ) (e : Event τ) (h : s.Ok timeoutSlaveAnswer timeoutEndPacket) :
    (s.step bus e).Ok timeoutSlaveAnswer timeoutEndPacket := by
  cases e with
  | pass ticks => exact ⟨h.requests, h.limit, h.answer, h.endPacket⟩
  | layer1 lower => exact ⟨h.requests, h.limit, h.answer, h.endPacket⟩
  | receive srcAddress => exact ⟨h.requests, h.limit, h.answer, h.endPacket⟩
  | addTxMsgWrite a p0 p1 f id =>
    refine ok_withQueue h ?_
    rw [addTxMsgWrite]
    split_ifs
    · exact ok_push h.requests (ok_record (.inl rfl))
    · exact h.requests
  | addTxMsgRead a p0 f id =>
    refine ok_withQueue h ?_
    rw [addTxMsgRead]
    split_ifs
    · exact ok_push h.requests (ok_record (.inr (.inl rfl)))
    · exact h.requests
  | addTxMsgApp a t sz data f id =>
    exact ok_withQueue h (ok_addTxMsgApp h.requests a t sz data f id)
  | addTxMsgReadBlock a base size f id =>
    refine ok_withQueue h ?_
    rw [addTxMsgReadBlock]
    split_ifs
    · exact ok_push h.requests (ok_record (.inr (.inr rfl)))
    · exact h.requests
  | flushTxBuffer id =>
    refine ok_withQueue h ?_
    rw [flushTxBuffer]
    split_ifs
    · simp [TQueue.toList_clear]
    · exact h.requests
  | process => exact ok_process bus h
  | onRxSlaveData =>
    rw [step, TMasterTx.onRxSlaveData]
    split_ifs <;> exact ⟨h.requests, h.limit, h.answer, h.endPacket⟩
  | onRxSlavePacket =>
    rw [step, TMasterTx.onRxSlavePacket]
    split_ifs <;> exact ⟨h.requests, h.limit, h.answer, h.endPacket⟩

theorem ok_run {s : Line τ} (h : s.Ok timeoutSlaveAnswer timeoutEndPacket) (es : List (Event τ)) :
    (Run.final (step bus) s es).Ok timeoutSlaveAnswer timeoutEndPacket :=
  Run.always_final (invariant_step bus) h es

/-! ## Refused packets -/

section Refused

variable (address srcAddress : UInt16) (layer3 : Layer3Tx) (lower : τ) (cells : ℕ → TTxRequest)
  (T E : UInt32) (time : ℕ)

theorem ok_init :
    (init address srcAddress layer3 lower cells T E time).Ok T E := by
  constructor
  case requests => exact fun rq h => absurd h List.not_mem_nil
  all_goals rfl

/-- Every state of a run is as it should be. -/
theorem ok_final (es : List (Event τ)) :
    (Run.final (step bus) (init address srcAddress layer3 lower cells T E time) es).Ok T E :=
  ok_run bus (ok_init address srcAddress layer3 lower cells T E time) es

/-- The packets that an event passes down. -/
def Passes (s : Line τ) (e : Event τ) (packets : List Packet) : Prop :=
  (s.step bus e).master.protocol.packets = s.master.protocol.packets ++ packets

/-- If a packet of `process` is refused, the queue is what it was, and no answer is waited for. -/
def KeepsRefused (s : Line τ) : Prop :=
  ∀ packets, s.Passes bus .process packets → (∃ packet ∈ packets, ¬ TMasterTx.Written packet) →
    (s.step bus .process).master.txQueue.toList = s.master.txQueue.toList ∧
      (s.step bus .process).master.state ≠ .stWaitAnswer

/-- Layer 1 has room for the packet that `process` would make of the requests in the queue. -/
def RoomForNext (s : Line τ) : Prop :=
  s.master.state = .stReadyToTx → bus.getTxFree s.master.protocol.lower ≠ 0 →
    s.master.txQueue.toList ≠ [] →
    s.master.RoomFor bus (TMasterTx.batch s.master.txQueue.toList)

/-- A `process` that is not ready, has no room at all or has no requests passes nothing down. -/
theorem passes_nothing {s : Line τ} (h : s.Ok T E)
    (hnot : ¬ (s.master.state = .stReadyToTx ∧ bus.getTxFree s.master.protocol.lower ≠ 0 ∧
      s.master.txQueue.toList ≠ [])) : s.Passes bus .process [] := by
  rw [Passes, List.append_nil, step]
  obtain hsame | ⟨rq, rqs, hstate, hfree, hqueue, -⟩ | ⟨-, -, hout⟩ | ⟨-, -, hout⟩ :=
    TMasterTx.process_cases bus h.requests h.limit (tick s.time)
  · rw [hsame]
  · exact absurd ⟨hstate, hfree, by rw [hqueue]; exact List.cons_ne_nil rq rqs⟩ hnot
  · rw [hout]
  · rw [hout]

theorem keepsRefused_iff_of_ok {s : Line τ} (h : s.Ok T E) :
    s.KeepsRefused bus ↔ s.RoomForNext bus := by
  by_cases hready : s.master.state = .stReadyToTx ∧
    bus.getTxFree s.master.protocol.lower ≠ 0 ∧ s.master.txQueue.toList ≠ []
  swap
  · have hnothing := passes_nothing bus T E h hready
    refine iff_of_true ?_ fun hstate hfree hqueue => absurd ⟨hstate, hfree, hqueue⟩ hready
    rintro packets hpasses ⟨packet, hmem, -⟩
    rw [Passes, hnothing, List.append_cancel_left_eq] at hpasses
    rw [← hpasses] at hmem
    cases hmem
  obtain ⟨hstate, hfree, hne⟩ := hready
  obtain ⟨rq, rqs, hqueue⟩ := List.exists_cons_of_ne_nil hne
  have hdone := TMasterTx.process_ready bus hstate hfree hqueue
    (by rw [← hqueue]; exact h.requests) h.limit (tick s.time)
  obtain ⟨packet, hpackets, hwritten⟩ := hdone.packet
  rw [← hqueue] at hdone hwritten
  constructor
  · intro hkeeps hstate' hfree' hne'
    by_contra hroom
    obtain ⟨hsame, -⟩ := hkeeps [packet] hpackets
      ⟨packet, List.mem_singleton_self packet, fun hw => hroom (hwritten.1 hw)⟩
    have htaken := hdone.queue
    rw [step] at hsame
    rw [hsame, List.self_eq_append_left, hqueue] at htaken
    exact List.cons_ne_nil _ _ htaken
  · rintro hroom packets hpasses ⟨packet', hmem, hnot⟩
    have heq : packets = [packet] := by
      rw [Passes, step, hpackets, List.append_cancel_left_eq] at hpasses
      exact hpasses.symm
    rw [heq, List.mem_singleton] at hmem
    rw [hmem] at hnot
    exact absurd (hwritten.2 (hroom hstate hfree hne)) hnot

/-- **Refused requests.** In every state of a run requests survive the refusal of their packet
exactly when it is not refused: `process` has nothing to send, or layer 1 has more room than the
packet needs. -/
theorem keepsRefused_iff (es : List (Event τ)) :
    let s := Run.final (step bus) (init address srcAddress layer3 lower cells T E time) es
    s.KeepsRefused bus ↔ s.RoomForNext bus :=
  keepsRefused_iff_of_ok bus T E
    (ok_final bus address srcAddress layer3 lower cells T E time es)

end Refused

/-- A line with a buffer: its state is how many octets are free. -/
def uart : LocalBus ℕ where
  layer2 := ⟨fun _ => 0, fun _ => 0, .stWait, 0, 0, 0, 0xFF, false⟩
  getTxFree free := free
  write octets free := (octets.length, free - octets.length)
  processTxAppData := none
  reserved _ := 0

/-- The machine with the timeouts of the device, on a line with the given number of free octets. -/
def fresh (free : ℕ) : Line ℕ :=
  init 0 0 ⟨fun _ => 0, 0, 0⟩ free (fun _ => ⟨0, 0, 0, 0, 0⟩) 20 2 0

theorem ok_fresh (free : ℕ) (es : List (Event ℕ)) :
    (Run.final (step uart) (fresh free) es).Ok 20 2 :=
  ok_final uart 0 0 ⟨fun _ => 0, 0, 0⟩ free (fun _ => ⟨0, 0, 0, 0, 0⟩) 20 2 0 es

/-- A request meets a line with five free octets: it is gone, and its answer is waited for. -/
theorem request_lost :
    ¬ (Run.final (step uart) (fresh 5) [.addTxMsgRead 1 0 fRqAnswer linkIdLocal]).KeepsRefused
      uart := by
  intro hkeeps
  have hroom := (keepsRefused_iff_of_ok uart 20 2 (ok_fresh 5 _)).1 hkeeps rfl (by decide)
    (by decide)
  exact absurd hroom (by decide)

end Line

end KS3.Protocol
