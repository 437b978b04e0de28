import KS3.Poll.SlavePoll
import KS3.Foundations.Run

/-!
# The slaves and the link to them

A slave keeps a block of data and sends it, as often as it likes, until it receives a
`MsgApp_DataAcknowledge`. The link carries the messages of the slaves and the requests of the
device; it may lose and duplicate what it carries, and deliver it late and in any order. The device
is `SlavePoll` with its queue of requests and a handler of blocks with a state of its own, which
the rest of the device may change at any time.

A run writes down what became of each data message that arrived: its `trace`. The property of
interest, `NoLoss`, is a property of the trace alone.
-/

namespace KS3.Poll

open Comm DataIO Protocol Buffers

/-! ## Traces -/

/-- What became of a data message: the slave it came from and the octets of its block, the result
of `dataHandler` if it was called, and whether an acknowledge to the slave was queued. -/
structure Arrival where
  src : UInt16
  block : List UInt8
  result : Option ℤ
  acknowledged : Bool
  deriving DecidableEq

/-- The results of `dataHandler` for the copies of a block, in order. -/
def results (trace : List Arrival) (src : UInt16) (block : List UInt8) : List ℤ :=
  trace.filterMap fun a => if a.src = src ∧ a.block = block then a.result else none

/-- A copy of the block was stored. -/
def Stored (trace : List Arrival) (src : UInt16) (block : List UInt8) : Prop :=
  ∃ rc ∈ results trace src block, 0 < rc

/-- The latest call of `dataHandler` for the block returned an error. -/
def Refused (trace : List Arrival) (src : UInt16) (block : List UInt8) : Prop :=
  ∃ rc ∈ (results trace src block).getLast?, rc < 0

/-- What is asked of an arrival: a block that is acknowledged has been stored, now or before, and
a block that was refused is passed to `dataHandler` again. -/
structure Kept (past : List Arrival) (a : Arrival) : Prop where
  stored : a.acknowledged → Stored (past ++ [a]) a.src a.block
  again : Refused past a.src a.block → a.result.isSome

/-- No acknowledged block is lost. -/
def NoLoss (trace : List Arrival) : Prop := ∀ past a, past ++ [a] <+: trace → Kept past a

theorem noLoss_nil : NoLoss [] := by
  intro past a h
  have hlen := h.length_le
  simp at hlen

theorem noLoss_append (trace : List Arrival) (a : Arrival) :
    NoLoss (trace ++ [a]) ↔ NoLoss trace ∧ Kept trace a := by
  constructor
  · intro h
    exact ⟨fun past b hb => h past b (hb.trans (List.prefix_append ..)), h trace a List.prefix_rfl⟩
  · rintro ⟨hpast, ha⟩ past b hb
    rcases List.prefix_concat_iff.1 hb with heq | hpre
    · obtain ⟨rfl, hab⟩ := List.append_inj' heq rfl
      obtain rfl := List.singleton_inj.1 hab
      exact ha
    · exact hpast past b hpre

/-- A block is stored after an arrival of it if it was before, or if it is now. -/
theorem stored_append (trace : List Arrival) (a : Arrival) :
    Stored (trace ++ [a]) a.src a.block ↔
      Stored trace a.src a.block ∨ ∃ rc ∈ a.result, 0 < rc := by
  simp only [Stored, results, List.filterMap_append, List.mem_append, or_and_right, exists_or]
  refine or_congr_right ?_
  cases h : a.result <;> simp [h]

/-! ## The system -/

/-- What the link carries: a block or the notice that there is none, from a slave, or a request of
the device. -/
inductive Packet
  | data (src : UInt16) (sequenceNumber : UInt8) (block : List UInt8)
  | absence (src : UInt16) (sequenceNumber : UInt8)
  | request (rq : TTxRequest)

/-- The slaves, the link and the device. -/
structure System (σ : Type*) where
  poll : SlavePoll
  txQueueLoc : TQueue TTxRequest
  storage : σ
  slaves : UInt16 → Option (List UInt8)
  link : List Packet
  trace : List Arrival

/-- The events of a run. -/
inductive Event (σ : Type*)
  /-- A slave without a block gets one. -/
  | fill (address : UInt16) (block : List UInt8)
  /-- A slave sends the block it keeps. -/
  | transmit (address : UInt16) (sequenceNumber : UInt8)
  /-- A slave says that it has no data. -/
  | noData (address : UInt16) (sequenceNumber : UInt8)
  | lose (k : ℕ)
  | duplicate (k : ℕ)
  /-- A message is delivered; in the device it lies in `memory`. -/
  | deliver (k : ℕ) (memory : Mem)
  /-- The next request goes from the queue to the link. -/
  | send
  | process (now : UInt32)
  | start
  | stop
  /-- The rest of the device works on the stored blocks. -/
  | storage (f : σ → σ)

/-- The octets of a `MsgAppType` message. -/
def appMessage (sequenceNumber : UInt8) (type : UInt16) (data : List UInt8) : List UInt8 :=
  [msgAppType, sequenceNumber, loByte type, hiByte type,
    loByte (UInt16.ofNat data.length), hiByte (UInt16.ofNat data.length)] ++ data

/-- The request is an acknowledge to a slave. -/
def Acknowledges (rq : TTxRequest) (address : UInt16) : Prop :=
  rq.type = msgAppType.toUInt16 ∧ rq.address = address ∧
    rq.appType = msgAppDataAcknowledge.toUInt32

instance (rq : TTxRequest) (address : UInt16) : Decidable (Acknowledges rq address) :=
  inferInstanceAs (Decidable (_ ∧ _ ∧ _))

/-- An acknowledge to a slave is among the requests that were added to a queue. -/
def acknowledgeQueued (q q' : TQueue TTxRequest) (address : UInt16) : Bool :=
  (q'.toList.drop q.toList.length).any fun rq => Acknowledges rq address

/-- The handler of blocks, with a note of its result. -/
def recorded {σ : Type*} (dataHandler : TDataBuffer → UInt16 → σ → ℤ × σ) (block : TDataBuffer)
    (dataId : UInt16) (s : σ × Option ℤ) : ℤ × σ × Option ℤ :=
  let (rc, t) := dataHandler block dataId s.1
  (rc, t, some rc)

namespace System

variable {σ : Type*} (dataHandler : TDataBuffer → UInt16 → σ → ℤ × σ)

/-- The system at the start, with the addresses of the slaves in the table, any memory in the queue
and any stored blocks. -/
def init (period timeout : UInt32) (address : Fin kMaxSlaves → UInt16) (memory : ℕ → TTxRequest)
    (storage : σ) : System σ where
  poll := .init period timeout address
  txQueueLoc := .init memory txRqNLoc (by decide)
  storage := storage
  slaves _ := none
  link := []
  trace := []

/-- The device receives a message. -/
def receive (s : System σ) (src : UInt16) (msg : Mem) : System σ × Option ℤ :=
  let (poll, q, storage, result) :=
    s.poll.rxMessageHandler (recorded dataHandler) s.txQueueLoc (s.storage, none) msg src
  ({ s with poll := poll, txQueueLoc := q, storage := storage }, result)

/-- The device receives a block, and the trace says what became of it. -/
def receiveData (s : System σ) (src : UInt16) (block : List UInt8) (msg : Mem) : System σ :=
  let (t, result) := s.receive dataHandler src msg
  { t with
    trace := s.trace ++ [⟨src, block, result, acknowledgeQueued s.txQueueLoc t.txQueueLoc src⟩] }

/-- One event. -/
def step (s : System σ) : Event σ → System σ
  | .fill address block =>
    if s.slaves address = none then
      { s with slaves := Function.update s.slaves address (some block) }
    else
      s
  | .transmit address seq =>
    match s.slaves address with
    | some block => { s with link := s.link ++ [.data address seq block] }
    | none => s
  | .noData address seq => { s with link := s.link ++ [.absence address seq] }
  | .lose k => { s with link := s.link.eraseIdx k }
  | .duplicate k => { s with link := s.link ++ s.link[k]?.toList }
  | .deliver k memory =>
    match s.link[k]? with
    | some (.data src seq block) =>
      { s with link := s.link.eraseIdx k }.receiveData dataHandler src block
        (memory.write 0 (appMessage seq kDataId block))
    | some (.absence src seq) =>
      ({ s with link := s.link.eraseIdx k }.receive dataHandler src
        (memory.write 0 (appMessage seq msgAppDataAbsence []))).1
    | some (.request rq) =>
      { s with
        link := s.link.eraseIdx k
        slaves := if Acknowledges rq rq.address then Function.update s.slaves rq.address none
          else s.slaves }
    | none => s
  | .send =>
    match s.txQueueLoc.front with
    | some rq => { s with txQueueLoc := s.txQueueLoc.pop, link := s.link ++ [.request rq] }
    | none => s
  | .process now =>
    let (poll, q) := s.poll.process now s.txQueueLoc
    { s with poll := poll, txQueueLoc := q }
  | .start => { s with poll := s.poll.start }
  | .stop => { s with poll := s.poll.stop }
  | .storage f => { s with storage := f s.storage }

end System

end KS3.Poll
