import KS3.Poll.Link

/-!
# Acknowledged blocks are not always stored

`handleData` acknowledges a block before it looks where the block comes from, and it remembers the
packet number of a block before it knows what `dataHandler` says. So a block is acknowledged though
it is not stored if the machine is at another slave, if its number is the one remembered, or if
`dataHandler` refuses it; and a block that was refused is taken for a duplicate when it comes again.

`noLoss_iff`: along a run, no acknowledged block is lost exactly when none of this happens, which
is `Admissible`, a condition on the state an arriving block meets.
-/

namespace KS3.Poll

open Comm DataIO Protocol Buffers SlavePoll

/-! ## Acknowledges in the queue -/

section Queue

variable (q : TQueue TTxRequest) (address pn : UInt16)

/-- The request `sendDataAck` makes. -/
def dataAck : TTxRequest :=
  ⟨msgAppType.toUInt16, address, 0x110002, 2, fBreakPacket ||| fRqAnswer⟩

theorem sendDataAck_eq : sendDataAck q address pn = q.push (dataAck address) := rfl

theorem acknowledges_dataAck : Acknowledges (dataAck address) address :=
  ⟨rfl, rfl, (by decide : (0x110002 : UInt32) >>> 16 = msgAppDataAcknowledge.toUInt32)⟩

/-- The acknowledge is queued if there is room, whatever is pushed behind it. -/
theorem acknowledgeQueued_push (rq : TTxRequest) :
    acknowledgeQueued q (q.push (dataAck address)) address = !q.isFull ∧
      acknowledgeQueued q ((q.push (dataAck address)).push rq) address = !q.isFull := by
  have hack := acknowledges_dataAck address
  simp only [acknowledgeQueued]
  by_cases hfull : q.isFull
  · have hdrop : q.toList.drop q.toList.length = [] := List.drop_length
    rw [TQueue.push_of_full q hfull, TQueue.push_of_full q hfull, hdrop, hfull]
    exact ⟨rfl, rfl⟩
  · rw [TQueue.toList_push _ rq, TQueue.toList_push, if_neg hfull]
    split_ifs <;> simp [hack, hfull]

end Queue

/-! ## The message in memory -/

section Memory

variable (memory : Mem) (seq : UInt8) (type : UInt16) (data : List UInt8)

theorem appMessage_id : memory.write 0 (appMessage seq type data) 0 = msgAppType :=
  memory.write_add (i := 0) (k := 0) _ (by simp [appMessage])

theorem appMessage_type : (memory.write 0 (appMessage seq type data)).word 2 = type := by
  have hlo : memory.write 0 (appMessage seq type data) (0 + 2) = loByte type :=
    memory.write_add _ (by simp [appMessage])
  have hhi : memory.write 0 (appMessage seq type data) (0 + 3) = hiByte type :=
    memory.write_add _ (by simp [appMessage])
  rw [Nat.zero_add] at hlo hhi
  rw [Mem.word, hlo, hhi, ofBytes_lo_hi]

end Memory

/-! ## One arrival -/

namespace System

variable {σ : Type*} (dataHandler : TDataBuffer → UInt16 → σ → ℤ × σ)

/-- The block a data message brings, as the device sees it. -/
def received (memory : Mem) (seq : UInt8) (block : List UInt8) : TDataBuffer :=
  blockOfMem ((memory.write 0 (appMessage seq kDataId block)).shift 6)

variable (s : System σ) (src : UInt16) (seq : UInt8) (block : List UInt8) (memory : Mem)

/-- What becomes of a block: it is passed to `dataHandler` or not, and it is acknowledged in any
case if the queue has room. -/
def outcome (s : System σ) (src : UInt16) (block : List UInt8) (p : TDataBuffer) : Arrival where
  src := src
  block := block
  result := if s.poll.Passes src p then some (dataHandler p kDataId s.storage).1 else none
  acknowledged := !s.txQueueLoc.isFull

theorem trace_receiveData :
    (s.receiveData dataHandler src block (memory.write 0 (appMessage seq kDataId block))).trace =
      s.trace ++ [s.outcome dataHandler src block (received memory seq block)] := by
  have hack := acknowledgeQueued_push s.txQueueLoc src
  rw [receiveData, receive, rxMessageHandler, if_pos (appMessage_id ..),
    handleMsgAppType_data _ _ _ _ _ (appMessage_type ..) rfl, sendDataAck_eq]
  change s.trace ++ [⟨src, block, _, acknowledgeQueued s.txQueueLoc (ite _ _ _) src⟩] =
    s.trace ++ [⟨src, block, _, _⟩]
  congr 3
  · rw [apply_ite Prod.snd]
    rfl
  · split_ifs
    · exact (hack _).2
    · exact (hack (dataAck src)).1

/-- The condition on an arriving block: the queue is full, a copy of the block was stored before,
or the block is passed to `dataHandler` and stored now; and it is passed to `dataHandler` if it was
refused before. -/
def Admissible (s : System σ) (src : UInt16) (block : List UInt8) (p : TDataBuffer) : Prop :=
  (s.txQueueLoc.isFull ∨ Stored s.trace src block ∨
      s.poll.Passes src p ∧ 0 < (dataHandler p kDataId s.storage).1) ∧
    (Refused s.trace src block → s.poll.Passes src p)

theorem kept_outcome_iff (p : TDataBuffer) :
    Kept s.trace (s.outcome dataHandler src block p) ↔ s.Admissible dataHandler src block p := by
  have hstored := stored_append s.trace (s.outcome dataHandler src block p)
  have hnow : (∃ rc ∈ (s.outcome dataHandler src block p).result, 0 < rc) ↔
      s.poll.Passes src p ∧ 0 < (dataHandler p kDataId s.storage).1 := by
    simp only [outcome]
    split_ifs with hpass <;> simp [hpass]
  constructor
  · rintro ⟨hkept, hagain⟩
    refine ⟨?_, fun h => ?_⟩
    · by_cases hfull : s.txQueueLoc.isFull
      · exact .inl hfull
      · exact .inr ((hstored.1 (hkept (by simpa [outcome] using hfull))).imp_right hnow.1)
    · by_contra hpass
      simpa [outcome, hpass] using hagain h
  · rintro ⟨hkept, hagain⟩
    refine ⟨fun hack => ?_, fun h => ?_⟩
    · have hroom : ¬ s.txQueueLoc.isFull := by simpa [outcome] using hack
      exact hstored.2 ((hkept.resolve_left hroom).imp_right hnow.2)
    · simp [outcome, hagain h]

/-! ## Whole runs -/

/-- The block an event delivers: the slave it comes from, its octets, and the block as the device
sees it. -/
def arriving (s : System σ) : Event σ → Option (UInt16 × List UInt8 × TDataBuffer)
  | .deliver k memory =>
    match s.link[k]? with
    | some (.data src seq block) => some (src, block, received memory seq block)
    | _ => none
  | _ => none

theorem trace_step_of_some {e : Event σ} {p : TDataBuffer}
    (h : s.arriving e = some (src, block, p)) :
    (s.step dataHandler e).trace = s.trace ++ [s.outcome dataHandler src block p] := by
  cases e with
  | deliver k memory =>
    simp only [arriving] at h
    split at h
    next src' seq block' hk =>
      obtain ⟨rfl, rfl, rfl⟩ : src' = src ∧ block' = block ∧ received memory seq block' = p := by
        simpa using h
      simp only [step, hk]
      exact trace_receiveData dataHandler { s with link := s.link.eraseIdx k } src' seq block'
        memory
    · cases h
  | _ => cases h

theorem trace_step_of_none {e : Event σ} (h : s.arriving e = none) :
    (s.step dataHandler e).trace = s.trace := by
  cases e with
  | deliver k memory =>
    simp only [step]
    split
    next src seq block hk =>
      rw [arriving, hk] at h
      cases h
    all_goals rfl
  | fill | transmit | send =>
    simp only [step]
    split <;> rfl
  | _ => rfl

/-- One event keeps the trace without loss exactly if the block it delivers is admissible. -/
theorem noLoss_step (e : Event σ) :
    NoLoss (s.step dataHandler e).trace ↔
      NoLoss s.trace ∧ ∀ src block p, s.arriving e = some (src, block, p) →
        s.Admissible dataHandler src block p := by
  cases h : s.arriving e with
  | none => simp [trace_step_of_none dataHandler s h]
  | some a =>
    obtain ⟨src, block, p⟩ := a
    rw [trace_step_of_some dataHandler s src block h, noLoss_append, kept_outcome_iff]
    refine and_congr_right fun _ => ⟨?_, fun hall => hall src block p rfl⟩
    rintro hadm _ _ _ ⟨⟩
    exact hadm

/-- **No acknowledged block is lost**, in a run with any slaves, any link, any stored blocks and any
handler of blocks, exactly when every block that arrives is admissible. -/
theorem noLoss_iff (period timeout : UInt32) (address : Fin kMaxSlaves → UInt16)
    (memory : ℕ → TTxRequest) (storage : σ) (es : List (Event σ)) :
    NoLoss (Run.final (step dataHandler) (init period timeout address memory storage) es).trace ↔
      ∀ m ∈ Run.steps (step dataHandler) (init period timeout address memory storage) es,
        ∀ src block p, m.1.arriving m.2 = some (src, block, p) →
          m.1.Admissible dataHandler src block p := by
  have hrun := Run.final_iff (I := fun s : System σ => NoLoss s.trace)
    (A := fun s e => ∀ src block p, s.arriving e = some (src, block, p) →
      s.Admissible dataHandler src block p)
    (noLoss_step dataHandler) (init period timeout address memory storage) es
  rw [hrun]
  exact and_iff_right noLoss_nil

/-! ## A block that is refused -/

/-- The container after 32 blocks that nobody took out. -/
def occupied : TDataBuffersContainer :=
  (List.range 32).foldl (fun c n => (writeData (Store.block (UInt16.ofNat n)) kDataId c).2)
    Store.blank.container

/-- The device at the start, with the addresses it is built with. -/
def device : System TDataBuffersContainer :=
  init 200 50 ![1, 2, 0, 0] (fun _ => ⟨0, 0, 0, 0, 0⟩) occupied

/-- A block with one sample. -/
def sample : List UInt8 := [32, 0, 1, 0, 5, 0, 0, 0, 1, 0, 0, 0, 2, 0, 0, 0, 3, 0, 0, 0]

/-- The first slave is asked for data and sends its block twice. -/
def refusedRun : List (Event TDataBuffersContainer) :=
  [.start, .process 0, .process 0, .process 0, .send, .deliver 0 fun _ => 0, .fill 1 sample,
    .transmit 1 0, .transmit 1 0, .deliver 0 fun _ => 0, .deliver 0 fun _ => 0]

theorem trace_refusedRun : (Run.final (step writeData) device refusedRun).trace =
    [⟨1, sample, some kNoBuffers, true⟩, ⟨1, sample, none, true⟩] := by
  decide +kernel

/-- The block is acknowledged though there is no buffer for it, and the second copy is not passed
to the handler. -/
theorem not_noLoss_refusedRun :
    ¬ NoLoss (Run.final (step writeData) device refusedRun).trace := by
  rw [trace_refusedRun]
  intro h
  have hkept := h [] ⟨1, sample, some kNoBuffers, true⟩ (List.prefix_append [_] [_])
  obtain ⟨rc, hrc, hpos⟩ := hkept.stored rfl
  have hrefused : rc = kNoBuffers := by simpa [results] using hrc
  rw [hrefused] at hpos
  exact absurd hpos (by decide)

end System

end KS3.Poll
