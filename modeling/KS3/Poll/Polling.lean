import KS3.Poll.SlavePoll
import KS3.Foundations.Run

/-!
# The order of polling

A period begins when `kStStartPeriod` is executed; in it the slaves with an address are to be asked
one after another. After a request, however, the machine goes to `kStWaitRqInterval` and never to
`kStWait`, so that it stays at the slave it has asked until the next period begins.

`Leads`: before the slave the machine is at there is none with an address. `Intake.round_iff`: of
the slaves with an address each period asks the first only, so that it asks them all exactly when
there is at most one.
-/

namespace KS3.Poll

open Comm Protocol Buffers

namespace SlavePoll

/-! ## What `process` does to the state and the index -/

/-- What a period consists of: its beginning, and the requests to the slaves. -/
inductive Mark
  | period
  | request (i : Fin kMaxSlaves)
  deriving DecidableEq

/-- What `process` is about to do: begin a period, send a request, or neither. -/
def mark (p : SlavePoll) : Option Mark :=
  if p.state = .kStStartPeriod then some .period
  else if p.state = .kStSendRq ∧ p.polled.address > 0 then some (.request p.index)
  else none

/-- The moves of `process` outside `kStWait`. -/
inductive Move (p p' : SlavePoll) : Option Mark → Prop
  | period (h : p.state = .kStStartPeriod) (hstate : p'.state = .kStSendRq)
      (hindex : p'.index = 0) : Move p p' (some .period)
  | request (h : p.state = .kStSendRq) (hpos : p.polled.address > 0)
      (hstate : p'.state = .kStWaitRqInterval) (hindex : p'.index = p.index) :
      Move p p' (some (.request p.index))
  | skip (h : p.state = .kStSendRq) (hzero : p.polled.address = 0)
      (hstate : p'.state = .kStNext) (hindex : p'.index = p.index) : Move p p' none
  | next (h : p.state = .kStNext) (hstate : p'.state = .kStSendRq)
      (hindex : (p'.index : ℕ) = p.index + 1) : Move p p' none
  | last (h : p.state = .kStNext) (hindex : (p.index : ℕ) + 1 = kMaxSlaves)
      (hstate : p'.state = .kStWaitRqInterval) (hzero : p'.index = 0) : Move p p' none
  | rest (h : p.state ≠ .kStSendRq ∧ p.state ≠ .kStNext)
      (hstate : p'.state ≠ .kStSendRq ∧ p'.state ≠ .kStNext ∧ p'.state ≠ .kStWait)
      (hindex : p'.index = p.index) : Move p p' none

/-- **What `process` does** to the state and the index. -/
theorem process_move {p : SlavePoll} (h : p.state ≠ .kStWait) (now : UInt32)
    (q : TQueue TTxRequest) : Move p (p.process now q).1 p.mark := by
  unfold mark process
  rcases hst : p.state with _ | _ | _ | _ | _ | _ | _ | _
  case kStWait => exact absurd hst h
  case kStStartPeriod => exact .period hst rfl rfl
  case kStSendRq =>
    by_cases hpos : p.polled.address > 0
    · simp only [hpos]
      exact .request hst hpos rfl rfl
    · simp only [hpos]
      exact .skip hst (by simpa using hpos) rfl rfl
  case kStNext =>
    by_cases hlast : (p.index : ℕ) + 1 < kMaxSlaves
    · simp only [hlast]
      exact .next hst rfl rfl
    · simp only [hlast]
      exact .last hst (by omega) rfl rfl
  case kStWaitRqInterval =>
    refine .rest (by simp [hst]) ?_ ?_
    all_goals
      simp only
      split_ifs <;> simp [hst]
  all_goals exact .rest (by simp [hst]) (by simp [hst]) rfl

/-- The requests `process` adds to the queue are those it marks. -/
theorem process_queue (p : SlavePoll) (now : UInt32) (q : TQueue TTxRequest) :
    (p.process now q).2 =
      match p.mark with
      | some (.request i) => sendRequest q (p.slaves i).address
      | _ => q := by
  unfold mark process
  rcases hst : p.state with _ | _ | _ | _ | _ | _ | _ | _
  case kStSendRq => by_cases hpos : p.polled.address > 0 <;> simp only [hpos] <;> rfl
  all_goals
    simp only [reduceCtorEq, false_and, if_false, if_true]
    repeat' split
    all_goals rfl

/-! ## The slave the machine is at -/

/-- The slaves before the one the machine is at have no address, nor has this one when the machine
goes on to the next; `kStWait` is never entered. -/
structure Leads (p : SlavePoll) : Prop where
  before : ∀ i < p.index, (p.slaves i).address = 0
  next : p.state = .kStNext → p.polled.address = 0
  not_wait : p.state ≠ .kStWait

theorem address_note (p : SlavePoll) (src : UInt16) (block : TDataBuffer) (i : Fin kMaxSlaves) :
    ((p.note src block).slaves i).address = (p.slaves i).address := by
  by_cases hsrc : src = p.polled.address
  · subst hsrc
    rw [slaves_note]
    split_ifs with hi
    · rw [hi, polled]
    · rfl
  · rw [note_of_ne hsrc]

variable {p p' : SlavePoll}

/-- A call that leaves the state, the index and the addresses. -/
theorem Leads.of_eq (h : p.Leads) (hstate : p'.state = p.state) (hindex : p'.index = p.index)
    (haddr : ∀ i, (p'.slaves i).address = (p.slaves i).address) : p'.Leads where
  before i hi := (haddr i).trans (h.before i (hindex ▸ hi))
  next hst := by
    rw [polled, haddr, hindex]
    exact h.next (hstate ▸ hst)
  not_wait := hstate ▸ h.not_wait

theorem Leads.note (h : p.Leads) (src : UInt16) (block : TDataBuffer) : (p.note src block).Leads :=
  h.of_eq (p.note_keeps src block).1 (p.note_keeps src block).2 (p.address_note src block)

theorem Leads.handleNoData (h : p.Leads) (src : UInt16) : (p.handleNoData src).Leads :=
  h.of_eq (p.handleNoData_keeps src 0).2.2.1 (p.handleNoData_keeps src 0).2.2.2
    fun i => (p.handleNoData_keeps src i).1

theorem Leads.start (h : p.Leads) : p.start.Leads := ⟨h.before, nofun, nofun⟩

theorem Leads.stop (h : p.Leads) : p.stop.Leads := ⟨h.before, nofun, nofun⟩

/-- Each move keeps the order of polling. -/
theorem Leads.move (h : p.Leads) {m : Option Mark} (hmove : Move p p' m)
    (haddr : ∀ i, (p'.slaves i).address = (p.slaves i).address) : p'.Leads := by
  have before_of_eq (hindex : p'.index = p.index) (i : Fin kMaxSlaves) (hi : i < p'.index) :
      (p'.slaves i).address = 0 := (haddr i).trans (h.before i (hindex ▸ hi))
  have before_of_zero (hindex : p'.index = 0) (i : Fin kMaxSlaves) (hi : i < p'.index) :
      (p'.slaves i).address = 0 := absurd (hindex ▸ hi) (Fin.not_lt_zero i)
  cases hmove with
  | period _ hstate hindex => exact ⟨before_of_zero hindex, by simp [hstate], by simp [hstate]⟩
  | request _ _ hstate hindex => exact ⟨before_of_eq hindex, by simp [hstate], by simp [hstate]⟩
  | skip _ hzero hstate hindex =>
    refine ⟨before_of_eq hindex, fun _ => ?_, by simp [hstate]⟩
    rw [polled, haddr, hindex]
    exact hzero
  | next hst hstate hindex =>
    refine ⟨fun i hi => (haddr i).trans ?_, by simp [hstate], by simp [hstate]⟩
    rcases lt_or_eq_of_le (show i ≤ p.index by rw [Fin.lt_def] at hi; rw [Fin.le_def]; omega)
      with hlt | rfl
    · exact h.before i hlt
    · exact h.next hst
  | last _ _ hstate hindex => exact ⟨before_of_zero hindex, by simp [hstate], by simp [hstate]⟩
  | rest _ hstate hindex =>
    exact ⟨before_of_eq hindex, fun hst => absurd hst hstate.2.1, hstate.2.2⟩

theorem Leads.process (h : p.Leads) (now : UInt32) (q : TQueue TTxRequest) :
    (p.process now q).1.Leads :=
  h.move (process_move h.not_wait now q) fun i => (p.process_keeps now q i).1

theorem leads_init (period timeout : UInt32) (address : Fin kMaxSlaves → UInt16) :
    (init period timeout address).Leads :=
  ⟨fun i hi => absurd hi (Fin.not_lt_zero i), nofun, nofun⟩

/-! ## The slaves that are due -/

/-- The slaves with an address, in the order of the table. -/
def configured (address : Fin kMaxSlaves → UInt16) : List (Fin kMaxSlaves) :=
  (List.finRange kMaxSlaves).filter fun i => address i > 0

theorem mem_configured {address : Fin kMaxSlaves → UInt16} {i : Fin kMaxSlaves} :
    i ∈ configured address ↔ address i ≠ 0 := by
  simp [configured, UInt16.pos_iff_ne_zero]

theorem configured_take_one {address : Fin kMaxSlaves → UInt16} {i : Fin kMaxSlaves}
    (hbefore : ∀ j < i, address j = 0) (hpos : address i > 0) :
    (configured address).take 1 = [i] := by
  have hsorted : (configured address).Pairwise (· < ·) :=
    (List.pairwise_lt_finRange kMaxSlaves).filter _
  have hmem : i ∈ configured address := mem_configured.2 (UInt16.pos_iff_ne_zero.1 hpos)
  have hle : ∀ j ∈ configured address, i ≤ j := fun j hj => by
    by_contra hlt
    exact mem_configured.1 hj (hbefore j (not_le.1 hlt))
  rcases hc : configured address with _ | ⟨j, js⟩
  · rw [hc] at hmem
    cases hmem
  · rw [hc] at hmem hsorted hle
    rcases List.mem_cons.1 hmem with rfl | htail
    · rfl
    · have hlt : j < i := (List.pairwise_cons.1 hsorted).1 i htail
      exact absurd (hle j List.mem_cons_self) (not_le.2 hlt)

/-- The slaves still to be asked in the period, as the machine goes on. -/
def due (address : Fin kMaxSlaves → UInt16) (p : SlavePoll) : List (Fin kMaxSlaves) :=
  if p.state = .kStSendRq ∨ p.state = .kStNext then (configured address).take 1 else []

/-- A move from `p` with a mark leaves the slaves that are due: none of them at the beginning of a
period, all but the one that is asked at a request. -/
theorem due_move (h : p.Leads) {address : Fin kMaxSlaves → UInt16}
    (haddr : ∀ i, (p.slaves i).address = address i) {m : Option Mark} (hmove : Move p p' m) :
    match m with
    | some .period => p.due address = [] ∧ p'.due address = (configured address).take 1
    | some (.request i) => p.due address = i :: p'.due address
    | none => p.due address = p'.due address := by
  cases hmove with
  | period hst hstate _ => simp [due, hst, hstate]
  | request hst hpos hstate _ =>
    have hfirst := configured_take_one (fun j hj => (haddr j).symm.trans (h.before j hj))
      (haddr p.index ▸ hpos)
    simp [due, hst, hstate, hfirst]
  | skip hst _ hstate _ => simp [due, hst, hstate]
  | next hst hstate _ => simp [due, hst, hstate]
  | last hst hindex hstate _ =>
    have hnone : configured address = [] := by
      refine List.eq_nil_iff_forall_not_mem.2 fun i hi => mem_configured.1 hi ?_
      rw [← haddr]
      rcases lt_or_eq_of_le (show i ≤ p.index by rw [Fin.le_def]; omega) with hlt | rfl
      · exact h.before i hlt
      · exact h.next hst
    simp [due, hstate, hnone]
  | rest hst hstate _ => simp [due, hst, hstate]

end SlavePoll

/-! ## Runs -/

/-- What happens to the machine between two calls of `start`. -/
inductive PollEvent
  | data (src : UInt16) (block : TDataBuffer) (dataId : UInt16)
  | noData (src : UInt16)
  | process (now : UInt32)
  | stop

/-- The machine with its queue, the state of `dataHandler` and the blocks passed to it. -/
structure Intake (σ : Type*) where
  poll : SlavePoll
  txQueueLoc : TQueue TTxRequest
  storage : σ
  calls : List TDataBuffer

/-- The handler of blocks, with a note of the blocks it is called for. -/
def noted {σ : Type*} (dataHandler : TDataBuffer → UInt16 → σ → ℤ × σ) (block : TDataBuffer)
    (dataId : UInt16) (s : σ × List TDataBuffer) : ℤ × σ × List TDataBuffer :=
  let (rc, t) := dataHandler block dataId s.1
  (rc, t, s.2 ++ [block])

namespace Intake

variable {σ : Type*} (dataHandler : TDataBuffer → UInt16 → σ → ℤ × σ)

/-- One event. -/
def step (s : Intake σ) : PollEvent → Intake σ
  | .data src block dataId =>
    let (_, poll, q, storage, calls) :=
      s.poll.handleData (noted dataHandler) s.txQueueLoc (s.storage, s.calls) src block dataId
    ⟨poll, q, storage, calls⟩
  | .noData src => { s with poll := s.poll.handleNoData src }
  | .process now =>
    let (poll, q) := s.poll.process now s.txQueueLoc
    { s with poll := poll, txQueueLoc := q }
  | .stop => { s with poll := s.poll.stop }

variable {s : Intake σ}

/-- A block from the slave the machine is at is passed to `dataHandler` if it is new. -/
theorem step_data (src : UInt16) (block : TDataBuffer) (dataId : UInt16) :
    (s.step dataHandler (.data src block dataId)).poll = s.poll.note src block ∧
      (s.step dataHandler (.data src block dataId)).calls =
        if s.poll.Passes src block then s.calls ++ [block] else s.calls := by
  simp only [step, SlavePoll.handleData_eq]
  split_ifs <;> exact ⟨rfl, rfl⟩

/-- Every event keeps the addresses and the order of polling. -/
theorem step_leads (h : s.poll.Leads) (e : PollEvent) :
    (s.step dataHandler e).poll.Leads ∧
      ∀ i, ((s.step dataHandler e).poll.slaves i).address = (s.poll.slaves i).address := by
  cases e with
  | data src block dataId =>
    rw [(step_data dataHandler src block dataId).1]
    exact ⟨h.note src block, s.poll.address_note src block⟩
  | noData src => exact ⟨h.handleNoData src, fun i => (s.poll.handleNoData_keeps src i).1⟩
  | process now =>
    exact ⟨h.process now s.txQueueLoc, fun i => (s.poll.process_keeps now s.txQueueLoc i).1⟩
  | stop => exact ⟨h.stop, fun _ => rfl⟩

/-- What the periods of a run consist of. -/
def mark : Intake σ × PollEvent → Option SlavePoll.Mark
  | (s, .process _) => s.poll.mark
  | _ => none

/-- The machine after `setup`, `configure` and `start`. -/
def begun (period timeout : UInt32) (address : Fin kMaxSlaves → UInt16)
    (txQueueLoc : TQueue TTxRequest) (storage : σ) : Intake σ where
  poll := (SlavePoll.init period timeout address).start
  txQueueLoc := txQueueLoc
  storage := storage
  calls := []

/-- The invariant of a run: the order of polling, for the table the machine was set up with. -/
def Ordered (address : Fin kMaxSlaves → UInt16) (s : Intake σ) : Prop :=
  s.poll.Leads ∧ ∀ i, (s.poll.slaves i).address = address i

variable {address : Fin kMaxSlaves → UInt16}

theorem Ordered.step (h : s.Ordered address) (e : PollEvent) :
    (s.step dataHandler e).Ordered address := by
  obtain ⟨hleads, haddr⟩ := step_leads dataHandler h.1 e
  exact ⟨hleads, fun i => (haddr i).trans (h.2 i)⟩

theorem Ordered.run (h : s.Ordered address) (es : List PollEvent) :
    (Run.final (Intake.step dataHandler) s es).Ordered address :=
  Run.always_final (I := Ordered address) (fun _ e h => h.step dataHandler e) h es

/-- The slaves that are due are those the run asks before it begins the next period. -/
theorem requests_eq_due (h : s.Ordered address) {es : List PollEvent}
    (hes : ∀ e ∈ es, e ≠ .stop) {mid : List (Fin kMaxSlaves)} {post : List SlavePoll.Mark}
    (htrace : Run.trace mark (step dataHandler) s es =
      mid.map .request ++ .period :: post) :
    mid = s.poll.due address := by
  induction es generalizing s mid with
  | nil => simp at htrace
  | cons e es ih =>
    obtain ⟨he, hes⟩ := List.forall_mem_cons.1 hes
    replace ih {mid} := @ih (s.step dataHandler e) (h.step dataHandler e) hes mid
    rw [Run.trace_cons] at htrace
    cases e with
    | data src block dataId =>
      rw [ih htrace, (step_data dataHandler src block dataId).1, SlavePoll.due,
        (s.poll.note_keeps src block).1]
      rfl
    | noData src =>
      rw [ih htrace, SlavePoll.due, SlavePoll.due, ← (s.poll.handleNoData_keeps src 0).2.2.1]
      rfl
    | stop => exact absurd rfl he
    | process now =>
      have hmove := SlavePoll.process_move h.1.not_wait now s.txQueueLoc
      change s.poll.mark.toList ++ _ = _ at htrace
      rcases hm : s.poll.mark with _ | _ | i <;> rw [hm] at htrace hmove
      all_goals have hdue := SlavePoll.due_move h.1 h.2 hmove
      · rw [hdue]
        exact ih htrace
      · rcases mid with _ | ⟨j, mid⟩
        · exact hdue.1.symm
        · simp at htrace
      · rcases mid with _ | ⟨j, mid⟩
        · simp at htrace
        · obtain ⟨hj, hrest⟩ := List.cons.inj htrace
          rw [hdue, ih hrest, SlavePoll.Mark.request.inj hj]
          rfl

/-- When a period has begun, the first slave with an address is due. -/
theorem due_of_period (h : s.Ordered address) {e : PollEvent} (hmark : mark (s, e) = some .period) :
    (s.step dataHandler e).poll.due address = (SlavePoll.configured address).take 1 := by
  cases e with
  | process now =>
    have hmove := SlavePoll.process_move h.1.not_wait now s.txQueueLoc
    rw [show s.poll.mark = _ from hmark] at hmove
    exact (SlavePoll.due_move h.1 h.2 hmove).2
  | _ => cases hmark

/-- **The requests of a period.** For every table of addresses, period and timeout, in every run
after `start` with no `stop`: of the slaves with an address each period asks the first only. So the
requests between two consecutive executions of `kStStartPeriod` are one for each slave with an
address, in the order of the table, exactly when there is at most one such slave. -/
theorem round_iff (period timeout : UInt32) (address : Fin kMaxSlaves → UInt16)
    (txQueueLoc : TQueue TTxRequest) (storage : σ) (es : List PollEvent)
    (hes : ∀ e ∈ es, e ≠ .stop) (pre post : List SlavePoll.Mark) (mid : List (Fin kMaxSlaves))
    (htrace : Run.trace mark (step dataHandler) (begun period timeout address txQueueLoc storage)
      es = pre ++ .period :: (mid.map .request ++ .period :: post)) :
    mid = SlavePoll.configured address ↔ (SlavePoll.configured address).length ≤ 1 := by
  have h₀ : (begun period timeout address txQueueLoc storage).Ordered address :=
    ⟨(SlavePoll.leads_init period timeout address).start, fun _ => rfl⟩
  obtain ⟨es₁, e, es₂, rfl, hmark, hrest⟩ := Run.trace_eq_append_cons htrace
  have h₁ := h₀.run dataHandler es₁
  have hmid := requests_eq_due dataHandler (h₁.step dataHandler e)
    (fun e he => hes e (by simp [he])) hrest
  have htake := hmid.trans (due_of_period dataHandler h₁ hmark)
  rw [htake, List.take_eq_self_iff]

/-- A handler that takes no block. -/
def ignore (_ : TDataBuffer) (_ : UInt16) (s : Unit) : ℤ × Unit := (0, s)

/-- The queue before the first request. -/
def emptyQueue : TQueue TTxRequest := .init (fun _ => ⟨0, 0, 0, 0, 0⟩) txRqNLoc txRqNLoc_pos

/-- Two periods of the machine with one slave, at the third place of the table. -/
theorem round_of_one_slave :
    Run.trace mark (step ignore) (begun 200 50 ![0, 0, 7, 0] emptyQueue ())
        ((List.range 9).map fun t => .process (50 * t.toUInt32)) =
      [] ++ .period :: ([2].map .request ++ .period :: []) ∧
    [2] = SlavePoll.configured ![0, 0, 7, 0] :=
  have htrace : Run.trace mark (step ignore) (begun 200 50 ![0, 0, 7, 0] emptyQueue ())
      ((List.range 9).map fun t => .process (50 * t.toUInt32)) =
        [] ++ .period :: ([2].map .request ++ .period :: []) := by decide +kernel
  ⟨htrace, (round_iff ignore 200 50 _ _ _ _ (by simp) [] [] [2] htrace).2 (by decide)⟩

/-- With two slaves the second is not asked: the machine of the device, with the addresses 1
and 2. -/
theorem round_of_two_slaves :
    Run.trace mark (step ignore) (begun 200 50 ![1, 2, 0, 0] emptyQueue ())
        ([0, 0, 0, 200, 200].map .process) =
      [] ++ .period :: ([0].map .request ++ .period :: []) ∧
    [0] ≠ SlavePoll.configured ![1, 2, 0, 0] := by
  decide +kernel

end Intake

end KS3.Poll
