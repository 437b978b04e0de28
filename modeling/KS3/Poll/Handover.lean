import KS3.Poll.Polling

/-!
# Handing over the blocks of a slave

A slave numbers its blocks cyclically and sends each of them once or several times before the
next. `handleData` tells a new block from a repeated one by the number remembered for the slave,
and `kPnBufferFree`, which is to say that no block has come yet, is a number like any other: a
first block with this number is taken for a repeated one.

`run_calls`: while the machine stays at one slave, the blocks passed to `dataHandler` are those
whose number differs from that of the block before. `handover_iff`: each block of the slave is
passed exactly once and in order exactly when the first number is not `kPnBufferFree`.
-/

namespace KS3.Poll

open Comm Protocol Buffers

/-! ## The blocks that are new -/

/-- The blocks whose number differs from that of the block before, `last` before the first. -/
def fresh : UInt16 → List TDataBuffer → List TDataBuffer
  | _, [] => []
  | last, b :: bs => if b.packet ≠ last then b :: fresh b.packet bs else fresh last bs

/-- A stream as it is sent: each block, and how often it is sent again. -/
def transmissions (stream : List (TDataBuffer × ℕ)) : List TDataBuffer :=
  stream.flatMap fun b => List.replicate (b.2 + 1) b.1

/-- The blocks are numbered from `p₀` on, modulo `2 ^ 16`. -/
def Numbered : UInt16 → List TDataBuffer → Prop
  | _, [] => True
  | p₀, b :: bs => b.packet = p₀ ∧ Numbered (p₀ + 1) bs

theorem fresh_replicate_self (b : TDataBuffer) (n : ℕ) (bs : List TDataBuffer) :
    fresh b.packet (List.replicate n b ++ bs) = fresh b.packet bs := by
  induction n with
  | zero => rfl
  | succ n ih => rw [List.replicate_succ, List.cons_append, fresh, if_neg (not_not.2 rfl), ih]

/-- Repeating a block adds nothing. -/
theorem fresh_replicate {last : UInt16} (b : TDataBuffer) (n : ℕ) (bs : List TDataBuffer) :
    fresh last (List.replicate (n + 1) b ++ bs) = fresh last (b :: bs) := by
  rw [List.replicate_succ, List.cons_append, fresh, fresh]
  by_cases h : b.packet = last
  · subst h
    simp only [ne_eq, not_true_eq_false, if_false, fresh_replicate_self]
  · simp only [ne_eq, h, not_false_eq_true, if_true, fresh_replicate_self]

theorem fresh_transmissions (last : UInt16) (stream : List (TDataBuffer × ℕ)) :
    fresh last (transmissions stream) = fresh last (stream.map Prod.fst) := by
  induction stream generalizing last with
  | nil => rfl
  | cons b stream ih =>
    rw [transmissions, List.flatMap_cons, fresh_replicate, List.map_cons, fresh, fresh]
    split_ifs
    · exact congrArg (b.1 :: ·) (ih _)
    · exact ih _

theorem transmissions_eq_nil {stream : List (TDataBuffer × ℕ)} (h : transmissions stream = []) :
    stream = [] := by
  rcases stream with _ | ⟨b, stream⟩
  · rfl
  · simp [transmissions, List.replicate_succ] at h

theorem add_one_ne (p : UInt16) : p + 1 ≠ p := by
  intro h
  have hone : (1 : UInt16) = 0 := add_eq_left.1 h
  exact absurd hone (by decide)

/-- Of a numbered stream only the first block can be lost. -/
theorem fresh_of_numbered {last p₀ : UInt16} {bs : List TDataBuffer} (h : Numbered p₀ bs) :
    fresh last bs = if p₀ = last then bs.tail else bs := by
  induction bs generalizing last p₀ with
  | nil => simp [fresh]
  | cons b bs ih =>
    obtain ⟨hb, hbs⟩ := h
    rw [fresh, hb]
    by_cases hlast : p₀ = last
    · rw [if_neg (not_not.2 hlast), if_pos hlast, ih hbs, if_neg (hlast ▸ add_one_ne p₀)]
      rfl
    · rw [if_pos hlast, if_neg hlast, ih hbs, if_neg (add_one_ne p₀)]

/-! ## The machines of the device -/

namespace SlavePoll

/-- The machines the device can have: one that is set up, and then any calls. -/
inductive Reachable : SlavePoll → Prop
  | init (period timeout : UInt32) (address : Fin kMaxSlaves → UInt16) :
    Reachable (.init period timeout address)
  | start {p : SlavePoll} (h : Reachable p) : Reachable p.start
  | stop {p : SlavePoll} (h : Reachable p) : Reachable p.stop
  | process {p : SlavePoll} (h : Reachable p) (now : UInt32) (q : TQueue TTxRequest) :
    Reachable (p.process now q).1
  | handleData {p : SlavePoll} (h : Reachable p) {σ : Type}
    (dataHandler : TDataBuffer → UInt16 → σ → ℤ × σ) (q : TQueue TTxRequest) (s : σ)
    (src : UInt16) (block : TDataBuffer) (dataId : UInt16) :
    Reachable (p.handleData dataHandler q s src block dataId).2.1
  | handleNoData {p : SlavePoll} (h : Reachable p) (src : UInt16) :
    Reachable (p.handleNoData src)

theorem Reachable.leads {p : SlavePoll} (h : Reachable p) : p.Leads := by
  induction h with
  | init period timeout address => exact leads_init period timeout address
  | start _ ih => exact ih.start
  | stop _ ih => exact ih.stop
  | process _ now q ih => exact ih.process now q
  | @handleData p _ _ dataHandler q s src block dataId ih =>
    rw [handleData_eq]
    split_ifs <;> exact ih.note src block
  | handleNoData _ src ih => exact ih.handleNoData src

/-- The slave the machine is at is determined by its address. -/
theorem Leads.index_eq {p p' : SlavePoll} (h : p.Leads) (h' : p'.Leads)
    (haddr : ∀ i, (p'.slaves i).address = (p.slaves i).address)
    (hpolled : p'.polled.address = p.polled.address) (hne : p.polled.address ≠ 0) :
    p'.index = p.index := by
  rcases lt_trichotomy p'.index p.index with hlt | heq | hlt
  · have hzero : p'.polled.address = 0 := (haddr p'.index).trans (h.before p'.index hlt)
    exact absurd (hpolled ▸ hzero) hne
  · exact heq
  · have hzero : p.polled.address = 0 := (haddr p.index).symm.trans (h'.before p.index hlt)
    exact absurd hzero hne

end SlavePoll

namespace Intake

variable {σ : Type*} (dataHandler : TDataBuffer → UInt16 → σ → ℤ × σ)

/-- `start` and the `process` that executes `kStStart`, with no block handed over so far. -/
def started (poll : SlavePoll) (txQueueLoc : TQueue TTxRequest) (storage : σ) (now : UInt32) :
    Intake σ where
  poll := (poll.start.process now txQueueLoc).1
  txQueueLoc := (poll.start.process now txQueueLoc).2
  storage := storage
  calls := []

/-- The blocks that come from a slave, each as often as it comes. -/
def blocksFrom (address : UInt16) (es : List PollEvent) : List TDataBuffer :=
  es.filterMap fun
    | .data src block _ => if src = address then some block else none
    | _ => none

variable {s : Intake σ} {i : Fin kMaxSlaves}

theorem blocksFrom_cons (address : UInt16) (e : PollEvent) (es : List PollEvent) :
    blocksFrom address (e :: es) = blocksFrom address [e] ++ blocksFrom address es :=
  List.filterMap_append (l := [e])

/-- One event, met at the slave of index `i`: its address stays, and the blocks passed so far with
the new ones among those to come are the same before and after it. -/
theorem step_fresh (hstate : s.poll.state ≠ .kStStart) (hindex : s.poll.index = i)
    (e : PollEvent) :
    (s.step dataHandler e).poll.state ≠ .kStStart ∧
      ((s.step dataHandler e).poll.slaves i).address = (s.poll.slaves i).address ∧
      ∀ bs, (s.step dataHandler e).calls ++ fresh ((s.step dataHandler e).poll.slaves i).packet bs =
        s.calls ++ fresh (s.poll.slaves i).packet
          (blocksFrom (s.poll.slaves i).address [e] ++ bs) := by
  have hpolled : s.poll.polled = s.poll.slaves i := congrArg s.poll.slaves hindex
  cases e with
  | data src block dataId =>
    obtain ⟨hpoll, hcalls⟩ := step_data dataHandler src block dataId (s := s)
    rw [hpoll, hcalls, (s.poll.note_keeps src block).1]
    refine ⟨hstate, ?_⟩
    by_cases hsrc : src = s.poll.polled.address
    · subst hsrc
      rw [SlavePoll.slaves_note, if_pos hindex.symm, hpolled]
      refine ⟨rfl, fun bs => ?_⟩
      simp only [SlavePoll.Passes, hpolled, true_and, blocksFrom, List.filterMap_cons, if_true,
        List.filterMap_nil, List.cons_append, List.nil_append, fresh]
      split_ifs with hnew
      · simp
      · rw [not_not.1 hnew]
    · rw [SlavePoll.note_of_ne hsrc, if_neg fun h => hsrc h.1]
      refine ⟨rfl, fun bs => ?_⟩
      simp [blocksFrom, ← hpolled, hsrc]
  | noData src =>
    obtain ⟨haddr, hpn, hst, -⟩ := s.poll.handleNoData_keeps src i
    refine ⟨fun h => hstate (hst ▸ h), haddr, fun bs => ?_⟩
    exact congrArg (fun pn => s.calls ++ fresh pn bs) hpn
  | process now =>
    obtain ⟨haddr, hpn, hst⟩ := s.poll.process_keeps now s.txQueueLoc i
    exact ⟨hst, haddr, fun bs => congrArg (fun pn => s.calls ++ fresh pn bs) (hpn hstate)⟩
  | stop => exact ⟨by simp [step, SlavePoll.stop], rfl, fun _ => rfl⟩

/-- **The blocks passed to `dataHandler`**, while the machine stays at one slave, are the new ones
among those the slave sends. -/
theorem run_calls (es : List PollEvent) (hstate : s.poll.state ≠ .kStStart)
    (hindex : ∀ m ∈ Run.steps (step dataHandler) s es, m.1.poll.index = i) :
    (Run.final (step dataHandler) s es).calls =
      s.calls ++ fresh (s.poll.slaves i).packet (blocksFrom (s.poll.slaves i).address es) := by
  induction es generalizing s with
  | nil => simp [blocksFrom, fresh]
  | cons e es ih =>
    simp only [Run.steps_cons, List.forall_mem_cons] at hindex
    obtain ⟨hstate', haddr, hfresh⟩ := step_fresh dataHandler hstate hindex.1 e
    rw [Run.final_cons, ih hstate' hindex.2, hfresh, haddr, ← blocksFrom_cons]

/-- As long as a slave sends no block, the number remembered for it stays. -/
theorem run_packet {address : Fin kMaxSlaves → UInt16} (h : s.Ordered address) {es : List PollEvent}
    (hstate : s.poll.state ≠ .kStStart) (hnone : blocksFrom (address i) es = []) :
    (Run.final (step dataHandler) s es).poll.state ≠ .kStStart ∧
      ((Run.final (step dataHandler) s es).poll.slaves i).packet = (s.poll.slaves i).packet := by
  induction es generalizing s with
  | nil => exact ⟨hstate, rfl⟩
  | cons e es ih =>
    rw [blocksFrom_cons, List.append_eq_nil_iff] at hnone
    suffices hstep : (s.step dataHandler e).poll.state ≠ .kStStart ∧
        ((s.step dataHandler e).poll.slaves i).packet = (s.poll.slaves i).packet by
      obtain ⟨hst, hpn⟩ := ih (h.step dataHandler e) hstep.1 hnone.2
      exact ⟨hst, hpn.trans hstep.2⟩
    cases e with
    | data src block dataId =>
      have hsrc : src ≠ address i := by
        rintro rfl
        simp [blocksFrom] at hnone
      rw [(step_data dataHandler src block dataId).1, (s.poll.note_keeps src block).1]
      refine ⟨hstate, ?_⟩
      by_cases hpolled : src = s.poll.polled.address
      · subst hpolled
        rw [SlavePoll.slaves_note, if_neg]
        rintro rfl
        exact hsrc (h.2 s.poll.index)
      · rw [SlavePoll.note_of_ne hpolled]
    | noData src =>
      obtain ⟨-, hpn, hst, -⟩ := s.poll.handleNoData_keeps src i
      exact ⟨fun h => hstate (hst ▸ h), hpn⟩
    | process now =>
      obtain ⟨-, hpn, hst⟩ := s.poll.process_keeps now s.txQueueLoc i
      exact ⟨hst, hpn hstate⟩
    | stop => exact ⟨by simp [step, SlavePoll.stop], rfl⟩

/-- **Handing over the blocks of a slave.** After `start` and the `process` that executes
`kStStart`, let a slave send its first blocks while the machine stays at it. If the blocks are
numbered from `p₀` on and each is sent once or several times in a row, then each of them is passed
to `dataHandler` exactly once and in order exactly when there is none or `p₀` is not
`kPnBufferFree`. -/
theorem handover_iff {poll : SlavePoll} (hpoll : poll.Reachable) (txQueueLoc : TQueue TTxRequest)
    (storage : σ) (now : UInt32) (address : UInt16) (hpos : address > 0)
    (before es : List PollEvent) (p₀ : UInt16) (stream : List (TDataBuffer × ℕ))
    (hbefore : blocksFrom address before = [])
    (hpolled : ∀ m ∈ Run.steps (step dataHandler)
      (Run.final (step dataHandler) (started poll txQueueLoc storage now) before) es,
      m.1.poll.polled.address = address)
    (hsent : blocksFrom address es = transmissions stream)
    (hnumbered : Numbered p₀ (stream.map Prod.fst)) :
    (Run.final (step dataHandler) (started poll txQueueLoc storage now) (before ++ es)).calls =
        (Run.final (step dataHandler) (started poll txQueueLoc storage now) before).calls ++
          stream.map Prod.fst ↔
      stream = [] ∨ p₀ ≠ kPnBufferFree := by
  have h₀ : (started poll txQueueLoc storage now).Ordered fun i => (poll.slaves i).address :=
    ⟨hpoll.leads.start.process now txQueueLoc, fun _ => rfl⟩
  have hstate₀ : (started poll txQueueLoc storage now).poll.state ≠ .kStStart := by
    simp [started, SlavePoll.start, SlavePoll.process]
  rw [Run.final_append]
  rcases es with _ | ⟨e, es⟩
  · -- nothing is sent
    have hnil : stream = [] := transmissions_eq_nil hsent.symm
    simp [hnil]
  · have h₁ := h₀.run dataHandler before
    have hpacket (i : Fin kMaxSlaves) (hnone : blocksFrom (poll.slaves i).address before = []) :=
      run_packet dataHandler (i := i) h₀ hstate₀ hnone
    generalize Run.final (step dataHandler) (started poll txQueueLoc storage now) before = s₁ at *
    have hat : s₁.poll.polled.address = address := hpolled (s₁, e) List.mem_cons_self
    have hfirst : (poll.slaves s₁.poll.index).address = address :=
      (h₁.2 s₁.poll.index).symm.trans hat
    obtain ⟨hstate, hpn⟩ := hpacket s₁.poll.index (hfirst ▸ hbefore)
    have hsteps (m) (hm : m ∈ Run.steps (step dataHandler) s₁ (e :: es)) : m.1.Ordered _ :=
      Run.always_steps (I := Ordered _) (fun _ e h => h.step dataHandler e) h₁ (e :: es) m hm
    have hindex (m) (hm : m ∈ Run.steps (step dataHandler) s₁ (e :: es)) :
        m.1.poll.index = s₁.poll.index := by
      refine h₁.1.index_eq (hsteps m hm).1 (fun i => ((hsteps m hm).2 i).trans (h₁.2 i).symm)
        ((hpolled m hm).trans hat.symm) ?_
      rw [hat]
      exact UInt16.pos_iff_ne_zero.1 hpos
    rw [run_calls dataHandler (e :: es) hstate hindex, show (s₁.poll.slaves _).address = _ from hat,
      hpn, hsent,
      fresh_transmissions, fresh_of_numbered hnumbered, List.append_cancel_left_eq]
    change (if p₀ = kPnBufferFree then _ else _) = _ ↔ _
    split_ifs with hfree
    · rcases stream with _ | ⟨b, stream⟩ <;> simp [hfree]
    · simp [hfree]

/-- A block with the given number. -/
def numbered (packet : UInt16) : TDataBuffer := ⟨packet, 1, 0, fun _ => 0⟩

/-- The machine with one slave, at address 1. -/
def single : SlavePoll := .init 200 50 ![1, 0, 0, 0]

/-- Two blocks, the first sent twice, with the request, a block of another slave and the end of the
period between them. -/
theorem handover_two_blocks :
    blocksFrom 1 [.process 0, .process 0] = [] ∧
      (Run.final (step ignore) (started single emptyQueue () 0)
        ([.process 0, .process 0] ++ [.data 1 (numbered 5) kDataId, .data 2 (numbered 7) kDataId,
          .data 1 (numbered 5) kDataId, .process 200, .noData 1, .process 201,
          .data 1 (numbered 6) kDataId])).calls =
        (Run.final (step ignore) (started single emptyQueue () 0)
          [.process 0, .process 0]).calls ++
          ([(numbered 5, 1), (numbered 6, 0)] : List (TDataBuffer × ℕ)).map Prod.fst :=
  ⟨rfl, (handover_iff ignore (.init 200 50 _) emptyQueue () 0 1 (by decide)
    [.process 0, .process 0] _ 5 [(numbered 5, 1), (numbered 6, 0)] rfl (by decide +kernel) rfl
    ⟨rfl, rfl, trivial⟩).2 (.inr (by decide))⟩

/-- A first block with the number `0xFFFF` is not passed to the handler. -/
theorem handover_lost_block :
    (Run.final (step ignore) (started single emptyQueue () 0)
      [.data 1 (numbered 0xFFFF) kDataId]).calls ≠ [numbered 0xFFFF] := by
  intro h
  exact absurd (congrArg List.length h) (by decide +kernel)

end Intake

end KS3.Poll
