import KS3.Protocol.HalfDuplex

/-!
# How long a request waits

Nothing is heard from the slaves, `process` is called at least every `g` ticks and layer 1 has room
for what it is given. Then the machine sends what it was given, in order: a request with `k` others
in front of it is in a packet that layer 1 has taken after at most `k + 1` periods, each of the
longer of the two timeouts, one tick for the wrap of the tick counter, and two intervals between
calls of `process`.

`need` is the number of ticks that may still pass. A round in which the request does not leave takes
its own ticks off it (`round_need`).

* `requests_leave`: every request in the queue leaves in time, in every run.
-/

namespace KS3.Protocol

open Comm DataIO

namespace Line

variable {τ : Type*} (bus : LocalBus τ) {T E : UInt32} {s s' : Line τ}

/-! ## Rounds -/

/-- What may happen between two calls of `process` besides that time passes: requests are queued,
layer 1 goes on, and a packet begins to be processed. -/
def Event.Harmless : Event τ → Prop
  | .pass _ | .flushTxBuffer _ | .process | .onRxSlaveData | .onRxSlavePacket => False
  | _ => True

/-- A call of `process`, with what happens before it. -/
structure Round (τ : Type*) where
  work : List (Event τ)
  harmless : ∀ e ∈ work, e.Harmless
  ticks : ℕ

/-- The state in which `process` is called. -/
def reached (s : Line τ) (r : Round τ) : Line τ :=
  (Run.final (step bus) s r.work).step bus (.pass r.ticks)

/-- A round. -/
def round (s : Line τ) (r : Round τ) : Line τ := (s.reached bus r).step bus .process

/-- Requests may have come; everything else that matters to the machine is as it was. -/
structure Waiting (s s' : Line τ) : Prop where
  queue : s.master.txQueue.toList <+: s'.master.txQueue.toList
  state : s'.master.state = s.master.state
  timer : s'.master.timer = s.master.timer
  time : s'.time = s.time

theorem Waiting.trans {s₁ s₂ s₃ : Line τ} (h : Waiting s₁ s₂) (h' : Waiting s₂ s₃) :
    Waiting s₁ s₃ where
  queue := h.queue.trans h'.queue
  state := h'.state.trans h.state
  timer := h'.timer.trans h.timer
  time := h'.time.trans h.time

theorem prefix_push {q : TQueue TTxRequest} (rq : TTxRequest) :
    q.toList <+: (q.push rq).toList := by
  rw [TQueue.toList_push]
  split_ifs
  · exact List.prefix_rfl
  · exact List.prefix_append ..

theorem waiting_withQueue {q : TQueue TTxRequest} (h : s.master.txQueue.toList <+: q.toList) :
    Waiting s (s.withQueue q) := ⟨h, rfl, rfl, rfl⟩

theorem waiting_step {e : Event τ} (h : e.Harmless) : Waiting s (s.step bus e) := by
  cases e with
  | layer1 | receive => exact ⟨List.prefix_rfl, rfl, rfl, rfl⟩
  | addTxMsgWrite a p0 p1 f id =>
    refine waiting_withQueue ?_
    rw [addTxMsgWrite]
    split_ifs
    · exact prefix_push _
    · exact List.prefix_rfl
  | addTxMsgRead a p0 f id =>
    refine waiting_withQueue ?_
    rw [addTxMsgRead]
    split_ifs
    · exact prefix_push _
    · exact List.prefix_rfl
  | addTxMsgApp a t sz data f id =>
    refine waiting_withQueue ?_
    rw [addTxMsgApp]
    split_ifs
    · exact prefix_push _
    · exact List.prefix_rfl
    · exact List.prefix_rfl
  | addTxMsgReadBlock a base size f id =>
    refine waiting_withQueue ?_
    rw [addTxMsgReadBlock]
    split_ifs
    · exact prefix_push _
    · exact List.prefix_rfl
  | pass | flushTxBuffer | process | onRxSlaveData | onRxSlavePacket => exact h.elim

theorem waiting_final (s : Line τ) {es : List (Event τ)} (h : ∀ e ∈ es, e.Harmless) :
    Waiting s (Run.final (step bus) s es) := by
  refine Run.invariant_final (I := Waiting s) (A := fun _ (e : Event τ) => e.Harmless)
    (fun _ _ hs he => hs.trans (waiting_step bus he)) ⟨List.prefix_rfl, rfl, rfl, rfl⟩ ?_
  exact fun m hm => h m.2 (Run.mem_of_mem_steps hm)

/-! ## Timeouts -/

/-- How many ticks ago the timer was set, as far as the counter can tell. -/
def age (s : Line τ) : ℕ := (tick s.time - s.master.timer).toNat

/-- The ticks after which a timeout has run out: the longer of the two, and one for the wrap of the
counter. -/
def patience (T E : UInt32) : ℕ := max T.toNat E.toNat + 1

/-- A timer that is older has run out. -/
theorem timedOut_of_le {msec : UInt32} (h : msec.toNat + 1 ≤ s.age) :
    TMasterTx.TimedOut s.master.timer (tick s.time) msec := by
  have hiff := Hal.timedOut_iff s.master.timer (tick s.time - s.master.timer) msec
  rw [UInt32.add_comm s.master.timer, UInt32.sub_add_cancel] at hiff
  rw [age] at h
  rw [hiff]
  split_ifs <;> omega

/-- Ticks pass, and the counter does not come round to the timer. -/
theorem age_pass {d : ℕ} (htimer : s'.master.timer = s.master.timer) (htime : s'.time = s.time + d)
    (hlt : s.age + d < 2 ^ 32) : s'.age = s.age + d := by
  have hadd : tick s'.time - s'.master.timer = tick s.time - s.master.timer + tick d := by
    rw [htime, htimer, tick, tick, tick, UInt32.ofNat_add, UInt32.sub_eq_add_neg,
      UInt32.sub_eq_add_neg, UInt32.add_assoc, UInt32.add_assoc, UInt32.add_comm (UInt32.ofNat d)]
  have hd : (tick d).toNat = d := by
    rw [tick, UInt32.toNat_ofNat']
    exact Nat.mod_eq_of_lt (by omega)
  rw [age, hadd, UInt32.toNat_add, hd]
  exact Nat.mod_eq_of_lt hlt

/-- A timer that is set now is not old. -/
theorem age_set (h : s.master.timer = tick s.time) : s.age = 0 := by
  rw [age, h, UInt32.sub_self]
  rfl

/-! ## A round -/

/-- `process` is called in time, and layer 1 has room for the packet that it would make. -/
structure Timely (g : ℕ) (s : Line τ) (r : Round τ) : Prop where
  ticks_le : r.ticks ≤ g
  free : bus.getTxFree (s.reached bus r).master.protocol.lower ≠ 0
  room : (s.reached bus r).RoomForNext bus

/-- The request is in the queue, of those that were in front of it only the last ones still are, and
those that were behind it still are behind it. -/
structure Queued (before : List TTxRequest) (rq : TTxRequest) (after front : List TTxRequest)
    (s : Line τ) : Prop where
  front_suffix : front <:+ before
  queue : ∃ later, s.master.txQueue.toList = front ++ rq :: (after ++ later)

/-- The request leaves with this round: it is among those that are taken from the queue, and layer 1
takes the packet that is made of them. -/
def Leaves (before : List TTxRequest) (rq : TTxRequest) (after : List TTxRequest) (s : Line τ)
    (r : Round τ) : Prop :=
  ∃ front taken, Queued before rq after front (s.reached bus r) ∧ front.length < taken.length ∧
    TMasterTx.Processed bus (s.reached bus r).master (s.round bus r).master taken
      (tick (s.reached bus r).time) ∧
    (s.reached bus r).master.RoomFor bus taken

/-- The ticks that may pass until a request leaves, with `k` others in front of it. A timer that is
too old may have come round by the next call. -/
def need (T E : UInt32) (g k : ℕ) (s : Line τ) : ℕ :=
  (if s.master.state = .stReadyToTx then 0
    else if s.age ≤ patience T E then patience T E - s.age + g
    else patience T E + 2 * g) + 1 + k * (patience T E + 2 * g)

section Round

variable {g : ℕ} {before after front : List TTxRequest} {rq : TTxRequest} {r : Round τ}

theorem need_le (s : Line τ) (k : ℕ) : need T E g k s ≤ (k + 1) * (patience T E + 2 * g) + 1 := by
  rw [need, Nat.add_mul, Nat.one_mul]
  split_ifs <;> omega

theorem need_pos (s : Line τ) (k : ℕ) : 0 < need T E g k s := by
  rw [need]
  omega

/-- The request is still there when `process` is called. -/
theorem Queued.reached (h : Queued before rq after front s) (r : Round τ) :
    Queued before rq after front (s.reached bus r) := by
  obtain ⟨later, hqueue⟩ := h.queue
  obtain ⟨more, hmore⟩ := (waiting_final bus s r.harmless).queue
  refine ⟨h.front_suffix, later ++ more, ?_⟩
  change (Run.final (step bus) s r.work).master.txQueue.toList = _
  rw [← hmore, hqueue]
  simp only [List.append_assoc, List.cons_append]

theorem ok_reached (h : s.Ok T E) (r : Round τ) : (s.reached bus r).Ok T E :=
  invariant_step bus _ _ (ok_run bus h r.work)

/-- The machine is ready: the request leaves, or others in front of it do. -/
theorem round_ready (hok : s.Ok T E) (hqueued : Queued before rq after front s)
    (htimely : Timely bus g s r) (hstate : s.master.state = .stReadyToTx) :
    Leaves bus before rq after s r ∨
      ∃ front', front'.length < front.length ∧ Queued before rq after front' (s.round bus r) ∧
        need T E g front'.length (s.round bus r) ≤
          patience T E + g + 1 + front'.length * (patience T E + 2 * g) := by
  have hwait := waiting_final bus s r.harmless
  have hstate' : (s.reached bus r).master.state = .stReadyToTx := hwait.state.trans hstate
  have hqueued' := hqueued.reached bus r
  obtain ⟨later, hqueue⟩ := hqueued'.queue
  obtain ⟨rq₀, rqs, hcons⟩ : ∃ rq₀ rqs, (s.reached bus r).master.txQueue.toList = rq₀ :: rqs := by
    rw [hqueue]
    exact List.exists_cons_of_ne_nil (by simp)
  have hok' := ok_reached bus hok r
  have hrequests := hok'.requests
  have hroom := htimely.room hstate' htimely.free (by rw [hcons]; exact List.cons_ne_nil _ _)
  rw [hcons] at hrequests hroom
  have hdone := TMasterTx.process_ready bus hstate' htimely.free hcons hrequests hok'.limit
    (tick (s.reached bus r).time)
  by_cases hlong : front.length < (TMasterTx.batch (rq₀ :: rqs)).length
  · exact .inl ⟨front, _, hqueued', hlong, hdone, hroom⟩
  · right
    have hfront : TMasterTx.batch (rq₀ :: rqs) <+: front :=
      List.prefix_of_prefix_length_le ⟨_, hdone.queue.symm⟩ ⟨_, hqueue.symm⟩ (not_lt.1 hlong)
    obtain ⟨front', rfl⟩ := hfront
    have hpos : 0 < (TMasterTx.batch (rq₀ :: rqs)).length := Nat.succ_pos _
    refine ⟨front', by rw [List.length_append]; omega,
      ⟨(List.suffix_append _ front').trans hqueued.front_suffix, later, ?_⟩, ?_⟩
    · have hqueue' := hdone.queue
      rw [hqueue, List.append_assoc] at hqueue'
      exact (List.append_cancel_left hqueue').symm
    · -- the timer is new if it matters
      have hnew : (s.round bus r).master.state ≠ .stReadyToTx → (s.round bus r).age = 0 := by
        intro hne
        refine age_set ?_
        have htimer : (s.round bus r).master.timer = _ := hdone.timer
        have hafter : (s.round bus r).master.state = _ := hdone.state
        rw [htimer]
        split_ifs with hasks
        · rfl
        · rw [if_neg hasks] at hafter
          exact absurd hafter hne
      rw [need]
      split_ifs with hready hage
      · omega
      · omega
      · rw [hnew hready] at hage
        omega

/-- A `process` that waits: the timeout has run out, or the timer is not that old. -/
theorem process_waiting (hok : s.Ok T E) (hstate : s.master.state ≠ .stReadyToTx) :
    (s.step bus .process).master.txQueue = s.master.txQueue ∧
      ((s.step bus .process).master.state = .stReadyToTx ∨
        s.step bus .process = s ∧ s.age < patience T E) := by
  have hpatience : T.toNat + 1 ≤ patience T E ∧ E.toNat + 1 ≤ patience T E := by
    rw [patience]
    omega
  cases hcase : s.master.state with
  | stReadyToTx => exact absurd hcase hstate
  | stWaitAnswer =>
    by_cases hout : TMasterTx.TimedOut s.master.timer (tick s.time) s.master.timeoutSlaveAnswer
    · have hprocess : s.step bus .process = s.restart .stReadyToTx := by
        simp only [step, TMasterTx.process, hcase, if_pos hout, restart]
      rw [hprocess]
      exact ⟨rfl, .inl rfl⟩
    · have hprocess : s.step bus .process = s := by
        simp only [step, TMasterTx.process, hcase, if_neg hout]
      refine ⟨by rw [hprocess], .inr ⟨hprocess, ?_⟩⟩
      rw [hok.answer] at hout
      by_contra hold
      exact hout (timedOut_of_le (by omega))
  | stWaitRxComplete =>
    by_cases hout : TMasterTx.TimedOut s.master.timer (tick s.time) s.master.timeoutEndPacket
    · have hprocess : s.step bus .process = s.restart .stReadyToTx := by
        simp only [step, TMasterTx.process, hcase, if_pos hout, restart]
      rw [hprocess]
      exact ⟨rfl, .inl rfl⟩
    · have hprocess : s.step bus .process = s := by
        simp only [step, TMasterTx.process, hcase, if_neg hout]
      refine ⟨by rw [hprocess], .inr ⟨hprocess, ?_⟩⟩
      rw [hok.endPacket] at hout
      by_contra hold
      exact hout (timedOut_of_le (by omega))

/-- The machine waits: the timeout runs out, or so many ticks are less to wait. -/
theorem round_waiting (hok : s.Ok T E) (hqueued : Queued before rq after front s)
    (htimely : Timely bus g s r) (hg : patience T E + g < 2 ^ 32)
    (hstate : s.master.state ≠ .stReadyToTx) :
    Queued before rq after front (s.round bus r) ∧
      need T E g front.length (s.round bus r) + r.ticks ≤ need T E g front.length s := by
  have hwait := waiting_final bus s r.harmless
  have hstate' : (s.reached bus r).master.state ≠ .stReadyToTx := by
    change (Run.final (step bus) s r.work).master.state ≠ _
    rwa [hwait.state]
  have hticks := htimely.ticks_le
  obtain ⟨hqueue, hcases⟩ := process_waiting bus (ok_reached bus hok r) hstate'
  have hqueued' := hqueued.reached bus r
  refine ⟨⟨hqueued'.front_suffix, ?_⟩, ?_⟩
  · rw [round, hqueue]
    exact hqueued'.queue
  · rcases hcases with hready | ⟨hsame, hage⟩
    · rw [need, need, round, if_pos hready, if_neg hstate]
      split_ifs <;> omega
    · rw [need, need, round, hsame, if_neg hstate', if_neg hstate, if_pos hage.le]
      split_ifs with hyoung
      · have hadd : (s.reached bus r).age = s.age + r.ticks :=
          age_pass hwait.timer (congrArg (· + r.ticks) hwait.time) (by omega)
        omega
      · omega

/-- **What is left to wait**: the request leaves, or the round takes its ticks off what is
needed. -/
theorem round_need (hok : s.Ok T E) (hqueued : Queued before rq after front s)
    (htimely : Timely bus g s r) (hg : patience T E + g < 2 ^ 32) :
    Leaves bus before rq after s r ∨ ∃ front', Queued before rq after front' (s.round bus r) ∧
      need T E g front'.length (s.round bus r) + r.ticks ≤ need T E g front.length s := by
  have hticks := htimely.ticks_le
  by_cases hstate : s.master.state = .stReadyToTx
  · obtain hleaves | ⟨front', hlt, hqueued', hneed⟩ := round_ready bus hok hqueued htimely hstate
    · exact .inl hleaves
    · refine .inr ⟨front', hqueued', ?_⟩
      have hmul : (front'.length + 1) * (patience T E + 2 * g) ≤
          front.length * (patience T E + 2 * g) := Nat.mul_le_mul_right _ hlt
      rw [Nat.add_mul, Nat.one_mul] at hmul
      have hready : need T E g front.length s = 1 + front.length * (patience T E + 2 * g) := by
        rw [need, if_pos hstate, Nat.zero_add]
      omega
  · exact .inr ⟨front, round_waiting bus hok hqueued htimely hg hstate⟩

theorem ok_round (hok : s.Ok T E) (r : Round τ) : (s.round bus r).Ok T E :=
  invariant_step bus _ _ (ok_reached bus hok r)

/-- A frame has at most 147 octets, and with room for more than that a round is in time. -/
theorem timely_of_free (hok : s.Ok T E) (hticks : r.ticks ≤ g)
    (hfree : 147 < bus.getTxFree (s.reached bus r).master.protocol.lower) : Timely bus g s r := by
  refine ⟨hticks, by omega, fun _ _ hne => ?_⟩
  obtain ⟨rq, rqs, hcons⟩ := List.exists_cons_of_ne_nil hne
  have hrequests := (ok_reached bus hok r).requests
  rw [hcons] at hrequests
  have hlt := (TMasterTx.payloadSize_batch hrequests).2
  rw [TMasterTx.RoomFor, hcons]
  rw [maxTxSize] at hlt
  omega

end Round

/-! ## Runs -/

/-- **Every request leaves in time.** In any state that a run has led to, let a request be in the
queue with `k` others in front of it. Let the slaves be silent from then on, let `process` be called
after at most `g` ticks each time, with room in layer 1 for the packet it would make, and let
anything be queued meanwhile and nothing flushed; the longer of the two timeouts and `g` are within
the range of the tick counter. When more than `k + 1` times this timeout, one tick and twice `g`
have passed, the request has left: with one of the calls it was taken from the queue, behind those
that were in front of it and before those behind it, and layer 1 has taken the packet that was
made. -/
theorem requests_leave (address srcAddress : UInt16) (layer3 : Layer3Tx) (lower : τ)
    (cells : ℕ → TTxRequest) (T E : UInt32) (time : ℕ) (es : List (Event τ)) {s : Line τ}
    (hs : s = Run.final (step bus) (init address srcAddress layer3 lower cells T E time) es)
    {g : ℕ} (hg : patience T E + g < 2 ^ 32) {before after : List TTxRequest} {rq : TTxRequest}
    (hqueue : s.master.txQueue.toList = before ++ rq :: after) (rounds : List (Round τ))
    (hrounds : ∀ m ∈ Run.steps (round bus) s rounds, Timely bus g m.1 m.2)
    (hlong : (before.length + 1) * (patience T E + 2 * g) < (rounds.map Round.ticks).sum) :
    ∃ m ∈ Run.steps (round bus) s rounds, Leaves bus before rq after m.1 m.2 := by
  have hok : s.Ok T E := hs ▸ ok_final bus address srcAddress layer3 lower cells T E time es
  have hcost : need T E g before.length s ≤ (rounds.map Round.ticks).sum :=
    (need_le s before.length).trans hlong
  refine Run.exists_of_cost (A := Timely bus g)
    (P := fun n s => s.Ok T E ∧ ∃ front, Queued before rq after front s ∧
      n = need T E g front.length s) ?_ ?_ ⟨hok, before, ⟨List.suffix_rfl, [], ?_⟩, rfl⟩ hrounds
    hcost
  · rintro s ⟨-, front, -, hzero⟩
    exact (need_pos s front.length).ne hzero
  · rintro n s r ⟨hok, front, hqueued, rfl⟩ htimely
    obtain hleaves | ⟨front', hqueued', hneed⟩ := round_need bus hok hqueued htimely hg
    · exact .inl hleaves
    · exact .inr ⟨_, hneed, ok_round bus hok r, front', hqueued', rfl⟩
  · rw [hqueue, List.append_nil]

/-- A call of `process` every ten ticks, and nothing else. -/
def everyTen : Round ℕ := ⟨[], by simp, 10⟩

/-- A read for another slave, behind one that asks for an answer which does not come. -/
theorem requests_leave_behind_answer :
    let s := Run.final (step uart) (fresh 1000)
      [.addTxMsgRead 1 5 fRqAnswer linkIdLocal, .addTxMsgRead 2 6 0 linkIdLocal]
    ∃ m ∈ Run.steps (round uart) s (List.replicate 9 everyTen),
      Leaves uart [⟨msgParameterRead.toUInt16, 1, 5, 0, fRqAnswer⟩]
        ⟨msgParameterRead.toUInt16, 2, 6, 0, 0⟩ [] m.1 m.2 := by
  intro s
  have hfree : ∀ m ∈ Run.steps (round uart) s (List.replicate 9 everyTen),
      m.2.ticks ≤ 10 ∧ 147 < uart.getTxFree (m.1.reached uart m.2).master.protocol.lower := by
    decide +kernel
  refine requests_leave uart 0 0 ⟨fun _ => 0, 0, 0⟩ 1000 (fun _ => ⟨0, 0, 0, 0, 0⟩) 20 2 0 _
    (s := s) rfl (g := 10) (by decide) (by decide +kernel) _ (fun m hm => ?_) (by decide)
  refine timely_of_free uart (Run.always_steps (I := fun s : Line ℕ => s.Ok 20 2)
    (fun s r hs => ok_round uart hs r) (ok_fresh 1000 _) _ m hm) (hfree m hm).1 (hfree m hm).2

end Line

end KS3.Protocol
