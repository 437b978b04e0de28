import KS3.Protocol.MasterRuns

/-!
# `TMasterTx` on the half-duplex bus

When the machine sends, over whole runs. One timer serves two waiting states, and which
notification restarts it depends on the state it comes in: data count when no answer is waited for,
and a packet counts when one is. `move` says once what an event can do to the state and the timer.

* `next_packet_waits`: behind a packet with a request that asks for an answer the bus is left alone
  until the answer timeout has run out, or until a packet has come and the pause behind the last
  notification that counts is over;
* `packet_holds_off`: the bus is left alone for the pause behind data, if the answer timeout does
  not run out in that pause.
-/

namespace KS3.Protocol

open Comm DataIO

namespace Line

variable {τ : Type*} (bus : LocalBus τ) {T E : UInt32} {s s' : Line τ} {e : Event τ}

/-! ## What an event can do -/

/-- The machine restarts its timer for this notification. -/
def Restarts (s : Line τ) : Event τ → Prop
  | .onRxSlaveData => s.master.state = .stReadyToTx ∨ s.master.state = .stWaitRxComplete
  | .onRxSlavePacket => s.master.state = .stWaitAnswer
  | _ => False

/-- Time may pass; the state, the timer and the packets sent are what they were. -/
structure Quiet (s s' : Line τ) : Prop where
  state : s'.master.state = s.master.state
  timer : s'.master.timer = s.master.timer
  packets : s'.master.protocol.packets = s.master.protocol.packets
  time : s.time ≤ s'.time
  lastRxData : s'.lastRxData = s.lastRxData

/-- The state is changed and the timer restarted. -/
def restart (s : Line τ) (state : TMasterState) : Line τ :=
  { s with master := { s.master with state := state, timer := tick s.time } }

/-- The ways from one state to the next. -/
inductive Move (s s' : Line τ) : Event τ → Prop
  | quiet {e : Event τ} (hno : ¬ s.Restarts e) (hquiet : Quiet s s') : Move s s' e
  | take {taken : List TTxRequest} (hstate : s.master.state = .stReadyToTx)
      (hdone : TMasterTx.Processed bus s.master s'.master taken (tick s.time))
      (htime : s'.time = s.time) (hlast : s'.lastRxData = s.lastRxData) : Move s s' .process
  | answerTimeout (hstate : s.master.state = .stWaitAnswer)
      (hout : TMasterTx.TimedOut s.master.timer (tick s.time) s.master.timeoutSlaveAnswer)
      (heq : s' = s.restart .stReadyToTx) : Move s s' .process
  | endTimeout (hstate : s.master.state = .stWaitRxComplete)
      (hout : TMasterTx.TimedOut s.master.timer (tick s.time) s.master.timeoutEndPacket)
      (heq : s' = s.restart .stReadyToTx) : Move s s' .process
  | data (hstate : s.master.state = .stReadyToTx ∨ s.master.state = .stWaitRxComplete)
      (heq : s' = { s.restart .stWaitRxComplete with lastRxData := some s.time }) :
      Move s s' .onRxSlaveData
  | dataIgnored (hstate : s.master.state = .stWaitAnswer)
      (heq : s' = { s with lastRxData := some s.time }) : Move s s' .onRxSlaveData
  | packet (hstate : s.master.state = .stWaitAnswer)
      (heq : s' = s.restart .stWaitRxComplete) : Move s s' .onRxSlavePacket

theorem quiet_withQueue (s : Line τ) (q : TQueue TTxRequest) : Quiet s (s.withQueue q) :=
  ⟨rfl, rfl, rfl, le_rfl, rfl⟩

/-- **Every event is one of these.** -/
theorem move (h : s.Ok T E) (e : Event τ) : Move bus s (s.step bus e) e := by
  cases e with
  | pass ticks => exact .quiet not_false ⟨rfl, rfl, rfl, Nat.le_add_right _ _, rfl⟩
  | layer1 lower => exact .quiet not_false ⟨rfl, rfl, rfl, le_rfl, rfl⟩
  | receive srcAddress => exact .quiet not_false ⟨rfl, rfl, rfl, le_rfl, rfl⟩
  | addTxMsgWrite | addTxMsgRead | addTxMsgApp | addTxMsgReadBlock | flushTxBuffer =>
    exact .quiet not_false (quiet_withQueue s _)
  | process =>
    obtain hsame | ⟨rq, rqs, hstate, -, -, hdone⟩ | ⟨hstate, hout, heq⟩ | ⟨hstate, hout, heq⟩ :=
      TMasterTx.process_cases bus h.requests h.limit (tick s.time)
    · rw [step, hsame]
      exact .quiet not_false ⟨rfl, rfl, rfl, le_rfl, rfl⟩
    · exact .take hstate hdone rfl rfl
    · exact .answerTimeout hstate hout (by rw [step, heq]; rfl)
    · exact .endTimeout hstate hout (by rw [step, heq]; rfl)
  | onRxSlaveData =>
    rw [step, TMasterTx.onRxSlaveData]
    split_ifs with hstate
    · exact .data hstate rfl
    · refine .dataIgnored ?_ rfl
      cases hcase : s.master.state with
      | stReadyToTx => exact absurd (.inl hcase) hstate
      | stWaitAnswer => rfl
      | stWaitRxComplete => exact absurd (.inr hcase) hstate
  | onRxSlavePacket =>
    rw [step, TMasterTx.onRxSlavePacket]
    split_ifs with hstate
    · exact .packet hstate rfl
    · exact .quiet hstate ⟨rfl, rfl, rfl, le_rfl, rfl⟩

/-! ## Sending -/

/-- The event has a packet written to layer 1. -/
def Sends (s : Line τ) (e : Event τ) : Prop :=
  ∃ packets, s.Passes bus e packets ∧ ∃ packet ∈ packets, TMasterTx.Written packet

/-- An event that adds no packet sends none. -/
theorem not_sends (h : (s.step bus e).master.protocol.packets = s.master.protocol.packets) :
    ¬ s.Sends bus e := by
  rintro ⟨packets, hpasses, packet, hmem, -⟩
  rw [Passes, h, List.self_eq_append_right] at hpasses
  rw [hpasses] at hmem
  cases hmem

/-- Only a `process` that takes requests from the queue sends, and only when it is ready. -/
theorem Sends.take (h : s.Ok T E) (hsends : s.Sends bus e) :
    e = .process ∧ s.master.state = .stReadyToTx ∧ ∃ taken,
      TMasterTx.Processed bus s.master (s.step bus .process).master taken (tick s.time) := by
  cases move bus h e with
  | quiet hno hquiet => exact absurd hsends (not_sends bus hquiet.packets)
  | take hstate hdone => exact ⟨rfl, hstate, _, hdone⟩
  | answerTimeout hstate hout heq => exact absurd hsends (not_sends bus (by rw [heq]; rfl))
  | endTimeout hstate hout heq => exact absurd hsends (not_sends bus (by rw [heq]; rfl))
  | data hstate heq => exact absurd hsends (not_sends bus (by rw [heq]; rfl))
  | dataIgnored hstate heq => exact absurd hsends (not_sends bus (by rw [heq]))
  | packet hstate heq => exact absurd hsends (not_sends bus (by rw [heq]; rfl))

/-- A `process` that is ready sends the requests in the queue if layer 1 has room for them. -/
theorem sends_process (h : s.Ok T E) (hstate : s.master.state = .stReadyToTx)
    (hfree : bus.getTxFree s.master.protocol.lower ≠ 0) (hqueue : s.master.txQueue.toList ≠ [])
    (hroom : s.master.RoomFor bus (TMasterTx.batch s.master.txQueue.toList)) :
    s.Sends bus .process := by
  obtain ⟨rq, rqs, hcons⟩ := List.exists_cons_of_ne_nil hqueue
  have hrequests := h.requests
  rw [hcons] at hrequests hroom
  obtain ⟨packet, hpackets, hwritten⟩ :=
    (TMasterTx.process_ready bus hstate hfree hcons hrequests h.limit (tick s.time)).packet
  exact ⟨[packet], hpackets, packet, List.mem_singleton_self packet, hwritten.2 hroom⟩

/-! ## Behind a request -/

/-- Behind a packet sent at the time `t₀` the bus may be used: the answer timeout has run out, or a
packet has come and the pause behind the last notification that restarted the timer is over. -/
def Free (T E : UInt32) (t₀ : ℕ) (ms : List (Line τ × Event τ)) (time : ℕ) : Prop :=
  t₀ + T.toNat ≤ time ∨
    (∃ m ∈ ms, m.2 = .onRxSlavePacket ∧ m.1.Restarts m.2) ∧
      ∀ m ∈ ms, m.1.Restarts m.2 → m.1.time + E.toNat ≤ time

/-- What holds behind a packet sent at the time `t₀` and the steps `ms`; `start` is the time at
which the timer was restarted. -/
structure Behind (T E : UInt32) (t₀ : ℕ) (ms : List (Line τ × Event τ)) (s : Line τ)
    (start : ℕ) : Prop where
  timer : s.master.timer = tick start
  start_le : start ≤ s.time
  sent : t₀ ≤ s.time
  past : ∀ m ∈ ms, m.1.time ≤ s.time
  answer : s.master.state = .stWaitAnswer → t₀ ≤ start
  complete : s.master.state = .stWaitRxComplete → Free T 0 t₀ ms start
  ready : s.master.state = .stReadyToTx → Free T E t₀ ms s.time

variable {t₀ : ℕ} {ms : List (Line τ × Event τ)}

theorem Free.mono {time time' : ℕ} (h : Free T E t₀ ms time) (hle : time ≤ time') :
    Free T E t₀ ms time' :=
  h.imp (fun h => h.trans hle) fun h => ⟨h.1, fun m hm hr => (h.2 m hm hr).trans hle⟩

/-- A step that does not restart the timer changes nothing. -/
theorem Free.append {time : ℕ} (h : Free T E t₀ ms time) (hno : ¬ s.Restarts e) :
    Free T E t₀ (ms ++ [(s, e)]) time := by
  refine h.imp_right fun ⟨⟨m, hm, hpacket⟩, hall⟩ => ⟨⟨m, List.mem_append_left _ hm, hpacket⟩, ?_⟩
  rw [List.forall_mem_append, List.forall_mem_singleton]
  exact ⟨hall, fun hr => absurd hr hno⟩

/-- Without the pause, a notification may have come this very moment. -/
theorem Free.restart {time : ℕ} (h : Free T E t₀ ms time) (htime : s.time ≤ time) :
    Free T 0 t₀ (ms ++ [(s, e)]) time := by
  refine h.imp_right fun ⟨⟨m, hm, hpacket⟩, hall⟩ => ⟨⟨m, List.mem_append_left _ hm, hpacket⟩, ?_⟩
  rw [List.forall_mem_append, List.forall_mem_singleton]
  exact ⟨fun m hm hr => (Nat.le_add_right _ _).trans (hall m hm hr), fun _ => htime⟩

/-- The pause is over. -/
theorem Free.pause {start time : ℕ} (h : Free T 0 t₀ ms start) (hle : start + E.toNat ≤ time) :
    Free T E t₀ ms time := by
  refine h.imp (fun h => by omega) fun ⟨hpacket, hall⟩ => ⟨hpacket, fun m hm hr => ?_⟩
  have hm := hall m hm hr
  rw [show (0 : UInt32).toNat = 0 from rfl, Nat.add_zero] at hm
  omega

theorem past_append (h : ∀ m ∈ ms, m.1.time ≤ s.time) (hle : s.time ≤ s'.time) :
    ∀ m ∈ ms ++ [(s, e)], m.1.time ≤ s'.time := by
  rw [List.forall_mem_append, List.forall_mem_singleton]
  exact ⟨fun m hm => (h m hm).trans hle, hle⟩

/-- The timer is restarted. -/
theorem behind_restart {state : TMasterState} (hsent : t₀ ≤ s.time)
    (hpast : ∀ m ∈ ms, m.1.time ≤ s.time)
    (hcomplete : state = .stWaitRxComplete → Free T 0 t₀ ms s.time)
    (hready : state = .stReadyToTx → Free T E t₀ ms s.time) :
    Behind T E t₀ ms (s.restart state) s.time :=
  ⟨rfl, le_rfl, hsent, hpast, fun _ => hsent, hcomplete, hready⟩

/-- A packet is made of requests: the timer is restarted if one of them asks for an answer. -/
theorem behind_take {start : ℕ} {taken : List TTxRequest} (h : Behind T E t₀ ms s start)
    (hstate : s.master.state = .stReadyToTx)
    (hdone : TMasterTx.Processed bus s.master s'.master taken (tick s.time))
    (htime : s'.time = s.time) :
    ∃ start', Behind T E t₀ (ms ++ [(s, .process)]) s' start' := by
  have hsent := h.sent
  have hfree : Free T E t₀ (ms ++ [(s, Event.process)]) s.time :=
    (h.ready hstate).append not_false
  have hpast := past_append (e := .process) h.past htime.ge
  have hstate' := hdone.state
  have htimer' := hdone.timer
  split_ifs at hstate' htimer'
  · refine ⟨s.time, htimer', htime.ge, hsent.trans htime.ge, hpast, fun _ => hsent, ?_, ?_⟩
    all_goals rw [hstate']
    · exact nofun
    · exact nofun
  · refine ⟨start, htimer'.trans h.timer, h.start_le.trans htime.ge, hsent.trans htime.ge, hpast,
      ?_, ?_, ?_⟩
    all_goals rw [hstate']
    · exact nofun
    · exact nofun
    · exact fun _ => hfree.mono htime.ge

/-- What holds behind a packet is kept by every event. -/
theorem behind_step (hok : s.Ok T E) (h : ∃ start, Behind T E t₀ ms s start) :
    ∃ start, Behind T E t₀ (ms ++ [(s, e)]) (s.step bus e) start := by
  obtain ⟨start, h⟩ := h
  have hsent := h.sent
  cases move bus hok e with
  | quiet hno hquiet =>
    have htime := hquiet.time
    refine ⟨start, hquiet.timer.trans h.timer, h.start_le.trans htime, hsent.trans htime,
      past_append h.past htime, ?_, ?_, ?_⟩
    all_goals rw [hquiet.state]
    · exact h.answer
    · exact fun hstate => (h.complete hstate).append hno
    · exact fun hstate => ((h.ready hstate).append hno).mono htime
  | take hstate hdone htime hlast => exact behind_take bus h hstate hdone htime
  | answerTimeout hstate hout heq =>
    rw [h.timer, hok.answer] at hout
    have hend := TMasterTx.timedOut_le h.start_le hout
    have hanswer := h.answer hstate
    rw [heq]
    exact ⟨_, behind_restart hsent (past_append h.past le_rfl) nofun fun _ => .inl (by omega)⟩
  | endTimeout hstate hout heq =>
    rw [h.timer, hok.endPacket] at hout
    have hend := TMasterTx.timedOut_le h.start_le hout
    have hfree : Free T 0 t₀ (ms ++ [(s, Event.process)]) start :=
      (h.complete hstate).append not_false
    rw [heq]
    exact ⟨_, behind_restart hsent (past_append h.past le_rfl) nofun fun _ => hfree.pause hend⟩
  | data hstate heq =>
    have hfree : Free T 0 t₀ (ms ++ [(s, Event.onRxSlaveData)]) s.time := by
      rcases hstate with hstate | hstate
      · exact (h.ready hstate).restart le_rfl
      · exact ((h.complete hstate).mono h.start_le).restart le_rfl
    have hbehind : Behind T E t₀ (ms ++ [(s, Event.onRxSlaveData)]) (s.restart .stWaitRxComplete)
        s.time :=
      behind_restart hsent (past_append h.past le_rfl) (fun _ => hfree) nofun
    rw [heq]
    exact ⟨_, hbehind.timer, hbehind.start_le, hbehind.sent, hbehind.past, hbehind.answer,
      hbehind.complete, hbehind.ready⟩
  | dataIgnored hstate heq =>
    have hno : ¬ s.Restarts .onRxSlaveData := by
      rw [Restarts, hstate]
      decide
    rw [heq]
    exact ⟨start, h.timer, h.start_le, hsent, past_append h.past le_rfl, h.answer,
      fun hstate => (h.complete hstate).append hno, fun hstate => (h.ready hstate).append hno⟩
  | packet hstate heq =>
    have hpast : ∀ m ∈ ms ++ [(s, Event.onRxSlavePacket)], m.1.time ≤ s.time :=
      past_append h.past le_rfl
    have hfree : Free T 0 t₀ (ms ++ [(s, Event.onRxSlavePacket)]) s.time :=
      .inr ⟨⟨(s, .onRxSlavePacket), by simp, rfl, hstate⟩, fun m hm _ => hpast m hm⟩
    rw [heq]
    exact ⟨_, behind_restart hsent hpast (fun _ => hfree) nofun⟩

/-- Behind a request that asks for an answer the machine waits. -/
theorem behind_send (hok : s.Ok T E) (hsends : s.Sends bus e) {taken : List TTxRequest}
    (htaken : s.master.txQueue.toList = taken ++ (s.step bus e).master.txQueue.toList)
    (hasks : ∃ rq ∈ taken, rq.Asks) :
    (∃ packet, s.Passes bus e [packet]) ∧ Behind T E s.time [] (s.step bus e) s.time := by
  obtain ⟨rfl, -, taken', hdone⟩ := hsends.take bus hok
  obtain ⟨packet, hpackets, -⟩ := hdone.packet
  have hsame : taken' = taken := List.append_cancel_right (hdone.queue.symm.trans htaken)
  have hany : (taken'.any fun rq => rq.Asks) = true := by
    rw [hsame, List.any_eq_true]
    obtain ⟨rq, hmem, hrq⟩ := hasks
    exact ⟨rq, hmem, decide_eq_true hrq⟩
  have hstate := hdone.state
  have htimer := hdone.timer
  rw [if_pos hany] at hstate htimer
  have htime : s.time ≤ (s.step bus .process).time := by rw [step]
  refine ⟨⟨packet, hpackets⟩, htimer, htime, htime,
    fun _ hm => absurd hm List.not_mem_nil, fun _ => le_rfl, ?_, ?_⟩
  all_goals rw [hstate]
  · exact fun h => TMasterState.noConfusion h
  · exact fun h => TMasterState.noConfusion h

section Runs

variable (address srcAddress : UInt16) (layer3 : Layer3Tx) (lower : τ) (cells : ℕ → TTxRequest)
  (T E : UInt32) (time : ℕ)

/-- **Behind a request.** In every run, if a packet is sent with a request that asks for an answer,
then it is the only packet of that call, and every later packet, the next one first of all, is sent
when the answer timeout has run out since then, or when a packet has come since then and the pause
behind the last notification that restarted the timer is over. -/
theorem next_packet_waits (pre mid : List (Event τ)) (e e' : Event τ) (taken : List TTxRequest) :
    let s₀ := Run.final (step bus) (init address srcAddress layer3 lower cells T E time) pre
    let s₁ := Run.final (step bus) (s₀.step bus e) mid
    s₀.Sends bus e →
    s₀.master.txQueue.toList = taken ++ (s₀.step bus e).master.txQueue.toList →
    (∃ rq ∈ taken, rq.Asks) →
    s₁.Sends bus e' →
    (∃ packet, s₀.Passes bus e [packet]) ∧
      Free T E s₀.time (Run.steps (step bus) (s₀.step bus e) mid) s₁.time := by
  intro s₀ s₁ hsends htaken hasks hnext
  have hok₀ : s₀.Ok T E := ok_final bus address srcAddress layer3 lower cells T E time pre
  obtain ⟨hpacket, hbehind⟩ := behind_send bus hok₀ hsends htaken hasks
  -- along the rest of the run, what holds behind the packet and what holds always
  have htrail : s₁.Ok T E ∧ ∃ start, Behind T E s₀.time
      (Run.steps (step bus) (s₀.step bus e) mid) s₁ start :=
    Run.always_trail (J := fun ms s => s.Ok T E ∧ ∃ start, Behind T E s₀.time ms s start)
      (fun ms s e h => ⟨invariant_step bus s e h.1, behind_step bus h.1 h.2⟩)
      ⟨invariant_step bus s₀ e hok₀, s₀.time, hbehind⟩ mid
  obtain ⟨hok, start, hstart⟩ := htrail
  exact ⟨hpacket, hstart.ready (hnext.take bus hok).2.1⟩

end Runs

/-- A register of the slave 1 is to be read. -/
def request : Event ℕ := .addTxMsgRead 1 0 fRqAnswer linkIdLocal

/-- An answer comes after three ticks, and the next request is sent two ticks later. -/
theorem next_packet_waits_answer :
    let s₀ := Run.final (step uart) (fresh 100) [request]
    let mid := [.pass 3, .onRxSlavePacket, .pass 2, .process, request, .layer1 100]
    (∃ packet, s₀.Passes uart .process [packet]) ∧
      Free 20 2 s₀.time (Run.steps (step uart) (s₀.step uart .process) mid)
        (Run.final (step uart) (s₀.step uart .process) mid).time := by
  intro s₀ mid
  have hsends : s₀.Sends uart .process :=
    sends_process uart (ok_fresh 100 [request]) rfl (by decide) (by decide) (by decide)
  have htaken : s₀.master.txQueue.toList = [⟨msgParameterRead.toUInt16, 1, 0, 0, fRqAnswer⟩] ++
      (s₀.step uart .process).master.txQueue.toList := by decide +kernel
  have hok := ok_run uart (invariant_step uart s₀ .process (ok_fresh 100 [request])) mid
  have hnext : (Run.final (step uart) (s₀.step uart .process) mid).Sends uart .process :=
    sends_process uart hok (by decide +kernel) (by decide +kernel) (by decide +kernel)
      (by decide +kernel)
  exact next_packet_waits uart 0 0 ⟨fun _ => 0, 0, 0⟩ 100 (fun _ => ⟨0, 0, 0, 0, 0⟩) 20 2 0
    [request] mid .process .process _ hsends htaken ⟨_, List.mem_singleton_self _, by decide⟩ hnext

/-! ## Behind data -/

/-- The answer timeout has run out in the pause behind the data of the time `t`. -/
def RanOut (E : UInt32) (t : ℕ) (ms : List (Line τ × Event τ)) : Prop :=
  ∃ m ∈ ms, m.2 = .process ∧ m.1.master.state = .stWaitAnswer ∧
    TMasterTx.TimedOut m.1.master.timer (tick m.1.time) m.1.master.timeoutSlaveAnswer ∧
    m.1.lastRxData = some t ∧ m.1.time < t + E.toNat

/-- The event sends nothing in the pause behind the last data. -/
def HoldsOff (E : UInt32) (s : Line τ) (e : Event τ) : Prop :=
  s.Sends bus e → ∀ t, s.lastRxData = some t → t + E.toNat ≤ s.time

/-- What holds behind data: the timer has been restarted since they came, or the pause is over. -/
structure Pause (E : UInt32) (ms : List (Line τ × Event τ)) (s : Line τ) : Prop where
  past : ∀ t, s.lastRxData = some t → t ≤ s.time
  complete : s.master.state = .stWaitRxComplete → ∃ start, s.master.timer = tick start ∧
    start ≤ s.time ∧ ∀ t, s.lastRxData = some t → t ≤ start
  ready : s.master.state = .stReadyToTx → ∀ t, s.lastRxData = some t →
    t + E.toNat ≤ s.time ∨ RanOut E t ms

theorem RanOut.append {t : ℕ} (h : RanOut E t ms) (m : Line τ × Event τ) :
    RanOut E t (ms ++ [m]) := by
  obtain ⟨m', hm', hout⟩ := h
  exact ⟨m', List.mem_append_left _ hm', hout⟩

/-- Behind data nothing is lost by an event that leaves the last data what they were. -/
theorem Pause.ready_append (h : Pause E ms s) (hstate : s.master.state = .stReadyToTx)
    (m : Line τ × Event τ) {time : ℕ} (htime : s.time ≤ time) :
    ∀ t, s.lastRxData = some t → t + E.toNat ≤ time ∨ RanOut E t (ms ++ [m]) :=
  fun t ht => (h.ready hstate t ht).imp (fun h => h.trans htime) fun h => h.append m

/-- What holds behind data is kept by every event. -/
theorem pause_step (hok : s.Ok T E) (h : Pause E ms s) :
    Pause E (ms ++ [(s, e)]) (s.step bus e) := by
  cases move bus hok e with
  | quiet hno hquiet =>
    have htime := hquiet.time
    constructor
    all_goals rw [hquiet.lastRxData]
    case past => exact fun t ht => (h.past t ht).trans htime
    case complete =>
      rw [hquiet.state, hquiet.timer]
      intro hstate
      obtain ⟨start, htimer, hle, hlast⟩ := h.complete hstate
      exact ⟨start, htimer, hle.trans htime, hlast⟩
    case ready =>
      rw [hquiet.state]
      exact fun hstate => h.ready_append hstate _ htime
  | take hstate hdone htime hlast =>
    have hne : (s.step bus .process).master.state ≠ .stWaitRxComplete := by
      rw [hdone.state]
      split_ifs <;> exact nofun
    constructor
    case complete => exact fun hcomplete => absurd hcomplete hne
    all_goals rw [hlast, htime]
    case past => exact h.past
    case ready => exact fun _ => h.ready_append hstate _ le_rfl
  | answerTimeout hstate hout heq =>
    rw [heq]
    refine ⟨h.past, nofun, fun _ t ht => ?_⟩
    by_cases hle : t + E.toNat ≤ s.time
    · exact .inl hle
    · exact .inr ⟨(s, .process), by simp, rfl, hstate, hout, ht, Nat.lt_of_not_le hle⟩
  | endTimeout hstate hout heq =>
    obtain ⟨start, htimer, hle, hlast⟩ := h.complete hstate
    rw [htimer, hok.endPacket] at hout
    have hend := TMasterTx.timedOut_le hle hout
    rw [heq]
    exact ⟨h.past, nofun, fun _ t ht => .inl ((Nat.add_le_add_right (hlast t ht) _).trans hend)⟩
  | data hstate heq =>
    rw [heq]
    refine ⟨?_, fun _ => ⟨s.time, rfl, le_rfl, ?_⟩, nofun⟩
    · rintro t ⟨⟩
      exact le_rfl
    · rintro t ⟨⟩
      exact le_rfl
  | dataIgnored hstate heq =>
    rw [heq]
    refine ⟨?_, ?_, ?_⟩
    · rintro t ⟨⟩
      exact le_rfl
    · exact fun hcomplete => nomatch hstate.symm.trans hcomplete
    · exact fun hready => nomatch hstate.symm.trans hready
  | packet hstate heq =>
    rw [heq]
    exact ⟨h.past, fun _ => ⟨s.time, rfl, le_rfl, h.past⟩, nofun⟩

/-- **Behind data.** In every run no packet is sent in the pause behind the last data, unless the
answer timeout has run out in that pause: data are ignored while an answer is waited for. -/
theorem packet_holds_off (address srcAddress : UInt16) (layer3 : Layer3Tx) (lower : τ)
    (cells : ℕ → TTxRequest) (T E : UInt32) (time : ℕ) (es : List (Event τ)) (e : Event τ)
    (t : ℕ) :
    let s₀ := init address srcAddress layer3 lower cells T E time
    let s := Run.final (step bus) s₀ es
    s.Sends bus e → s.lastRxData = some t →
      t + E.toNat ≤ s.time ∨ RanOut E t (Run.steps (step bus) s₀ es) := by
  intro s₀ s hsends hlast
  have h₀ : Pause E [] s₀ := ⟨nofun, nofun, fun _ => nofun⟩
  have htrail : s.Ok T E ∧ Pause E (Run.steps (step bus) s₀ es) s :=
    Run.always_trail (J := fun ms s => s.Ok T E ∧ Pause E ms s)
      (fun ms s e h => ⟨invariant_step bus s e h.1, pause_step bus h.1 h.2⟩)
      ⟨ok_init address srcAddress layer3 lower cells T E time, h₀⟩ es
  obtain ⟨hok, hpause⟩ := htrail
  exact hpause.ready (hsends.take bus hok).2.1 t hlast

/-- Data come to a machine that is ready, and the next request is sent two ticks later. -/
theorem packet_holds_off_data :
    let s := Run.final (step uart) (fresh 100) [.onRxSlaveData, .pass 2, .process, request]
    0 + (2 : UInt32).toNat ≤ s.time ∨ RanOut 2 0 (Run.steps (step uart) (fresh 100)
      [.onRxSlaveData, .pass 2, .process, request]) := by
  intro s
  have hsends : s.Sends uart .process :=
    sends_process uart (ok_fresh 100 _) (by decide +kernel) (by decide +kernel)
      (by decide +kernel) (by decide +kernel)
  exact packet_holds_off uart 0 0 ⟨fun _ => 0, 0, 0⟩ 100 (fun _ => ⟨0, 0, 0, 0, 0⟩) 20 2 0 _
    .process 0 hsends (by decide +kernel)

/-- An answer begins when its timeout runs out: the next request is sent over it. -/
theorem talks_over_answer :
    ¬ (Run.final (step uart) (fresh 100) [request, .process, .pass 20, .onRxSlaveData, .process,
      request, .layer1 100]).HoldsOff uart 2 .process := by
  intro hoff
  have hsends := sends_process uart (ok_fresh 100 [request, .process, .pass 20, .onRxSlaveData,
    .process, request, .layer1 100]) (by decide +kernel) (by decide +kernel) (by decide +kernel)
    (by decide +kernel)
  exact absurd (hoff hsends 20 (by decide +kernel)) (by decide +kernel)

end Line

end KS3.Protocol
