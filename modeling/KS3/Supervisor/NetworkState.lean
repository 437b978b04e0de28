import KS3.Supervisor.Concentrator
import KS3.Supervisor.Dispatch
import KS3.Supervisor.Keeps
import KS3.Supervisor.Room

/-!
# The network as the tasks see it

`TTaskMAC_Service` finds out about the link and tells the other tasks by messages. Between two
passes of the main loop no message is under way, and all tasks are of one mind.

`Booting` is what holds while `TTaskInit` works, `Running` what holds afterwards; `loop_ok` takes a
pass from one to the other.

* `no_message_lost`: in every run, no message is refused, `processMessages` always ends, and all
  that was accepted has been handed round by then, in order;
* `network_in_step`: in every run, the task of the datagrams knows of a connection and the polling
  of the slaves is on exactly when the link is; datagrams are sent and taken only then, and the task
  rests then only if `udp_io::init` has been called and has failed every time;
* `initialised_once`: `emac_app::init` is called at most once and `udp_io::init` succeeds at most
  once.
-/

namespace KS3.Supervisor

open Comm DataIO Protocol Net Udp Poll Buffers

/-! ## What the tasks do when their messages are accepted -/

/-- The machine of the link, when its messages are accepted. -/
theorem MacLink.ideal_process (s : MacLink) (now : UInt32) (mii : Mii) :
    (s.process now mii).ideal.1.view = (s.view.next now mii).1 ∧
      (s.process now mii).ideal.2 = (s.view.next now mii).2.map netMessage := by
  have hpos : 0 < (s.process now mii).ideal.2.length + 1 := Nat.succ_pos _
  obtain ⟨hvalue, hsent, -, -⟩ := (s.process now mii).run_ideal
    (q := TQueue.init (fun _ => default) ((s.process now mii).ideal.2.length + 1) hpos) (by
      change 0 + _ ≤ _ + 1
      omega)
  obtain ⟨hview, hmsgs⟩ := s.view_process now mii
    (TQueue.init (fun _ => default) ((s.process now mii).ideal.2.length + 1) hpos)
  rw [hvalue] at hview
  rw [hsent, List.map_map] at hmsgs
  exact ⟨hview, (List.map_id _).symm.trans hmsgs⟩

/-- The task of the datagrams keeps its books: `UDP_initOk` says that the last initialisation has
succeeded, which is the only one that has, and it is set in the states behind the initialisation and
in no state before it. -/
structure UdpOk (t : TTaskUDPService) : Prop where
  once : ∃ k, t.inits = List.replicate k false ++ if t.udpInitOk then [true] else []
  inited : t.io.inited = t.udpInitOk
  state : match t.state with
    | .kStIdle => True
    | .kStInit => t.udpInitOk = false
    | .kStInitOk | .kStProcess | .kStProcessRx | .kStProcessTx => t.udpInitOk = true

/-- `udp_io::init` has been called, and it has failed every time. -/
def InitFailed (t : TTaskUDPService) : Prop := ∃ k, t.inits = List.replicate (k + 1) false

/-- Working off the queues has nothing to do with the initialisation. -/
theorem inited_rx (io : UdpIo) (packets : List (List UInt8)) :
    (io.processRxQueue [packets]).inited = io.inited := by
  rw [UdpIo.processRxQueue, UdpIo.processRxQueue]
  split_ifs with hempty
  · rfl
  · rcases hqueue : io.rxQueue.toList with _ | ⟨d, ds⟩
    · rw [UdpIo.rxPass_of_nil hqueue]
    · obtain ⟨_, _, _, _, hpass⟩ := UdpIo.rxPass_frame hqueue packets
      rw [hpass]

theorem inited_tx (io : UdpIo) (connectOk sendOk : Bool) :
    (io.processTxQueue [(connectOk, sendOk)]).inited = io.inited := by
  rw [UdpIo.processTxQueue, UdpIo.processTxQueue]
  split_ifs with hempty
  · rfl
  · obtain ⟨_, _, _, _, _, _, hpass⟩ := io.txPass_frame connectOk sendOk
    rw [hpass]

theorem inited_receive (io : UdpIo) (datagrams : List (UInt32 × ℕ × ℕ)) :
    (datagrams.foldl (fun io g => io.receive g.1 g.2.1 g.2.2) io).inited = io.inited := by
  induction datagrams generalizing io with
  | nil => rfl
  | cons g gs ih =>
    rw [List.foldl_cons, ih, UdpIo.receive]
    simp only
    split_ifs <;> rfl

namespace UdpOk

variable {t : TTaskUDPService}

/-- **A call of the task of the datagrams**: it keeps its books, it does not touch the connection,
it stays idle, and while there is a connection it falls idle only when the initialisation fails. Its
message is one about the initialisation. -/
theorem process (h : UdpOk t) (e : UdpInput) :
    UdpOk (t.process e).ideal.1 ∧ (t.process e).ideal.1.connected = t.connected ∧
      (t.process e).ideal.1.active = t.active ∧
      (t.state = .kStIdle → (t.process e).ideal.1 = t) ∧
      (t.connected → (t.state = .kStIdle → InitFailed t) →
        (t.process e).ideal.1.state = .kStIdle → InitFailed (t.process e).ideal.1) ∧
      ((t.process e).ideal.2 = [] ∨ (t.process e).ideal.2 = [netMessage msgUDPInitOk] ∨
        (t.process e).ideal.2 = [netMessage msgUDPInitError]) := by
  obtain ⟨honce, hinited, hstate⟩ := h
  unfold TTaskUDPService.process
  cases hs : t.state with
  | kStIdle =>
    exact ⟨⟨honce, hinited, hstate⟩, rfl, rfl, fun _ => rfl, fun _ h _ => h rfl, .inl rfl⟩
  | kStInit =>
    simp only [hs] at hstate
    obtain ⟨k, honce⟩ := honce
    rw [hstate, if_neg Bool.false_ne_true, List.append_nil] at honce
    simp only
    split_ifs with hok
    · refine ⟨⟨⟨k, ?_⟩, ?_, rfl⟩, rfl, rfl, False.elim, fun _ _ h => ?_, .inr (.inl rfl)⟩
      · simp [Code.ideal, TTaskUDPService.initIo, hok, honce]
      · simp [Code.ideal, TTaskUDPService.initIo, hok]
      · cases h
    · have hfailed : (t.initIo e.initOk).inits = List.replicate (k + 1) false := by
        simp [TTaskUDPService.initIo, hok, honce, List.replicate_succ']
      refine ⟨⟨⟨k + 1, ?_⟩, ?_, trivial⟩, rfl, rfl, False.elim, fun _ _ _ => ⟨k, hfailed⟩,
        .inr (.inr rfl)⟩
      · exact hfailed.trans (List.append_nil _).symm
      · simpa [Code.ideal, TTaskUDPService.initIo] using hok
  | kStInitOk =>
    simp only [hs] at hstate
    have hne : UdpState.kStProcess ≠ .kStIdle := by decide
    simp only
    split_ifs with hconn
    · exact ⟨⟨honce, hinited, hstate⟩, rfl, rfl, False.elim, fun _ _ h => absurd h hne, .inl rfl⟩
    · exact ⟨⟨honce, hinited, trivial⟩, rfl, rfl, False.elim, fun h => absurd h hconn, .inl rfl⟩
  | kStProcess =>
    simp only [hs] at hstate
    have hbusy : UdpState.kStProcess ≠ .kStIdle := by decide
    have hne : UdpState.kStProcessRx ≠ .kStIdle := by decide
    exact ⟨⟨honce, hinited, hstate⟩, rfl, rfl, fun h => absurd h hbusy,
      fun _ _ h => absurd h hne, .inl rfl⟩
  | kStProcessRx =>
    simp only [hs] at hstate
    have hbusy : UdpState.kStProcessRx ≠ .kStIdle := by decide
    have hne : UdpState.kStProcessTx ≠ .kStIdle := by decide
    exact ⟨⟨honce, (inited_rx _ _).trans hinited, hstate⟩, rfl, rfl, fun h => absurd h hbusy,
      fun _ _ h => absurd h hne, .inl rfl⟩
  | kStProcessTx =>
    simp only [hs] at hstate
    have hbusy : UdpState.kStProcessTx ≠ .kStIdle := by decide
    have hne : UdpState.kStProcess ≠ .kStIdle := by decide
    exact ⟨⟨honce, (inited_tx _ _ _).trans hinited, hstate⟩, rfl, rfl, fun h => absurd h hbusy,
      fun _ _ h => absurd h hne, .inl rfl⟩

/-- When every initialisation has failed, `UDP_initOk` is not set. -/
theorem not_ok (h : UdpOk t) (hfailed : InitFailed t) : t.udpInitOk = false := by
  obtain ⟨k, honce⟩ := h.once
  obtain ⟨l, hfalse⟩ := hfailed
  rw [hfalse] at honce
  by_contra hok
  rw [if_pos (by simpa using hok)] at honce
  have hmem : true ∈ List.replicate (l + 1) false := by
    rw [honce]
    exact List.mem_append_right _ (List.mem_singleton_self true)
  cases (List.eq_of_mem_replicate hmem)

/-- The datagrams that arrive do not matter. -/
theorem receiveDatagrams {τ : Type*} {d : Concentrator τ} (h : UdpOk d.tsUDPService) :
    UdpOk d.receiveDatagrams ∧ d.receiveDatagrams.connected = d.tsUDPService.connected ∧
      d.receiveDatagrams.active = d.tsUDPService.active ∧
      d.receiveDatagrams.state = d.tsUDPService.state ∧
      d.receiveDatagrams.udpInitOk = d.tsUDPService.udpInitOk ∧
      d.receiveDatagrams.inits = d.tsUDPService.inits := by
  unfold Concentrator.receiveDatagrams
  split_ifs
  · exact ⟨⟨h.once, (inited_receive _ _).trans h.inited, h.state⟩, rfl, rfl, rfl, rfl, rfl⟩
  · exact ⟨h, rfl, rfl, rfl, rfl, rfl⟩

end UdpOk

/-! ## The phases of the network -/

/-- The state of the other tasks that goes with a state of the machine of the link: nothing is on
before the first connection; while there is a connection, the task of the datagrams knows it and is
at work, unless the initialisation has failed, and the polling of the slaves is started; without a
connection the task of the datagrams is idle and the polling is stopped. -/
def InPhase (state : MacState) (t : TTaskUDPService) (poll : PollState) : Prop :=
  match state with
  | .kStInitStart | .kStInitWait | .kStInitComplete =>
    t.state = .kStIdle ∧ t.udpInitOk = false ∧ t.connected = false ∧ poll = .kStIdle
  | .kStControlLinkStatus | .kStLinkOff =>
    t.connected = true ∧ (t.state = .kStIdle → InitFailed t) ∧ poll = .kStStart
  | .kStLinkWait => t.connected = false ∧ t.state = .kStIdle ∧ poll = .kStStop
  | .kStIdle | .kStError | .kStInitWaitTimeout => False

/-- What a message about the network does to the state of the polling. -/
def pollAfter (poll : PollState) (no : Int32) : PollState :=
  if no.toInt16 = msgNetConnected.toInt16 then .kStStart
  else if no.toInt16 = msgNetDisconnected.toInt16 then .kStStop
  else poll

/-- What a message about the network does to the task of the datagrams. -/
def udpAfter (t : TTaskUDPService) (no : Int32) : TTaskUDPService := t.handleEvent (netMessage no)

section Phases

variable {l : Link} {v : LinkView} {t : TTaskUDPService} {poll : PollState}

/-- The messages of the machine: which ones it sends in which state. -/
theorem next_messages (hok : LinkOk l v) (now : UInt32) (mii : Mii) :
    ((v.next now mii).2 = [] ∧ ((v.next now mii).1.state = v.state ∨
        v.state = .kStInitWait ∧ (v.next now mii).1.state = .kStInitComplete ∨
        v.state = .kStControlLinkStatus ∧ (v.next now mii).1.state = .kStLinkOff)) ∨
      (v.state = .kStInitStart ∧ (v.next now mii).1.state = .kStInitWait ∧
        (v.next now mii).2 = [msgNetInitStart]) ∨
      (v.state = .kStInitComplete ∧ (v.next now mii).1.state = .kStControlLinkStatus ∧
        (v.next now mii).2 = [msgNetInitOk, msgNetConnected]) ∨
      (v.state = .kStLinkOff ∧ (v.next now mii).1.state = .kStLinkWait ∧
        (v.next now mii).2 = [msgNetDisconnected]) ∨
      (v.state = .kStLinkWait ∧ (v.next now mii).1.state = .kStControlLinkStatus ∧
        (v.next now mii).2 = [msgNetConnected]) := by
  have hstate := hok.state
  by_cases htick : v.timer2 = now
  · simp [LinkView.next, htick]
  cases hs : v.state with
  | kStIdle => simp [LinkView.next, htick, hs]
  | kStError | kStInitWaitTimeout =>
    rw [hs] at hstate
    exact hstate.elim
  | kStInitStart | kStInitComplete | kStLinkOff => simp [LinkView.next, htick, hs]
  | kStInitWait | kStControlLinkStatus | kStLinkWait =>
    by_cases htimer : TMasterTx.TimedOut v.timer now tmMacControlLink
    · by_cases hup : (v.emac.processLinkStatus mii).2.linkStatus = 0 <;>
        simp [LinkView.next, LinkView.poll, htick, hs, htimer, hup]
    · simp [LinkView.next, htick, hs, htimer]

/-- What a call does to the machine apart from its state. -/
theorem next_inits (hok : LinkOk l v) (now : UInt32) (mii : Mii)
    (h : v.inits = if v.state = .kStInitStart then 0 else 1) :
    (v.next now mii).1.inits = (if (v.next now mii).1.state = .kStInitStart then 0 else 1) ∧
      (v.next now mii).1.active = v.active := by
  have hstate := hok.state
  by_cases htick : v.timer2 = now
  · simp [LinkView.next, htick, h]
  cases hs : v.state with
  | kStError | kStInitWaitTimeout =>
    rw [hs] at hstate
    exact hstate.elim
  | kStIdle | kStInitStart | kStInitComplete | kStLinkOff =>
    simp [LinkView.next, htick, hs, h]
  | kStInitWait | kStControlLinkStatus | kStLinkWait =>
    by_cases htimer : TMasterTx.TimedOut v.timer now tmMacControlLink
    · by_cases hup : (v.emac.processLinkStatus mii).2.linkStatus = 0 <;>
        simp [LinkView.next, LinkView.poll, htick, hs, htimer, hup, h]
    · simp [LinkView.next, htick, hs, htimer, h]

theorem udpAfter_initOk (t : TTaskUDPService) :
    udpAfter t msgNetInitOk = { t with state := .kStInit } := rfl

theorem udpAfter_connected (t : TTaskUDPService) :
    udpAfter t msgNetConnected =
      { t with connected := true, state := if t.udpInitOk then .kStProcess else .kStInit } := by
  have heq : udpAfter t msgNetConnected =
      if t.udpInitOk then { t with connected := true, state := .kStProcess }
      else if t.state ≠ .kStInit then { t with connected := true, state := .kStInit }
      else { t with connected := true } := rfl
  obtain ⟨active, state, udpInitOk, connected, handler, io, inits⟩ := t
  rw [heq]
  cases udpInitOk <;> cases state <;> rfl

theorem handleEvent_active (t : TTaskUDPService) (msg : TCMessage) :
    (t.handleEvent msg).active = t.active := by
  unfold TTaskUDPService.handleEvent
  simp only
  split_ifs <;> rfl

/-- What the phase depends on. -/
theorem InPhase.congr {state : MacState} {t' : TTaskUDPService} (h : InPhase state t poll)
    (hstate : t'.state = t.state) (hok : t'.udpInitOk = t.udpInitOk)
    (hconn : t'.connected = t.connected) (hinits : t'.inits = t.inits) :
    InPhase state t' poll := by
  unfold InPhase InitFailed at h ⊢
  rw [hstate, hok, hconn, hinits]
  exact h

/-- A call of the task of the datagrams keeps it in its phase. -/
theorem InPhase.process (hudp : UdpOk t) {state : MacState} (h : InPhase state t poll)
    (e : UdpInput) : InPhase state (t.process e).ideal.1 poll := by
  obtain ⟨-, hconn, -, hidle, hfalls, -⟩ := hudp.process e
  cases state with
  | kStIdle | kStError | kStInitWaitTimeout => exact h.elim
  | kStInitStart | kStInitWait | kStInitComplete =>
    rw [hidle h.1]
    exact h
  | kStControlLinkStatus | kStLinkOff =>
    exact ⟨hconn.trans h.1, hfalls h.1 h.2.1, h.2.2⟩
  | kStLinkWait =>
    rw [hidle h.2.1]
    exact h

/-- **The tasks stay of one mind**: when the machine of the link has been called, the task of the
datagrams has been called and the messages of the machine have been handled, the other tasks are in
the state that goes with the new state of the machine. -/
theorem InPhase.next (hok : LinkOk l v) (hudp : UdpOk t) (h : InPhase v.state t poll)
    (now : UInt32) (mii : Mii) (e : UdpInput) :
    UdpOk ((v.next now mii).2.foldl udpAfter (t.process e).ideal.1) ∧
      ((v.next now mii).2.foldl udpAfter (t.process e).ideal.1).active = t.active ∧
      InPhase (v.next now mii).1.state ((v.next now mii).2.foldl udpAfter (t.process e).ideal.1)
        ((v.next now mii).2.foldl pollAfter poll) := by
  obtain ⟨hbooks, -, hactive, -⟩ := hudp.process e
  have hphase := h.process hudp e
  generalize (t.process e).ideal.1 = t' at hbooks hactive hphase
  rcases next_messages hok now mii with ⟨hms, hst⟩ | ⟨hs, hs', hms⟩ | ⟨hs, hs', hms⟩ |
    ⟨hs, hs', hms⟩ | ⟨hs, hs', hms⟩
  · rw [hms]
    refine ⟨hbooks, hactive, ?_⟩
    rcases hst with hst | ⟨hs, hst⟩ | ⟨hs, hst⟩
    · rw [hst]
      exact hphase
    · rw [hs] at hphase
      rw [hst]
      exact hphase
    · rw [hs] at hphase
      rw [hst]
      exact hphase
  · rw [hs] at hphase
    rw [hms, hs']
    exact ⟨⟨hbooks.once, hbooks.inited, trivial⟩, hactive, rfl, hphase.2⟩
  · rw [hs] at hphase
    rw [hms, hs']
    obtain ⟨hidle, hinit, hconn, hpoll⟩ := hphase
    simp only [List.foldl_cons, List.foldl_nil, udpAfter_initOk, udpAfter_connected, hinit]
    exact ⟨⟨hinit ▸ hbooks.once, hbooks.inited.trans hinit, rfl⟩, hactive, rfl,
      nofun, rfl⟩
  · rw [hs] at hphase
    rw [hms, hs']
    exact ⟨⟨hbooks.once, hbooks.inited, trivial⟩, hactive, rfl, rfl, rfl⟩
  · rw [hs] at hphase
    rw [hms, hs']
    simp only [List.foldl_cons, List.foldl_nil, udpAfter_connected]
    cases hinit : t'.udpInitOk with
    | false =>
      exact ⟨⟨hinit ▸ hbooks.once, hbooks.inited.trans hinit, rfl⟩, hactive, rfl,
        nofun, rfl⟩
    | true =>
      exact ⟨⟨hinit ▸ hbooks.once, hbooks.inited.trans hinit, rfl⟩, hactive, rfl,
        nofun, rfl⟩

end Phases

/-! ## A pass of the main loop -/

namespace Concentrator

variable {τ : Type*} (bus : LocalBus τ)

theorem tasks_quiet : (tasks bus).Quiet := by
  intro i msg d
  rcases i with _ | _ | _ | i
  all_goals exact ⟨_, rfl⟩

/-- The three tasks are active, and `TTaskInit` has done its work. -/
structure Awake (d : Concentrator τ) : Prop where
  monitor : d.tsMonitor.active = true
  mac : d.tsMACService.task.active = true
  udp : d.tsUDPService.active = true
  init : d.tsInit.active = false

/-- A message is handled by all three tasks. -/
def handled (msg : TCMessage) (d : Concentrator τ) : Concentrator τ :=
  { d.monitorHandleEvent msg with
    tsMACService := { d.tsMACService with task := d.tsMACService.task.handleEvent msg }
    tsUDPService := d.tsUDPService.handleEvent msg }

variable {bus} {d : Concentrator τ}

/-- What `TTaskMonitor::handleEvent` leaves alone. -/
theorem monitorHandleEvent_frame (msg : TCMessage) (d : Concentrator τ) :
    ∃ slPoll, d.monitorHandleEvent msg = { d with slPoll := slPoll } := by
  unfold monitorHandleEvent
  split_ifs
  · exact ⟨_, rfl⟩
  · exact ⟨_, rfl⟩
  · exact ⟨_, rfl⟩
  · exact ⟨_, rfl⟩

/-- **A message about the network or the system** goes to all three tasks. -/
theorem deliver_awake (h : Awake d) {msg : TCMessage}
    (hgroup : msg.msgGroup = grpNet ∨ msg.msgGroup = grpSystem) (hfresh : msg.discard = false) :
    (tasks bus).deliver msg d = d.handled msg := by
  obtain ⟨slPoll, hframe⟩ := monitorHandleEvent_frame msg d
  have hmask : taskMask &&& msg.msgGroup ≠ 0 ∧ (grpSystem ||| grpNet) &&& msg.msgGroup ≠ 0 ∧
      (grpSystem ||| grpNetState) &&& msg.msgGroup ≠ 0 := by
    rcases hgroup with hgroup | hgroup <;> rw [hgroup] <;> decide
  have hround : (tasks bus).deliver msg d = (tasks bus).deliverFrom 0 4 msg d := rfl
  rw [hround, Tasks.deliverFrom_wants hfresh ⟨h.monitor, hmask.1⟩ rfl, hframe,
    Tasks.deliverFrom_wants hfresh ⟨h.mac, hmask.2.1⟩ rfl,
    Tasks.deliverFrom_wants hfresh ⟨h.udp, hmask.2.2⟩ rfl, Tasks.deliverFrom_skip hfresh]
  · rw [handled, hframe]
    rfl
  · intro hwants
    exact absurd (hwants.1.symm.trans h.init) (by decide)

/-- The messages of the network leave the machine of the link alone. -/
theorem handled_net {no : Int32} (hno : no.toInt16 ≠ msgSysInit) (d : Concentrator τ) :
    ∃ slPoll, d.handled (netMessage no) =
        { d with slPoll := slPoll, tsUDPService := udpAfter d.tsUDPService no } ∧
      slPoll.state = pollAfter d.slPoll.state no := by
  have hmsg : (netMessage no).msgNo = no.toInt16 := rfl
  have hmac : d.tsMACService.task.handleEvent (netMessage no) = d.tsMACService.task := if_neg hno
  unfold handled monitorHandleEvent pollAfter
  rw [hmac, hmsg, if_neg hno]
  split_ifs
  · exact ⟨_, rfl, rfl⟩
  · exact ⟨_, rfl, rfl⟩
  · exact ⟨_, rfl, rfl⟩

variable (bus) in
/-- **Messages about the network are handed round**: the task of the datagrams and the polling
follow them, nothing else changes. -/
theorem deliver_net (nos : List Int32) (hnos : ∀ no ∈ nos, no.toInt16 ≠ msgSysInit)
    {d : Concentrator τ} (h : Awake d) :
    ∃ slPoll, (nos.map netMessage).foldl (fun d msg => (tasks bus).deliver msg d) d =
        { d with slPoll := slPoll, tsUDPService := nos.foldl udpAfter d.tsUDPService } ∧
      slPoll.state = nos.foldl pollAfter d.slPoll.state := by
  induction nos generalizing d with
  | nil => exact ⟨_, rfl, rfl⟩
  | cons no nos ih =>
    obtain ⟨hno, hnos⟩ := List.forall_mem_cons.1 hnos
    obtain ⟨slPoll, hhandled, hstate⟩ := handled_net hno d
    have hactive : (udpAfter d.tsUDPService no).active = true :=
      (handleEvent_active _ _).trans h.udp
    obtain ⟨slPoll', hrest, hstate'⟩ := ih hnos
      (d := { d with slPoll := slPoll, tsUDPService := udpAfter d.tsUDPService no })
      ⟨h.monitor, h.mac, hactive, h.init⟩
    refine ⟨slPoll', ?_, ?_⟩
    · rw [List.map_cons, List.foldl_cons, deliver_awake h (.inl rfl) rfl, hhandled, hrest]
      rfl
    · rw [hstate', hstate]
      rfl

/-- A message from a slave does not move the machine that polls them: its state, the slave it is at
and the addresses stay. -/
theorem rxMessageHandler_keeps {σ : Type*} (dataHandler : TDataBuffer → UInt16 → σ → ℤ × σ)
    (p : SlavePoll) (q : TQueue TTxRequest) (s : σ) (msg : Mem) (srcAddress : UInt16) :
    (p.rxMessageHandler dataHandler q s msg srcAddress).1.state = p.state ∧
      (p.rxMessageHandler dataHandler q s msg srcAddress).1.index = p.index ∧
      ∀ i, ((p.rxMessageHandler dataHandler q s msg srcAddress).1.slaves i).address =
        (p.slaves i).address := by
  by_cases happ : msg 0 = msgAppType
  · rw [SlavePoll.rxMessageHandler, if_pos happ]
    by_cases hdata : msg.word 2 = kDataId
    · rw [SlavePoll.handleMsgAppType_data _ _ _ _ _ hdata rfl]
      refine ⟨(SlavePoll.note_keeps ..).1, (SlavePoll.note_keeps ..).2, fun i => ?_⟩
      by_cases hsrc : srcAddress = p.polled.address
      · rw [hsrc, SlavePoll.slaves_note]
        split_ifs with hi
        · rw [hi]
          rfl
        · rfl
      · rw [SlavePoll.note_of_ne hsrc]
    · rw [SlavePoll.handleMsgAppType, if_neg hdata]
      split_ifs
      · have hkeeps := p.handleNoData_keeps srcAddress
        exact ⟨(hkeeps 0).2.2.1, (hkeeps 0).2.2.2, fun i => (hkeeps i).1⟩
      · exact ⟨rfl, rfl, fun _ => rfl⟩
  · rw [SlavePoll.rxMessageHandler, if_neg happ]
    exact ⟨rfl, rfl, fun _ => rfl⟩

/-- What happens on the local bus does not concern the tasks, nor whether the slaves are polled. -/
theorem busEvent_frame (d : Concentrator τ) (e : BusEvent τ) :
    ∃ slPoll master buffers, d.busEvent e =
        { d with slPoll := slPoll, masterTxLocal := master, buffers := buffers } ∧
      slPoll.state = d.slPoll.state := by
  cases e with
  | layer1 lower => exact ⟨d.slPoll, _, d.buffers, rfl, rfl⟩
  | onRxSlaveData now => exact ⟨d.slPoll, _, d.buffers, rfl, rfl⟩
  | onBeginRxPacketProcess srcAddress => exact ⟨d.slPoll, _, d.buffers, rfl, rfl⟩
  | onRxSlavePacket now => exact ⟨d.slPoll, _, d.buffers, rfl, rfl⟩
  | message msg srcAddress =>
    exact ⟨(d.slPoll.rxMessageHandler SlavePoll.writeData d.masterTxLocal.txQueue d.buffers msg
      srcAddress).1, _, _, rfl, (rxMessageHandler_keeps ..).1⟩

theorem halProcess_frame (d : Concentrator τ) (e : Pass τ) :
    ∃ slPoll master buffers, d.halProcess e =
        { d with pass := e, slPoll := slPoll, masterTxLocal := master, buffers := buffers } ∧
      slPoll.state = d.slPoll.state := by
  have hall (es : List (BusEvent τ)) (d : Concentrator τ) :
      ∃ slPoll master buffers, es.foldl busEvent d =
        { d with slPoll := slPoll, masterTxLocal := master, buffers := buffers } ∧
      slPoll.state = d.slPoll.state := by
    induction es generalizing d with
    | nil => exact ⟨_, _, _, rfl, rfl⟩
    | cons e es ih =>
      obtain ⟨slPoll, master, buffers, hfirst, hstate⟩ := busEvent_frame d e
      obtain ⟨slPoll', master', buffers', hrest, hstate'⟩ := ih (d.busEvent e)
      refine ⟨slPoll', master', buffers', ?_, ?_⟩
      · rw [List.foldl_cons, hrest, hfirst]
      · rw [hstate', hfirst, ← hstate]
  exact hall e.bus { d with pass := e }

/-! ## The tasks at work -/

/-- What holds once `TTaskInit` has done its work: all tasks are active and of one mind, and
`emac_app::init` has been called once, or is about to be. -/
structure Running (d : Concentrator τ) : Prop where
  awake : Awake d
  udp : UdpOk d.tsUDPService
  link : ∃ l, LinkOk l d.tsMACService.view
  inits : d.tsMACService.view.inits =
    if d.tsMACService.view.state = .kStInitStart then 0 else 1
  phase : InPhase d.tsMACService.view.state d.tsUDPService d.slPoll.state

variable (bus d) in
/-- The concentrator when the monitor and the machine of the link have had their turns. -/
def linked : Concentrator τ :=
  { d.monitorProcess bus (d.pass.now 0) with
    tsUDPService := d.receiveDatagrams
    tsMACService := (d.tsMACService.process (d.pass.now 1) d.pass.mii).ideal.1 }

variable (bus d) in
/-- The concentrator when all tasks have had their turns. -/
def worked : Concentrator τ := (d.linked bus).udpProcess.ideal.1

variable (bus) in
/-- The tasks have their turns: the messages are those of the machine of the link and perhaps one
about the initialisation of `udp_io`. -/
theorem idealTasks_awake (h : Awake d) (hudp : UdpOk d.tsUDPService) :
    ∃ nos : List Int32, (nos = [] ∨ nos = [msgUDPInitOk] ∨ nos = [msgUDPInitError]) ∧
      (tasks bus).idealTasks d = (d.worked bus,
        ((d.tsMACService.view.next (d.pass.now 1) d.pass.mii).2 ++ nos).map netMessage) := by
  obtain ⟨-, hms⟩ := d.tsMACService.ideal_process (d.pass.now 1) d.pass.mii
  obtain ⟨hrx, -, hactive, -⟩ := hudp.receiveDatagrams
  obtain ⟨-, -, -, -, -, hus⟩ := hrx.process d.pass.udp
  obtain ⟨nos, hnos, husual⟩ : ∃ nos : List Int32,
      (d.receiveDatagrams.process d.pass.udp).ideal.2 = nos.map netMessage ∧
        (nos = [] ∨ nos = [msgUDPInitOk] ∨ nos = [msgUDPInitError]) := by
    rcases hus with hus | hus | hus
    · exact ⟨[], hus, .inl rfl⟩
    · exact ⟨[msgUDPInitOk], hus, .inr (.inl rfl)⟩
    · exact ⟨[msgUDPInitError], hus, .inr (.inr rfl)⟩
  have hmac : ((d.monitorProcess bus (d.pass.now 0)).macProcess (d.pass.now 1)).ideal =
      (d.linked bus,
        (d.tsMACService.view.next (d.pass.now 1) d.pass.mii).2.map netMessage) := by
    rw [macProcess, Code.ideal_map]
    exact Prod.ext rfl hms
  have hudp : (d.linked bus).udpProcess.ideal = (d.worked bus, nos.map netMessage) := by
    refine Prod.ext rfl ?_
    rw [udpProcess, Code.ideal_map]
    exact hnos
  have hinit : ¬ (tasks bus).isActive 3 (d.worked bus) := by
    have hsame : (d.worked bus).tsInit = d.tsInit := by
      rw [worked, udpProcess, Code.ideal_map]
      rfl
    change ¬ (d.worked bus).tsInit.active = true
    rw [hsame, h.init]
    decide
  have hmonitor : ((tasks bus).process 0 d).ideal = (d.monitorProcess bus (d.pass.now 0), []) := rfl
  have hfrom : (tasks bus).idealTasks d = (tasks bus).idealFrom 0 4 d := rfl
  refine ⟨nos, husual, ?_⟩
  rw [hfrom, Tasks.idealFrom_active h.monitor hmonitor, Tasks.idealFrom_active h.mac hmac,
    Tasks.idealFrom_active (hactive.trans h.udp) hudp, Tasks.idealFrom_skip hinit]
  simp [Tasks.idealFrom]

variable (bus) in
/-- The concentrator when all tasks have had their turns is still of one mind, but for the messages
that are to be handed round. -/
theorem worked_fields (h : Awake d) :
    (d.worked bus).tsMACService.view = (d.tsMACService.view.next (d.pass.now 1) d.pass.mii).1 ∧
      (d.worked bus).tsUDPService = (d.receiveDatagrams.process d.pass.udp).ideal.1 ∧
      (d.worked bus).tsMonitor.active = true ∧ (d.worked bus).tsInit = d.tsInit ∧
      (d.worked bus).slPoll = d.slPoll := by
  have hworked : d.worked bus = { d.linked bus with
      tsUDPService := (d.receiveDatagrams.process d.pass.udp).ideal.1
      buffers := (d.worked bus).buffers } := by
    rw [worked, udpProcess, Code.ideal_map]
    rfl
  rw [hworked]
  refine ⟨(d.tsMACService.ideal_process (d.pass.now 1) d.pass.mii).1, rfl, ?_, rfl, rfl⟩
  simp only [linked, monitorProcess]
  split_ifs <;> exact h.monitor

/-- The messages of a pass have room, and none of them is `msgSysInit`. -/
theorem messages_few {l : Link} {v : LinkView} (hok : LinkOk l v) (now : UInt32) (mii : Mii)
    {nos : List Int32} (hnos : nos = [] ∨ nos = [msgUDPInitOk] ∨ nos = [msgUDPInitError]) :
    ((v.next now mii).2 ++ nos).length ≤ messageQueueSize ∧
      ∀ no ∈ (v.next now mii).2 ++ nos, no.toInt16 ≠ msgSysInit := by
  have hstart : msgNetInitStart.toInt16 ≠ msgSysInit := by decide
  have hinit : msgNetInitOk.toInt16 ≠ msgSysInit := by decide
  have hconn : msgNetConnected.toInt16 ≠ msgSysInit := by decide
  have hdisc : msgNetDisconnected.toInt16 ≠ msgSysInit := by decide
  have hudp : msgUDPInitOk.toInt16 ≠ msgSysInit := by decide
  have herror : msgUDPInitError.toInt16 ≠ msgSysInit := by decide
  rcases next_messages hok now mii with ⟨hms, -⟩ | ⟨-, -, hms⟩ | ⟨-, -, hms⟩ | ⟨-, -, hms⟩ |
    ⟨-, -, hms⟩ <;> rcases hnos with rfl | rfl | rfl <;>
    simp [hms, messageQueueSize, hstart, hinit, hconn, hdisc, hudp, herror]

/-- The messages about the initialisation of `udp_io` change nothing. -/
theorem foldl_initIo {nos : List Int32}
    (hnos : nos = [] ∨ nos = [msgUDPInitOk] ∨ nos = [msgUDPInitError]) (t : TTaskUDPService)
    (poll : PollState) : nos.foldl udpAfter t = t ∧ nos.foldl pollAfter poll = poll := by
  rcases hnos with rfl | rfl | rfl <;> exact ⟨rfl, rfl⟩

variable (bus) in
/-- **A pass of the tasks at work**: the messages have room, and when they have been handed round
the tasks are of one mind again. -/
theorem Running.pass (h : Running d) :
    ((tasks bus).idealTasks d).2.length ≤ messageQueueSize ∧
      Running (((tasks bus).idealTasks d).2.foldl (fun d msg => (tasks bus).deliver msg d)
        ((tasks bus).idealTasks d).1) := by
  obtain ⟨hawake, hudp, ⟨l, hlink⟩, hinits, hphase⟩ := h
  obtain ⟨nos, hnos, hideal⟩ := idealTasks_awake bus hawake hudp
  obtain ⟨hmac, hservice, hmonitor, hinit, hpoll⟩ := worked_fields bus hawake
  obtain ⟨hroom, hsys⟩ := messages_few hlink (d.pass.now 1) d.pass.mii hnos
  obtain ⟨hinits', hactive'⟩ := next_inits hlink (d.pass.now 1) d.pass.mii hinits
  obtain ⟨hrx, hconn, hactive, hstate, hok, hio⟩ := hudp.receiveDatagrams
  obtain ⟨hbooks, hactive'', hnext⟩ := InPhase.next hlink hrx (hphase.congr hstate hok hconn hio)
    (d.pass.now 1) d.pass.mii d.pass.udp
  have hworked : Awake (d.worked bus) := by
    refine ⟨hmonitor, ?_, ?_, ?_⟩
    · have hview : (d.worked bus).tsMACService.view.active = true := by
        rw [hmac, hactive']
        exact hawake.mac
      exact hview
    · rw [hservice, (hrx.process d.pass.udp).2.2.1, hactive]
      exact hawake.udp
    · rw [hinit]
      exact hawake.init
  obtain ⟨slPoll, hdeliver, hslPoll⟩ := deliver_net bus _ hsys hworked
  obtain ⟨hsame, hsamePoll⟩ := foldl_initIo hnos
    ((d.tsMACService.view.next (d.pass.now 1) d.pass.mii).2.foldl udpAfter
      (d.worked bus).tsUDPService)
    ((d.tsMACService.view.next (d.pass.now 1) d.pass.mii).2.foldl pollAfter d.slPoll.state)
  rw [hideal]
  refine ⟨(List.length_map _).trans_le hroom, ?_⟩
  rw [hdeliver, List.foldl_append, hsame]
  rw [hpoll, List.foldl_append, hsamePoll] at hslPoll
  refine ⟨⟨hmonitor, hworked.mac, ?_, hworked.init⟩, ?_,
    ⟨d.tsMACService.view.nextLink (d.pass.now 1) d.pass.mii l, ?_⟩, ?_, ?_⟩
  · rw [hservice, hactive'', hactive]
    exact hawake.udp
  · rw [hservice]
    exact hbooks
  · rw [hmac]
    exact hlink.next (d.pass.now 1) d.pass.mii
  · rw [hmac]
    exact hinits'
  · rw [hmac, hservice, hslPoll]
    exact hnext

/-! ## The start -/

/-- What holds while `TTaskInit` works: the other tasks are as they were at first. -/
structure Booting (d : Concentrator τ) : Prop where
  init : d.tsInit.active = true ∧ (d.tsInit.state = 0 ∨ d.tsInit.state = 2 ∨ d.tsInit.state = 3)
  monitor : d.tsMonitor.active = false
  mac : d.tsMACService = ⟨⟨false, .kStIdle, 0, 0, 0, false, []⟩, staticEmac⟩
  udp : d.tsUDPService.active = false ∧ d.tsUDPService.inits = [] ∧
    d.tsUDPService.io.inited = false ∧ d.tsUDPService.connected = false ∧
    d.tsUDPService.state = .kStIdle
  poll : d.slPoll.state = .kStIdle

/-- Only `TTaskInit` has a turn while it works. -/
theorem idealTasks_booting (h : Booting d) :
    (tasks bus).idealTasks d = (d.initProcess (d.pass.now 3)).ideal := by
  have hmonitor : ¬ (tasks bus).isActive 0 d := by
    change ¬ d.tsMonitor.active = true
    simp [h.monitor]
  have hmac : ¬ (tasks bus).isActive 1 d := by
    change ¬ d.tsMACService.task.active = true
    simp [h.mac]
  have hudp : ¬ (tasks bus).isActive 2 d := by
    change ¬ d.tsUDPService.active = true
    simp [h.udp.1]
  have hfrom : (tasks bus).idealTasks d = (tasks bus).idealFrom 0 4 d := rfl
  rw [hfrom, Tasks.idealFrom_skip hmonitor, Tasks.idealFrom_skip hmac, Tasks.idealFrom_skip hudp,
    Tasks.idealFrom_active h.init.1 rfl]
  simp [Tasks.idealFrom]
  rfl

variable (d) in
/-- The concentrator when `TTaskInit` has activated the other tasks. -/
def activated (now : UInt32) : Concentrator τ :=
  { d with
    tsMonitor := { d.tsMonitor with active := true }
    tsMACService := { d.tsMACService with task := d.tsMACService.task.activate now }
    tsUDPService := d.tsUDPService.activate
    tsInit := { d.tsInit with active := false } }

/-- The message that `TTaskMonitor` sends when it is activated. -/
def sysInit : TCMessage := TCMessage.new grpSystem msgSysInit.toInt32 0 0

theorem initProcess_last (h : Booting d) (hstate : d.tsInit.state = 3) (now : UInt32) :
    (d.initProcess now).ideal = (d.activated now, [sysInit]) := by
  simp [initProcess, hstate, activateMac, activateUdp, activateMonitor, h.mac, h.udp.1, h.monitor,
    Code.map, Code.ideal, activated, sysInit]

/-- The tasks begin their work with the message `msgSysInit`. -/
theorem activated_running (h : Booting d) (now : UInt32) :
    Running ((d.activated now).handled sysInit) := by
  obtain ⟨-, -, hmac, hudp, hpoll⟩ := h
  obtain ⟨-, hinits, hinited, -, -⟩ := hudp
  have hhandled : (d.activated now).handled sysInit = { d.activated now with
      slPoll := slaveDataInit d.slPoll
      tsMACService := ⟨⟨true, .kStInitStart, now, now, now, false, []⟩, staticEmac⟩ } := by
    unfold handled monitorHandleEvent activated
    rw [hmac]
    rfl
  rw [hhandled]
  refine ⟨⟨rfl, rfl, rfl, rfl⟩, ⟨⟨0, hinits⟩, hinited, trivial⟩,
    ⟨.init, staticEmac_follows, rfl⟩, rfl, rfl, rfl, rfl, hpoll⟩

variable (bus) in
/-- **A pass while `TTaskInit` works**: it goes on, or it activates the other tasks, which have the
message `msgSysInit` before the pass is over. -/
theorem Booting.pass (h : Booting d) :
    ((tasks bus).idealTasks d).2.length ≤ messageQueueSize ∧
      (Booting (((tasks bus).idealTasks d).2.foldl (fun d msg => (tasks bus).deliver msg d)
          ((tasks bus).idealTasks d).1) ∨
        Running (((tasks bus).idealTasks d).2.foldl (fun d msg => (tasks bus).deliver msg d)
          ((tasks bus).idealTasks d).1)) := by
  rw [idealTasks_booting h]
  obtain ⟨⟨hactive, hstate⟩, hmonitor, hmac, hudp, hpoll⟩ := h
  rcases hstate with hstate | hstate | hstate
  · simp only [initProcess, hstate]
    exact ⟨Nat.zero_le _, .inl ⟨⟨hactive, .inr (.inl rfl)⟩, hmonitor, hmac, hudp, hpoll⟩⟩
  · simp only [initProcess, hstate]
    exact ⟨Nat.zero_le _, .inl ⟨⟨hactive, .inr (.inr rfl)⟩, hmonitor, hmac, hudp, hpoll⟩⟩
  · have hbooting : Booting d := ⟨⟨hactive, .inr (.inr hstate)⟩, hmonitor, hmac, hudp, hpoll⟩
    rw [initProcess_last hbooting hstate]
    refine ⟨Nat.succ_le_succ (Nat.zero_le _), .inr ?_⟩
    have hawake : Awake (d.activated (d.pass.now 3)) := ⟨rfl, rfl, rfl, rfl⟩
    rw [List.foldl_cons, List.foldl_nil, deliver_awake hawake (.inr rfl) rfl]
    exact activated_running hbooting _

/-! ## The main loop -/

/-- What holds between two passes of the main loop: no message is under way, none has been refused,
and `TTaskInit` is at work or the other tasks are. -/
structure Calm (s : TSupervisor (Concentrator τ)) : Prop where
  empty : s.msgQueue.toList = []
  room : s.msgQueue.msgBufferSize = messageQueueSize
  refused : refused s.log = []
  tasks : Booting s.app ∨ Running s.app

theorem booting_halProcess (h : Booting d) (e : Pass τ) : Booting (d.halProcess e) := by
  obtain ⟨slPoll, master, buffers, hframe, hstate⟩ := d.halProcess_frame e
  rw [hframe]
  exact ⟨h.init, h.monitor, h.mac, h.udp, hstate.trans h.poll⟩

theorem running_halProcess (h : Running d) (e : Pass τ) : Running (d.halProcess e) := by
  obtain ⟨slPoll, master, buffers, hframe, hstate⟩ := d.halProcess_frame e
  have hphase := h.phase
  rw [← hstate] at hphase
  rw [hframe]
  exact ⟨⟨h.awake.monitor, h.awake.mac, h.awake.udp, h.awake.init⟩, h.udp, h.link, h.inits, hphase⟩

variable (bus) in
/-- **A pass of the main loop.** -/
theorem loop_ok {s : TSupervisor (Concentrator τ)} (h : Calm s) (e : Pass τ) :
    ∃ s', loop bus s e = some s' ∧ Calm s' := by
  obtain ⟨hempty, hroom, hrefused, htasks⟩ := h
  have hpass : ((Concentrator.tasks bus).idealTasks (s.app.halProcess e)).2.length ≤
        messageQueueSize ∧
      (Booting (((Concentrator.tasks bus).idealTasks (s.app.halProcess e)).2.foldl
          (fun d msg => (Concentrator.tasks bus).deliver msg d)
          ((Concentrator.tasks bus).idealTasks (s.app.halProcess e)).1) ∨
        Running (((Concentrator.tasks bus).idealTasks (s.app.halProcess e)).2.foldl
          (fun d msg => (Concentrator.tasks bus).deliver msg d)
          ((Concentrator.tasks bus).idealTasks (s.app.halProcess e)).1)) := by
    rcases htasks with h | h
    · exact (booting_halProcess h e).pass bus
    · obtain ⟨hlen, hrun⟩ := (running_halProcess h e).pass bus
      exact ⟨hlen, .inr hrun⟩
  obtain ⟨s', hs', hempty', hroom', happ, hlog⟩ := pass_ideal (tasks_quiet bus)
    (s := { s with app := s.app.halProcess e }) hempty (hroom ▸ hpass.1)
  refine ⟨s', ?_, hempty', hroom'.trans hroom, hlog.trans hrefused, ?_⟩
  · rw [loop, ← hs']
    congr 1
    exact hroom.symm
  · rw [happ]
    exact hpass.2

variable (bus) in
/-- **A run of the main loop.** -/
theorem run_ok {s : TSupervisor (Concentrator τ)} (h : Calm s) (es : List (Pass τ)) :
    ∃ s', es.foldlM (loop bus) s = some s' ∧ Calm s' := by
  induction es generalizing s with
  | nil => exact ⟨s, rfl, h⟩
  | cons e es ih =>
    obtain ⟨s', hs', hcalm⟩ := loop_ok bus h e
    rw [List.foldlM_cons, hs']
    exact ih hcalm

/-- The log after a pass of the main loop. -/
theorem loop_logOk {s s' : TSupervisor (Concentrator τ)} (h : s.Ok (tasks bus)) {e : Pass τ}
    (hs : loop bus s e = some s') : s'.Ok (tasks bus) := by
  have hpass : TSupervisor.Ok (tasks bus) { s with app := s.app.halProcess e } := h
  exact ((hpass.processTasksFrom 0 (tasks bus).numTasks).processMessages hs).1

section Start

variable (bus : LocalBus τ) (pass : Pass τ) (now : UInt32) (master : TMasterTx τ) (memory : Mem)
  (raw : ℕ) (cells : ℕ → UdpData) (blocks : ℕ → TDataBuffer) (messageBuffer : ℕ → TCMessage)

theorem start_calm : Calm (start pass now master memory raw cells blocks messageBuffer) :=
  ⟨rfl, rfl, rfl, .inl ⟨⟨rfl, .inl rfl⟩, rfl, rfl, ⟨rfl, rfl, rfl, rfl, rfl⟩, rfl⟩⟩

/-- **No message is lost**: whatever the passes of the main loop meet, `sendMessage` never refuses a
message, and every pass comes to an end with no message in the queue: all that was accepted has been
taken, each message once and in order, and has been handed round. -/
theorem no_message_lost (es : List (Pass τ)) :
    ∃ s, es.foldlM (loop bus) (start pass now master memory raw cells blocks messageBuffer) =
        some s ∧ s.msgQueue.toList = [] ∧ Supervisor.refused s.log = [] ∧
      dispatched s.log = accepted s.log ∧
      ∀ msg turns, Entry.dispatch msg turns ∈ s.log →
        msg.discard = false ∧ Handed (tasks bus) 0 (tasks bus).numTasks msg turns := by
  obtain ⟨s, hs, hcalm⟩ := run_ok bus
    (start_calm pass now master memory raw cells blocks messageBuffer) es
  have hlog : s.Ok (tasks bus) := foldlM_keeps (I := TSupervisor.Ok (tasks bus))
    (fun _ _ _ h hs => loop_logOk h hs) (TSupervisor.ok_init _ _ (by decide)) hs
  have hall : accepted s.log = dispatched s.log := by
    rw [hlog.queued_eq, hcalm.empty, List.append_nil]
  refine ⟨s, hs, hcalm.empty, hcalm.refused, hall.symm, fun msg turns hmem => ?_⟩
  obtain ⟨pre, post, heq⟩ := List.append_of_mem hmem
  have hpre : pre ++ [Entry.dispatch msg turns] <+: s.log := ⟨post, by simp [heq]⟩
  exact (hlog.taken pre msg turns hpre).2

/-- The tasks agree on the network: the task of the datagrams knows of a connection, and the polling
of the slaves is started, exactly when the task of the link has said so; datagrams are worked off
only with a connection and after a successful initialisation; and with a connection the task of the
datagrams rests only when `udp_io::init` has been called and has failed every time. -/
structure InStep (d : Concentrator τ) : Prop where
  connected : d.tsUDPService.connected = d.tsMACService.task.connected
  polling : d.slPoll.state = .kStStart ↔ d.tsMACService.task.connected = true
  working : d.tsUDPService.state = .kStProcess ∨ d.tsUDPService.state = .kStProcessRx ∨
    d.tsUDPService.state = .kStProcessTx →
      d.tsMACService.task.connected = true ∧ d.tsUDPService.io.inited = true
  resting : d.tsMACService.task.connected = true → d.tsUDPService.state = .kStIdle →
    d.tsUDPService.io.inited = false ∧
      ∃ k, d.tsUDPService.inits = List.replicate (k + 1) false

theorem InStep.of_booting (h : Booting d) : InStep d := by
  obtain ⟨-, -, hmac, ⟨-, -, -, hconn, hidle⟩, hpoll⟩ := h
  have hoff : d.tsMACService.task.connected = false := by rw [hmac]
  refine ⟨hconn.trans hoff.symm, ?_, fun h => ?_, fun h => ?_⟩
  · simp [hpoll, hoff]
  · simp [hidle] at h
  · simp [hoff] at h

theorem InStep.of_running (h : Running d) : InStep d := by
  obtain ⟨-, hudp, ⟨l, hlink⟩, -, hphase⟩ := h
  have hlinkState := hlink.state
  have hudpState := hudp.state
  have hconn : d.tsMACService.view.connected = d.tsMACService.task.connected := rfl
  rw [hconn] at hlinkState
  cases hs : d.tsMACService.view.state with
  | kStIdle | kStError | kStInitWaitTimeout =>
    rw [hs] at hphase
    exact hphase.elim
  | kStInitStart | kStInitWait | kStInitComplete =>
    rw [hs] at hphase
    obtain ⟨hidle, -, hoff, hpoll⟩ := hphase
    have hmac : d.tsMACService.task.connected = false := by simp_all
    refine ⟨hoff.trans hmac.symm, ?_, fun h => ?_, fun h => ?_⟩
    · simp [hpoll, hmac]
    · simp [hidle] at h
    · simp [hmac] at h
  | kStControlLinkStatus | kStLinkOff =>
    rw [hs] at hphase
    obtain ⟨hon, hrest, hpoll⟩ := hphase
    have hmac : d.tsMACService.task.connected = true := by simp_all
    refine ⟨hon.trans hmac.symm, ?_, fun h => ⟨hmac, hudp.inited.trans ?_⟩, fun _ h =>
      ⟨hudp.inited.trans (hudp.not_ok (hrest h)), hrest h⟩⟩
    · simp [hpoll, hmac]
    · rcases h with h | h | h <;> simpa [h] using hudpState
  | kStLinkWait =>
    rw [hs] at hphase
    obtain ⟨hoff, hidle, hpoll⟩ := hphase
    have hmac : d.tsMACService.task.connected = false := by simp_all
    refine ⟨hoff.trans hmac.symm, ?_, fun h => ?_, fun h => ?_⟩
    · simp [hpoll, hmac]
    · simp [hidle] at h
    · simp [hmac] at h

/-- **The tasks are in step**: between any two passes of the main loop, whatever the passes meet,
the tasks agree on the network. -/
theorem network_in_step (es : List (Pass τ)) :
    ∃ s, es.foldlM (loop bus) (start pass now master memory raw cells blocks messageBuffer) =
        some s ∧ InStep s.app := by
  obtain ⟨s, hs, hcalm⟩ := run_ok bus
    (start_calm pass now master memory raw cells blocks messageBuffer) es
  exact ⟨s, hs, hcalm.tasks.elim .of_booting .of_running⟩

/-- **The network is set up once**: in every run `emac_app::init` is called at most once, and
`udp_io::init` is called again only while it has failed each time. -/
theorem initialised_once (es : List (Pass τ)) :
    ∃ s, es.foldlM (loop bus) (start pass now master memory raw cells blocks messageBuffer) =
        some s ∧ s.app.tsMACService.task.emac.count .init ≤ 1 ∧
      ∃ k, s.app.tsUDPService.inits =
        List.replicate k false ++ if s.app.tsUDPService.io.inited then [true] else [] := by
  obtain ⟨s, hs, hcalm⟩ := run_ok bus
    (start_calm pass now master memory raw cells blocks messageBuffer) es
  refine ⟨s, hs, ?_⟩
  rcases hcalm.tasks with h | h
  · obtain ⟨-, hinits, hinited, -⟩ := h.udp
    rw [h.mac, hinits, hinited]
    exact ⟨Nat.zero_le 1, 0, rfl⟩
  · have hinits : s.app.tsMACService.task.emac.count .init =
        if s.app.tsMACService.view.state = .kStInitStart then 0 else 1 := h.inits
    rw [hinits, h.udp.inited]
    refine ⟨?_, h.udp.once⟩
    split_ifs <;> decide

end Start

end Concentrator

end KS3.Supervisor
