import KS3.Hal.Ticks
import KS3.Supervisor.TSupervisor

/-!
# `TTaskMAC_Service`: the Ethernet link

The task that starts the Ethernet interface, waits for the link and then watches it. Its state
machine runs once per tick; in the states that depend on the link it works only every
`TM_MAC_CONTROL_LINK` ticks. Both this period and the timeout of the initialisation are measured
with the member `timer`: when the period has run out the timer is set to the current tick, and the
timeout is tested right after that, on a timer that is zero ticks old. So the timeout never runs
out (`process_kStInitWait`).

* `initWait_iff`: from every start, the states of a run keep to the timeout exactly when the run is
  too short to exceed it; the task waits for ever.
-/

namespace KS3.Supervisor

open Comm Protocol

/-! ## The task -/

/-- `TM_MAC_INIT_TIMEOUT`. -/
def tmMacInitTimeout : UInt32 := 8000

/-- `TM_MAC_CONTROL_LINK`. -/
def tmMacControlLink : UInt32 := 20

/-- `TM_MAC_TIMERS`. -/
def tmMacTimers : UInt32 := 10

/-- `grpNet`. -/
def grpNet : UInt32 := 0x200

/-- `msgSysInit`. -/
def msgSysInit : Int16 := 1101

/-- `msgNetInitStart`. -/
def msgNetInitStart : Int32 := 1200

/-- `msgNetInitOk`. -/
def msgNetInitOk : Int32 := 1201

/-- `msgNetConnected`. -/
def msgNetConnected : Int32 := 1203

/-- `msgNetDisconnected`. -/
def msgNetDisconnected : Int32 := 1204

/-- `msgNetError`. -/
def msgNetError : Int32 := 1205

/-- The states of the task. -/
inductive MacState
  | kStIdle
  | kStError
  | kStInitStart
  | kStInitWait
  | kStInitWaitTimeout
  | kStInitComplete
  | kStControlLinkStatus
  | kStLinkOff
  | kStLinkWait
  deriving DecidableEq

/-- The functions of `emac_app` that the task calls for their effect. -/
inductive EmacCall
  | process
  | processTimers
  | processLinkStatus
  | setMacAddress
  | setIpAddress
  | init
  deriving DecidableEq

/-- The data members of `TTaskMAC_Service` and of its base, with the calls of `emac_app` so far. -/
structure TTaskMACService where
  active : Bool
  state : MacState
  timer : UInt32
  timer2 : UInt32
  timer3 : UInt32
  connected : Bool
  emac : List EmacCall

namespace TTaskMACService

/-- A call of `emac_app`. -/
def call (t : TTaskMACService) (c : EmacCall) : TTaskMACService := { t with emac := t.emac ++ [c] }

/-- `activate`. -/
def activate (now : UInt32) (t : TTaskMACService) : TTaskMACService :=
  { t with
    active := true, connected := false, timer := now, timer2 := now, timer3 := now
    state := .kStIdle }

/-- `handleEvent`. -/
def handleEvent (msg : TCMessage) (t : TTaskMACService) : TTaskMACService :=
  if msg.msgNo = msgSysInit then { t with state := .kStInitStart } else t

/-- The start of `process`: the network stack works while there is a link. -/
def serveStack (now : UInt32) (t : TTaskMACService) : TTaskMACService :=
  if t.state = .kStControlLinkStatus then
    let t := t.call .process
    if TMasterTx.TimedOut t.timer3 now tmMacTimers then
      { t.call .processTimers with timer3 := now }
    else
      t
  else
    t

/-- The first `switch` of `process`; nothing when `process` returns there. -/
def controlLink (now : UInt32) (t : TTaskMACService) : Option TTaskMACService :=
  match t.state with
  | .kStInitWait | .kStControlLinkStatus | .kStLinkWait =>
    if TMasterTx.TimedOut t.timer now tmMacControlLink then
      some { t.call .processLinkStatus with timer := now }
    else
      none
  | _ => some t

/-- The second `switch` of `process`. `linkStatus` is what `getLinkStatus` returns. -/
def transition (now linkStatus : UInt32) (t : TTaskMACService) : Code TTaskMACService :=
  match t.state with
  | .kStIdle => .ret t
  | .kStInitStart =>
    .sendMessage grpNet msgNetInitStart 0 0 fun _ =>
      .ret { ((t.call .setMacAddress).call .setIpAddress).call .init with
        state := .kStInitWait, timer := now }
  | .kStInitWait =>
    if linkStatus ≠ 0 then
      .ret { t with state := .kStInitComplete }
    else if TMasterTx.TimedOut t.timer now tmMacInitTimeout then
      .ret { t with state := .kStInitWaitTimeout }
    else
      .ret t
  | .kStInitWaitTimeout => .ret { t with state := .kStInitStart }
  | .kStInitComplete =>
    .sendMessage grpNet msgNetInitOk 0 0 fun _ =>
      .sendMessage grpNet msgNetConnected 0 0 fun _ =>
        .ret { t with connected := true, state := .kStControlLinkStatus, timer := now }
  | .kStControlLinkStatus =>
    if linkStatus = 0 then .ret { t with state := .kStLinkOff } else .ret t
  | .kStLinkOff =>
    .sendMessage grpNet msgNetDisconnected 0 0 fun _ =>
      .ret { t with connected := false, state := .kStLinkWait, timer := now }
  | .kStLinkWait =>
    if linkStatus ≠ 0 then
      .sendMessage grpNet msgNetConnected 0 0 fun _ =>
        .ret { t with connected := true, state := .kStControlLinkStatus }
    else
      .ret t
  | .kStError => .sendMessage grpNet msgNetError 0 0 fun _ => .ret { t with state := .kStIdle }

/-- `process`. -/
def process (now linkStatus : UInt32) (t : TTaskMACService) : Code TTaskMACService :=
  let t := t.serveStack now
  if t.timer2 = now then
    .ret t
  else
    let t := { t with timer2 := now }
    match t.controlLink now with
    | none => .ret t
    | some t => t.transition now linkStatus

/-! ## Waiting for the link -/

/-- The timeout of the initialisation has not run out on a timer that has just been set. -/
theorem not_timedOut_self (now : UInt32) : ¬ TMasterTx.TimedOut now now tmMacInitTimeout := by
  rw [TMasterTx.TimedOut, Hal.difftime, if_pos (UInt32.le_refl now), UInt32.sub_self]
  decide

section Waiting

variable {t : TTaskMACService} {now : UInt32} (q : TQueue TCMessage)

/-- Nothing happens twice in a tick. -/
theorem process_kStInitStart_again (hstate : t.state = .kStInitStart) (hnow : t.timer2 = now) :
    ((t.process now 0).run q).value = t := by
  simp only [process, serveStack, hstate, reduceCtorEq, if_false, hnow, if_true, Code.run]

/-- The start of the initialisation. -/
theorem process_kStInitStart (hstate : t.state = .kStInitStart) (hnow : t.timer2 ≠ now) :
    ((t.process now 0).run q).value.state = .kStInitWait ∧
      ((t.process now 0).run q).value.timer2 = now := by
  simp only [process, serveStack, hstate, reduceCtorEq, if_false, hnow, controlLink, transition,
    call, Code.run, and_self]

/-- **Without a link the task goes on waiting**: the timeout is tested on a timer that was set in
the same call. -/
theorem process_kStInitWait (hstate : t.state = .kStInitWait) (hnow : t.timer2 ≠ now) :
    ((t.process now 0).run q).value.state = .kStInitWait ∧
      ((t.process now 0).run q).value.timer2 = now := by
  by_cases hcontrol : TMasterTx.TimedOut t.timer now tmMacControlLink
  · simp only [process, serveStack, hstate, reduceCtorEq, if_false, hnow, controlLink, hcontrol,
      if_true, transition, call, ne_eq, not_true, not_timedOut_self, Code.run, and_self]
  · simp only [process, serveStack, hstate, reduceCtorEq, if_false, hnow, controlLink, hcontrol,
      Code.run, and_self]

end Waiting

end TTaskMACService

/-! ## Runs without a link -/

/-- The task, called once at every tick while there is no link: the tick of the next call, the
number of calls so far and the call that last entered `kStInitWait`. -/
structure MacWatch where
  task : TTaskMACService
  now : UInt32
  calls : ℕ
  entered : Option ℕ

namespace MacWatch

/-- The call at a tick, with the message queue it meets. -/
def step (w : MacWatch) (q : TQueue TCMessage) : MacWatch :=
  let task := ((w.task.process w.now 0).run q).value
  { task := task
    now := w.now + 1
    calls := w.calls + 1
    entered :=
      if task.state = .kStInitWait ∧ w.task.state ≠ .kStInitWait then some w.calls
      else w.entered }

/-- The task before its first call, at tick `now`. -/
def init (task : TTaskMACService) (now : UInt32) : MacWatch := ⟨task, now, 0, none⟩

/-- If the task waits for the initialisation, at most `TM_MAC_INIT_TIMEOUT + TM_MAC_CONTROL_LINK`
ticks lie between the call that entered `kStInitWait` and the last call. -/
def InTime (w : MacWatch) : Prop :=
  w.task.state = .kStInitWait →
    ∀ e ∈ w.entered, w.calls - 1 - e ≤ (tmMacInitTimeout + tmMacControlLink).toNat

instance (w : MacWatch) : Decidable w.InTime :=
  inferInstanceAs (Decidable (_ → ∀ e ∈ w.entered, _))

/-- The task has entered `kStInitWait` with call `e` and has been called in the last tick. -/
def Waits (e : ℕ) (w : MacWatch) : Prop :=
  w.task.state = .kStInitWait ∧ w.task.timer2 + 1 = w.now ∧ w.entered = some e

theorem add_one_ne (x : UInt32) : x ≠ x + 1 := by
  intro h
  have hnat := congrArg UInt32.toNat h
  have hlt := x.toNat_lt
  rw [UInt32.toNat_add, UInt32.toNat_one] at hnat
  omega

/-- **A call leaves the task waiting.** -/
theorem Waits.step {e : ℕ} {w : MacWatch} (h : w.Waits e) (q : TQueue TCMessage) :
    (w.step q).Waits e := by
  obtain ⟨hstate, htimer, hentered⟩ := h
  have hnow : w.task.timer2 ≠ w.now := htimer ▸ add_one_ne _
  obtain ⟨hstate', htimer'⟩ := TTaskMACService.process_kStInitWait q hstate hnow
  refine ⟨hstate', ?_, ?_⟩
  · exact congrArg (· + 1) htimer'
  · rw [MacWatch.step, if_neg fun h => h.2 hstate, hentered]

theorem calls_final (w : MacWatch) (qs : List (TQueue TCMessage)) :
    (Run.final step w qs).calls = w.calls + qs.length := by
  induction qs generalizing w with
  | nil => rfl
  | cons q qs ih =>
    rw [Run.final_cons, ih, List.length_cons]
    simp only [MacWatch.step]
    omega

/-- The call that enters `kStInitWait`: the first one, or the second one when the task has already
been called in the tick of the first one. -/
def entering (task : TTaskMACService) (now : UInt32) : ℕ := if task.timer2 = now then 1 else 0

/-- The call that starts the initialisation enters `kStInitWait`. -/
theorem waits_step {w : MacWatch} (hstart : w.task.state = .kStInitStart)
    (hnow : w.task.timer2 ≠ w.now) (q : TQueue TCMessage) : (w.step q).Waits w.calls := by
  obtain ⟨hstate, htimer⟩ := TTaskMACService.process_kStInitStart q hstart hnow
  refine ⟨hstate, ?_, ?_⟩
  · exact congrArg (· + 1) htimer
  · rw [MacWatch.step, if_pos ⟨hstate, by rw [hstart]; decide⟩]

/-- A call in the tick of `timer2` leaves the start to the next one. -/
theorem step_again {w : MacWatch} (hstart : w.task.state = .kStInitStart)
    (hnow : w.task.timer2 = w.now) (q : TQueue TCMessage) :
    w.step q = ⟨w.task, w.now + 1, w.calls + 1, w.entered⟩ := by
  have htask := TTaskMACService.process_kStInitStart_again q hstart hnow
  rw [MacWatch.step, htask, if_neg fun h => by simp [hstart] at h]

/-- Before the entering call the task is where it started; from then on it waits. -/
theorem waits_final {task : TTaskMACService} (hstart : task.state = .kStInitStart) (now : UInt32)
    (qs : List (TQueue TCMessage)) :
    (qs.length ≤ entering task now →
      (Run.final step (init task now) qs).task.state = .kStInitStart) ∧
    (entering task now < qs.length →
      (Run.final step (init task now) qs).Waits (entering task now)) := by
  rcases qs with _ | ⟨q, qs⟩
  · exact ⟨fun _ => hstart, fun h => absurd h (Nat.not_lt_zero _)⟩
  unfold entering
  split_ifs with hnow
  · -- the first call is skipped, the second one starts
    rw [Run.final_cons, step_again (w := init task now) hstart hnow]
    rcases qs with _ | ⟨q', qs⟩
    · exact ⟨fun _ => hstart, fun h => absurd h (lt_irrefl 1)⟩
    · refine ⟨fun h => absurd h (by simp), fun _ => ?_⟩
      rw [Run.final_cons]
      have hnext : task.timer2 ≠ now + 1 := hnow ▸ add_one_ne now
      exact Run.always_final (fun _ q h => h.step q) (waits_step hstart hnext q') qs
  · refine ⟨fun h => absurd h (by simp), fun _ => ?_⟩
    exact Run.always_final (fun _ q h => h.step q) (waits_step hstart hnow q) qs

/-- A state of a run keeps to the timeout exactly when the run is that short. -/
theorem inTime_final_iff {task : TTaskMACService} (hstart : task.state = .kStInitStart)
    (now : UInt32) (qs : List (TQueue TCMessage)) :
    (Run.final step (init task now) qs).InTime ↔ qs.length ≤ 8021 + entering task now := by
  have hcalls : (Run.final step (init task now) qs).calls = qs.length :=
    (calls_final _ qs).trans (Nat.zero_add _)
  have hlimit : (tmMacInitTimeout + tmMacControlLink).toNat = 8020 := by decide
  obtain ⟨hbefore, hafter⟩ := waits_final hstart now qs
  rcases Nat.lt_or_ge (entering task now) qs.length with hlt | hle
  · obtain ⟨hstate, -, hentered⟩ := hafter hlt
    refine ⟨fun h => ?_, fun h _ e he => ?_⟩
    · have hwait := h hstate _ hentered
      omega
    · cases Option.some.inj (hentered.symm.trans he)
      omega
  · refine ⟨fun _ => by omega, fun _ h => ?_⟩
    rw [hbefore hle] at h
    cases h

end MacWatch

open MacWatch in
/-- **The initialisation never times out.** Called once at every tick from `kStInitStart` without a
link, from any state of the timers and at any tick, with any messages in the queue: the states of a
run all keep to the timeout exactly when the run has at most 8021 calls, not counting a first one in
the tick of `timer2`; and after the entering call every state is `kStInitWait`. -/
theorem initWait_iff (task : TTaskMACService) (hstart : task.state = .kStInitStart) (now : UInt32)
    (qs : List (TQueue TCMessage)) :
    ((∀ ps, ps <+: qs → (Run.final step (init task now) ps).InTime) ↔
      qs.length ≤ 8021 + if task.timer2 = now then 1 else 0) ∧
    ((if task.timer2 = now then 1 else 0) < qs.length →
      (Run.final step (init task now) qs).task.state = .kStInitWait) := by
  refine ⟨⟨fun h => ?_, fun h ps hps => ?_⟩, fun h => ((waits_final hstart now qs).2 h).1⟩
  · exact (inTime_final_iff hstart now qs).1 (h qs List.prefix_rfl)
  · exact (inTime_final_iff hstart now ps).2 (hps.length_le.trans h)

/-- A task that has been activated at tick 5 and has been sent `msgSysInit`. -/
def startedTask : TTaskMACService :=
  let task : TTaskMACService := ⟨false, .kStIdle, 0, 0, 0, false, []⟩
  (task.activate 5).handleEvent (TCMessage.new 0x10000010 1101 0 0)

/-- A queue without messages. -/
def noMessages : TQueue TCMessage := TQueue.init (fun _ => default) 16 (by decide)

/-- 8021 ticks after the task has entered `kStInitWait` at tick 7, it still waits. -/
theorem initWait_late :
    ¬ (Run.final MacWatch.step (MacWatch.init startedTask 7)
      (List.replicate 8022 noMessages)).InTime := by
  rw [MacWatch.inTime_final_iff rfl, List.length_replicate]
  decide

/-- The calls up to tick 8027. -/
theorem initWait_early :
    startedTask.state = .kStInitStart ∧
      ∀ ps, ps <+: List.replicate 8021 noMessages →
        (Run.final MacWatch.step (MacWatch.init startedTask 7) ps).InTime :=
  ⟨rfl, (initWait_iff startedTask rfl 7 _).1.2 (by rw [List.length_replicate]; decide)⟩

end KS3.Supervisor
