import KS3.Foundations.Run
import KS3.Comm.TQueue

/-!
# `TSupervisor`: tasks and their messages

The supervisor calls its tasks in the order of a table: `processTasks` lets each active task work,
and `processMessages` takes the messages of one queue and hands each to the active tasks whose event
mask meets the group of the message, until a handler sets `discard`. A message stays at the head of
the queue while it is handed round, and the handlers send new messages at the same time.

What the methods of the tasks do is a parameter: a piece of `Code` that calls `sendMessage` as often
as it likes and goes on with what each call returns, on a state that all tasks share. The flags
`active` are part of that state, so that a handler activates and deactivates tasks. The model keeps
a log of the messages sent and of the rounds of `processMessages`.
-/

namespace KS3.Supervisor

open Comm

/-! ## Messages and tasks -/

/-- `TCMessage`. -/
structure TCMessage where
  msgGroup : UInt32
  param1 : Int32
  param2 : Int32
  msgNo : Int16
  discard : Bool
  deriving DecidableEq, Inhabited

/-- The constructor of `TCMessage` that `sendMessage` uses. Its parameter `no` is a `short`. -/
def TCMessage.new (g : UInt32) (no : Int32) (p1 p2 : Int32) : TCMessage :=
  ⟨g, p1, p2, no.toInt16, false⟩

/-- A method of a task: it returns, or it calls `sendMessage` and goes on with the result. -/
inductive Code (α : Type*)
  | ret (a : α)
  | sendMessage (msgGroup : UInt32) (msgNo param1 param2 : Int32) (next : Bool → Code α)

/-- The table of tasks, with the state `σ` they share. `handleEvent` may change the message it is
given. The index of the table is a `short`. -/
structure Tasks (σ : Type*) where
  numTasks : ℕ
  numTasks_lt : numTasks < 2 ^ 15
  eventMask : ℕ → UInt32
  isActive : ℕ → σ → Bool
  handleEvent : ℕ → TCMessage → σ → Code (TCMessage × σ)
  process : ℕ → σ → Code σ

/-- A message for which `sendMessage` was called, and what it returned. -/
structure Sent where
  msg : TCMessage
  rc : Bool
  deriving DecidableEq

/-- The turn of a task in a round of `processMessages`: the message and the state before and after
it, whether `handleEvent` was called, and the messages sent from there. -/
structure Turn (σ : Type*) where
  task : ℕ
  before : TCMessage × σ
  handled : Bool
  sent : List Sent
  after : TCMessage × σ

/-- What the log says: a message sent from outside `processMessages`, or a round with the message
it took from the queue. -/
inductive Entry (σ : Type*)
  | sent (s : Sent)
  | dispatch (msg : TCMessage) (turns : List (Turn σ))

/-- The data member `msgQueue` of `TSupervisor`, the state of the tasks and the log. -/
structure TSupervisor (σ : Type*) where
  msgQueue : TQueue TCMessage
  app : σ
  log : List (Entry σ)

/-! ## Sending -/

/-- `sendMessage`, with the message made. -/
def sendMessage (q : TQueue TCMessage) (msg : TCMessage) : Bool × TQueue TCMessage :=
  if !q.isFull then (true, q.push msg) else (false, q)

/-- The outcome of a method: what it returns, the messages it sent and the queue after it. -/
structure Ran (α : Type*) where
  value : α
  sent : List Sent
  msgQueue : TQueue TCMessage

/-- A method runs. -/
def Code.run {α : Type*} : Code α → TQueue TCMessage → Ran α
  | .ret a, q => ⟨a, [], q⟩
  | .sendMessage g no p1 p2 next, q =>
    let msg := TCMessage.new g no p1 p2
    let (rc, q) := KS3.Supervisor.sendMessage q msg
    let ran := (next rc).run q
    { ran with sent := ⟨msg, rc⟩ :: ran.sent }

/-- A method that goes on with a computation on what another one returns. -/
def Code.map {α β : Type*} (f : α → β) : Code α → Code β
  | .ret a => .ret (f a)
  | .sendMessage g no p1 p2 next => .sendMessage g no p1 p2 fun rc => (next rc).map f

theorem Code.run_map {α β : Type*} (f : α → β) (c : Code α) (q : TQueue TCMessage) :
    (c.map f).run q = ⟨f (c.run q).value, (c.run q).sent, (c.run q).msgQueue⟩ := by
  induction c generalizing q with
  | ret a => rfl
  | sendMessage g no p1 p2 next ih => simp only [Code.map, Code.run, ih]

/-! ## The supervisor -/

section Supervisor

variable {σ : Type*} (t : Tasks σ)

/-- A task is to handle a message in a state. -/
def Tasks.Wants (i : ℕ) (msg : TCMessage) (app : σ) : Prop :=
  t.isActive i app ∧ t.eventMask i &&& msg.msgGroup ≠ 0

instance (i : ℕ) (msg : TCMessage) (app : σ) : Decidable (t.Wants i msg app) :=
  inferInstanceAs (Decidable (_ ∧ _))

/-- The body of the loop over the tasks: the turn of task `i`, and the queue after it. -/
def Tasks.turn (i : ℕ) (msg : TCMessage) (app : σ) (q : TQueue TCMessage) :
    Turn σ × TQueue TCMessage :=
  if t.Wants i msg app then
    let ran := (t.handleEvent i msg app).run q
    (⟨i, (msg, app), true, ran.sent, ran.value⟩, ran.msgQueue)
  else
    (⟨i, (msg, app), false, [], (msg, app)⟩, q)

/-- The loop over the tasks from task `i` on, of which `k` are left: the turns, the state of the
tasks and the queue after them. -/
def Tasks.forTasks (i : ℕ) : ℕ → TCMessage → σ → TQueue TCMessage →
    List (Turn σ) × σ × TQueue TCMessage
  | 0, _, app, q => ([], app, q)
  | k + 1, msg, app, q =>
    if !msg.discard then
      let (turn, q) := t.turn i msg app q
      let (turns, rest) := Tasks.forTasks (i + 1) k turn.after.1 turn.after.2 q
      (turn :: turns, rest)
    else
      ([], app, q)

namespace TSupervisor

/-- The supervisor after construction. -/
def init (app : σ) (messageBuffer : ℕ → TCMessage) (messagesQueueSize : ℕ)
    (h : 0 < messagesQueueSize) : TSupervisor σ :=
  ⟨TQueue.init messageBuffer messagesQueueSize h, app, []⟩

/-- One round of the loop of `processMessages`, if the queue is not empty. -/
def round (s : TSupervisor σ) : TSupervisor σ :=
  match s.msgQueue.front with
  | none => s
  | some msg =>
    let (turns, app, q) := t.forTasks 0 t.numTasks msg s.app s.msgQueue
    ⟨q.pop, app, s.log ++ [.dispatch msg turns]⟩

/-- `processMessages`; the loop need not end, and `none` is the outcome when the given number of
rounds does not suffice. -/
def processMessages : ℕ → TSupervisor σ → Option (TSupervisor σ)
  | 0, s => if s.msgQueue.isEmpty then some s else none
  | rounds + 1, s => if s.msgQueue.isEmpty then some s else processMessages rounds (s.round t)

/-- The loop of `processTasks` from task `i` on, of which `k` are left. -/
def processTasksFrom (i : ℕ) : ℕ → TSupervisor σ → TSupervisor σ
  | 0, s => s
  | k + 1, s =>
    if t.isActive i s.app then
      let ran := (t.process i s.app).run s.msgQueue
      processTasksFrom (i + 1) k ⟨ran.msgQueue, ran.value, s.log ++ ran.sent.map .sent⟩
    else
      processTasksFrom (i + 1) k s

/-- `processTasks`. -/
def processTasks (s : TSupervisor σ) : TSupervisor σ := s.processTasksFrom t 0 t.numTasks

/-- What happens to the supervisor: a message is sent from outside the tasks, something else
changes their state, `processTasks` is called, or `processMessages` does a round. -/
inductive Event (σ : Type*)
  | sendMessage (msgGroup : UInt32) (msgNo param1 param2 : Int32)
  | app (app : σ)
  | processTasks
  | round

/-- One event. -/
def step (s : TSupervisor σ) : Event σ → TSupervisor σ
  | .sendMessage g no p1 p2 =>
    let msg := TCMessage.new g no p1 p2
    let (rc, q) := sendMessage s.msgQueue msg
    { s with msgQueue := q, log := s.log ++ [.sent ⟨msg, rc⟩] }
  | .app app => { s with app := app }
  | .processTasks => s.processTasks t
  | .round => s.round t

end TSupervisor

end Supervisor

/-! ## Reading the log -/

/-- The messages among those sent for which `sendMessage` returned true. -/
def Sent.accepted (sent : List Sent) : List TCMessage :=
  (sent.filter Sent.rc).map Sent.msg

/-- The messages accepted in an entry of the log, in the order of the calls. -/
def Entry.accepted {σ : Type*} : Entry σ → List TCMessage
  | .sent s => Sent.accepted [s]
  | .dispatch _ turns => turns.flatMap fun turn => Sent.accepted turn.sent

/-- The message an entry takes from the queue. -/
def Entry.dispatched {σ : Type*} : Entry σ → List TCMessage
  | .sent _ => []
  | .dispatch msg _ => [msg]

/-- The messages for which `sendMessage` returned true, in the order of the calls. -/
def accepted {σ : Type*} (log : List (Entry σ)) : List TCMessage := log.flatMap Entry.accepted

/-- The messages taken from the queue, in order. -/
def dispatched {σ : Type*} (log : List (Entry σ)) : List TCMessage :=
  log.flatMap Entry.dispatched

end KS3.Supervisor
