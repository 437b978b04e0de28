import KS3.Supervisor.TSupervisor

/-!
# Tasks whose messages have room

`sendMessage` refuses a message when the queue is full, and `processMessages` need not end when
handlers send messages. Neither happens when handlers send nothing and the messages that the tasks
send in one `processTasks` have room in the queue. Then a pass of the main loop is what it is meant
to be: the tasks work, and each message is handed round once.

`Code.ideal` is a method all of whose messages are accepted, `idealTasks` the tasks working so, and
`deliver` a message being handed round.

* `processTasks_ideal`: with room, `processTasks` is `idealTasks`;
* `processMessages_quiet`: when the handlers are quiet, `processMessages` ends and delivers what is
  in the queue in order;
* `pass_ideal`: both together.
-/

namespace KS3.Supervisor

open Comm

/-! ## Methods -/

/-- What a method returns and the messages it sends when all of them are accepted. -/
def Code.ideal {α : Type*} : Code α → α × List TCMessage
  | .ret a => (a, [])
  | .sendMessage g no p1 p2 next =>
    ((next true).ideal.1, TCMessage.new g no p1 p2 :: (next true).ideal.2)

theorem Code.ideal_map {α β : Type*} (f : α → β) (c : Code α) :
    (c.map f).ideal = (f c.ideal.1, c.ideal.2) := by
  induction c with
  | ret a => rfl
  | sendMessage g no p1 p2 next ih => simp only [Code.map, Code.ideal, ih]

/-- A message that was accepted. -/
def Sent.ok (msg : TCMessage) : Sent := ⟨msg, true⟩

/-- **With room for its messages**, a method has all of them accepted. -/
theorem Code.run_ideal {α : Type*} (c : Code α) {q : TQueue TCMessage}
    (h : q.size + c.ideal.2.length ≤ q.msgBufferSize) :
    (c.run q).value = c.ideal.1 ∧ (c.run q).sent = c.ideal.2.map Sent.ok ∧
      (c.run q).msgQueue.toList = q.toList ++ c.ideal.2 ∧
      (c.run q).msgQueue.msgBufferSize = q.msgBufferSize := by
  induction c generalizing q with
  | ret a => exact ⟨rfl, rfl, (List.append_nil _).symm, rfl⟩
  | sendMessage g no p1 p2 next ih =>
    have hroom : q.size + ((next true).ideal.2.length + 1) ≤ q.msgBufferSize := h
    have hfull : ¬ q.isFull := by
      rw [TQueue.full_iff]
      omega
    have hsend : KS3.Supervisor.sendMessage q (TCMessage.new g no p1 p2) =
        (true, q.push (TCMessage.new g no p1 p2)) := by
      simp [KS3.Supervisor.sendMessage, hfull]
    obtain ⟨hvalue, hsent, hqueue, hsize⟩ := ih true (q := q.push (TCMessage.new g no p1 p2)) (by
      rw [TQueue.size_push q hfull, TQueue.msgBufferSize_push]
      omega)
    simp only [Code.run, hsend]
    refine ⟨hvalue, by rw [hsent]; rfl, ?_, by rw [hsize, TQueue.msgBufferSize_push]⟩
    rw [hqueue, TQueue.toList_push, if_neg hfull, List.append_assoc]
    rfl

/-! ## The tasks work -/

section Tasks

variable {σ : Type*} (t : Tasks σ)

/-- The loop of `processTasks` from task `i` on, of which `k` are left, when every message is
accepted: the state of the tasks after it and the messages. -/
def Tasks.idealFrom (i : ℕ) : ℕ → σ → σ × List TCMessage
  | 0, app => (app, [])
  | k + 1, app =>
    if t.isActive i app then
      let out := (t.process i app).ideal
      let rest := Tasks.idealFrom (i + 1) k out.1
      (rest.1, out.2 ++ rest.2)
    else
      Tasks.idealFrom (i + 1) k app

/-- `processTasks`, when every message is accepted. -/
def Tasks.idealTasks (app : σ) : σ × List TCMessage := t.idealFrom 0 t.numTasks app

variable {t} in
/-- An active task has its turn. -/
theorem Tasks.idealFrom_active {i k : ℕ} {app app' : σ} {msgs : List TCMessage}
    (hactive : t.isActive i app) (hout : (t.process i app).ideal = (app', msgs)) :
    t.idealFrom i (k + 1) app =
      ((t.idealFrom (i + 1) k app').1, msgs ++ (t.idealFrom (i + 1) k app').2) := by
  simp only [Tasks.idealFrom, hactive, if_true, hout]

variable {t} in
/-- The other tasks are passed over. -/
theorem Tasks.idealFrom_skip {i k : ℕ} {app : σ} (hactive : ¬ t.isActive i app) :
    t.idealFrom i (k + 1) app = t.idealFrom (i + 1) k app := by
  simp only [Tasks.idealFrom, hactive]
  rfl

theorem processTasksFrom_ideal (i k : ℕ) (s : TSupervisor σ)
    (h : s.msgQueue.size + (t.idealFrom i k s.app).2.length ≤ s.msgQueue.msgBufferSize) :
    (s.processTasksFrom t i k).app = (t.idealFrom i k s.app).1 ∧
      (s.processTasksFrom t i k).msgQueue.toList =
        s.msgQueue.toList ++ (t.idealFrom i k s.app).2 ∧
      (s.processTasksFrom t i k).msgQueue.msgBufferSize = s.msgQueue.msgBufferSize ∧
      (s.processTasksFrom t i k).log =
        s.log ++ (t.idealFrom i k s.app).2.map fun msg => .sent (.ok msg) := by
  induction k generalizing i s with
  | zero => simp [TSupervisor.processTasksFrom, Tasks.idealFrom]
  | succ k ih =>
    rw [Tasks.idealFrom] at h ⊢
    rw [TSupervisor.processTasksFrom]
    split_ifs at h ⊢ with hactive
    · simp only [List.length_append] at h
      obtain ⟨hvalue, hsent, hqueue, hsize⟩ :=
        (t.process i s.app).run_ideal (q := s.msgQueue) (by omega)
      have hlen : ((t.process i s.app).run s.msgQueue).msgQueue.size =
          s.msgQueue.size + (t.process i s.app).ideal.2.length := by
        rw [← TQueue.length_toList, hqueue, List.length_append, TQueue.length_toList]
      obtain ⟨happ, hq, hs, hlog⟩ := ih (i + 1)
        ⟨((t.process i s.app).run s.msgQueue).msgQueue,
          ((t.process i s.app).run s.msgQueue).value,
          s.log ++ ((t.process i s.app).run s.msgQueue).sent.map .sent⟩ (by
            simp only [hvalue, hlen, hsize]
            omega)
      simp only [hvalue] at happ hq hs hlog
      simp only [hvalue]
      refine ⟨happ, ?_, ?_, ?_⟩
      · rw [hq, hqueue, List.append_assoc]
      · rw [hs, hsize]
      · rw [hlog, hsent]
        simp
    · exact ih (i + 1) s h

/-- **With room for their messages**, the tasks have all of them accepted. -/
theorem processTasks_ideal (s : TSupervisor σ)
    (h : s.msgQueue.size + (t.idealTasks s.app).2.length ≤ s.msgQueue.msgBufferSize) :
    (s.processTasks t).app = (t.idealTasks s.app).1 ∧
      (s.processTasks t).msgQueue.toList = s.msgQueue.toList ++ (t.idealTasks s.app).2 ∧
      (s.processTasks t).msgQueue.msgBufferSize = s.msgQueue.msgBufferSize ∧
      (s.processTasks t).log =
        s.log ++ (t.idealTasks s.app).2.map fun msg => .sent (.ok msg) :=
  processTasksFrom_ideal t 0 t.numTasks s h

/-! ## Messages are handed round -/

/-- The handlers send no messages. -/
def Tasks.Quiet : Prop := ∀ i msg app, ∃ out, t.handleEvent i msg app = .ret out

/-- The loop over the tasks from task `i` on, of which `k` are left, to which a message is
handed. -/
def Tasks.deliverFrom (i : ℕ) : ℕ → TCMessage → σ → σ
  | 0, _, app => app
  | k + 1, msg, app =>
    if !msg.discard then
      let out := if t.Wants i msg app then (t.handleEvent i msg app).ideal.1 else (msg, app)
      Tasks.deliverFrom (i + 1) k out.1 out.2
    else
      app

/-- A message is handed round. -/
def Tasks.deliver (msg : TCMessage) (app : σ) : σ := t.deliverFrom 0 t.numTasks msg app

variable {t}

/-- A task that is to handle a message has its turn. -/
theorem Tasks.deliverFrom_wants {i k : ℕ} {msg msg' : TCMessage} {app app' : σ}
    (hfresh : msg.discard = false) (hwants : t.Wants i msg app)
    (hout : t.handleEvent i msg app = .ret (msg', app')) :
    t.deliverFrom i (k + 1) msg app = t.deliverFrom (i + 1) k msg' app' := by
  simp only [Tasks.deliverFrom, hfresh, Bool.not_false, if_true, if_pos hwants, hout, Code.ideal]

/-- The other tasks are passed over. -/
theorem Tasks.deliverFrom_skip {i k : ℕ} {msg : TCMessage} {app : σ}
    (hfresh : msg.discard = false) (hwants : ¬ t.Wants i msg app) :
    t.deliverFrom i (k + 1) msg app = t.deliverFrom (i + 1) k msg app := by
  simp only [Tasks.deliverFrom, hfresh, Bool.not_false, if_true, if_neg hwants]

theorem turn_quiet (h : t.Quiet) (i : ℕ) (msg : TCMessage) (app : σ) (q : TQueue TCMessage) :
    (t.turn i msg app q).1.sent = [] ∧ (t.turn i msg app q).2 = q ∧
      (t.turn i msg app q).1.after =
        if t.Wants i msg app then (t.handleEvent i msg app).ideal.1 else (msg, app) := by
  obtain ⟨out, hout⟩ := h i msg app
  rw [Tasks.turn]
  split_ifs
  · rw [hout]
    exact ⟨rfl, rfl, rfl⟩
  · exact ⟨rfl, rfl, rfl⟩

theorem forTasks_quiet (h : t.Quiet) (i k : ℕ) (msg : TCMessage) (app : σ)
    (q : TQueue TCMessage) :
    (t.forTasks i k msg app q).2 = (t.deliverFrom i k msg app, q) ∧
      ∀ turn ∈ (t.forTasks i k msg app q).1, turn.sent = [] := by
  induction k generalizing i msg app with
  | zero => exact ⟨rfl, by simp [Tasks.forTasks]⟩
  | succ k ih =>
    obtain ⟨hsent, hqueue, hafter⟩ := turn_quiet h i msg app q
    cases hdiscard : msg.discard with
    | true => simp [Tasks.forTasks, Tasks.deliverFrom, hdiscard]
    | false =>
      obtain ⟨hrest, hsents⟩ := ih (i + 1) (t.turn i msg app q).1.after.1
        (t.turn i msg app q).1.after.2
      rw [Tasks.forTasks, Tasks.deliverFrom, hdiscard]
      simp only [Bool.not_false, if_true, hqueue, ← hafter]
      exact ⟨hrest, List.forall_mem_cons.2 ⟨hsent, hsents⟩⟩

/-- The calls of `sendMessage` that were refused, in a log. -/
def refused (log : List (Entry σ)) : List Sent :=
  log.flatMap fun
    | .sent s => [s].filter (! Sent.rc ·)
    | .dispatch _ turns => (turns.flatMap Turn.sent).filter (! Sent.rc ·)

theorem refused_append (log log' : List (Entry σ)) :
    refused (log ++ log') = refused log ++ refused log' := List.flatMap_append

theorem refused_ok (msgs : List TCMessage) :
    refused (msgs.map fun msg => (Entry.sent (Sent.ok msg) : Entry σ)) = [] := by
  simp [refused, Sent.ok]

/-- **When the handlers are quiet**, `processMessages` ends, and has delivered what was in the
queue, in order; nothing is refused. -/
theorem processMessages_quiet (h : t.Quiet) {fuel : ℕ} {s : TSupervisor σ}
    (hfuel : s.msgQueue.size ≤ fuel) :
    ∃ s', s.processMessages t fuel = some s' ∧ s'.msgQueue.toList = [] ∧
      s'.msgQueue.msgBufferSize = s.msgQueue.msgBufferSize ∧
      s'.app = s.msgQueue.toList.foldl (fun app msg => t.deliver msg app) s.app ∧
      refused s'.log = refused s.log := by
  induction fuel generalizing s with
  | zero =>
    have hsize := Nat.le_zero.1 hfuel
    have hnil : s.msgQueue.toList = [] :=
      List.eq_nil_of_length_eq_zero (s.msgQueue.length_toList.trans hsize)
    refine ⟨s, ?_, hnil, rfl, by rw [hnil]; rfl, rfl⟩
    rw [TSupervisor.processMessages, if_pos ((TQueue.empty_iff _).2 hsize)]
  | succ fuel ih =>
    rcases hqueue : s.msgQueue.toList with _ | ⟨msg, msgs⟩
    · have hsize : s.msgQueue.size = 0 := by rw [← TQueue.length_toList, hqueue]; rfl
      refine ⟨s, ?_, hqueue, rfl, rfl, rfl⟩
      rw [TSupervisor.processMessages, if_pos ((TQueue.empty_iff _).2 hsize)]
    · have hfront : s.msgQueue.front = some msg := by rw [TQueue.front_eq, hqueue]; rfl
      have hempty : ¬ s.msgQueue.isEmpty := by
        rw [TQueue.empty_iff, ← TQueue.length_toList, hqueue]
        simp
      obtain ⟨hround, hsents⟩ := forTasks_quiet h 0 t.numTasks msg s.app s.msgQueue
      have hs : s.round t =
          ⟨s.msgQueue.pop, t.deliver msg s.app,
            s.log ++ [.dispatch msg (t.forTasks 0 t.numTasks msg s.app s.msgQueue).1]⟩ := by
        rw [TSupervisor.round, hfront]
        simp only [hround]
        rfl
      obtain ⟨s', hs', hnil, hsize, happ, hlog⟩ := ih (s := s.round t) (by
        rw [hs, TQueue.size_pop]
        omega)
      rw [TSupervisor.processMessages, if_neg hempty]
      rw [hs] at hsize happ hlog
      rw [TQueue.msgBufferSize_pop] at hsize
      rw [TQueue.toList_pop, hqueue] at happ
      refine ⟨s', hs', hnil, hsize, happ, ?_⟩
      rw [hlog, refused_append]
      simp only [refused, List.flatMap_cons, List.flatMap_nil, List.append_nil,
        List.flatMap_eq_nil_iff.2 hsents, List.filter_nil]

/-- **A pass of the main loop**, when the queue is empty before it, the handlers are quiet and the
messages of the tasks have room. -/
theorem pass_ideal (h : t.Quiet) {s : TSupervisor σ} (hempty : s.msgQueue.toList = [])
    (hroom : (t.idealTasks s.app).2.length ≤ s.msgQueue.msgBufferSize) :
    ∃ s', (s.processTasks t).processMessages t s.msgQueue.msgBufferSize = some s' ∧
      s'.msgQueue.toList = [] ∧ s'.msgQueue.msgBufferSize = s.msgQueue.msgBufferSize ∧
      s'.app = (t.idealTasks s.app).2.foldl (fun app msg => t.deliver msg app)
        (t.idealTasks s.app).1 ∧
      refused s'.log = refused s.log := by
  have hsize : s.msgQueue.size = 0 := by rw [← TQueue.length_toList, hempty]; rfl
  obtain ⟨happ, hqueue, hcap, hlog⟩ := processTasks_ideal t s (by omega)
  rw [hempty, List.nil_append] at hqueue
  have hfuel : (s.processTasks t).msgQueue.size ≤ s.msgQueue.msgBufferSize := by
    rw [← TQueue.length_toList, hqueue]
    exact hroom
  obtain ⟨s', hs', hnil, hcap', happ', hlog'⟩ := processMessages_quiet h hfuel
  refine ⟨s', hs', hnil, hcap'.trans hcap, ?_, ?_⟩
  · rw [happ', hqueue, happ]
  · rw [hlog', hlog, refused_append, refused_ok, List.append_nil]

end Tasks

end KS3.Supervisor
