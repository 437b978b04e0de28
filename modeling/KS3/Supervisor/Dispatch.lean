import KS3.Supervisor.TSupervisor

/-!
# Delivery of messages

What is in the queue of the supervisor is what was accepted and has not been taken yet, in the order
of the calls of `sendMessage`. This holds before and after every round of `processMessages`, and
within a round with the message that is handed round still at the head.

* `run_spec`: what a method of a task sends goes behind what is in the queue;
* `forTasks_spec`: the turns of a round, one for each task in the order of the table, until the
  message is discarded;
* `log_spec`: the log of every run;
* `messages_delivered`: messages are taken in the order in which they were accepted, each once, all
  of them by the time `processMessages` returns, and each is handed to the tasks that want it.
-/

namespace KS3.Supervisor

open Comm

/-! ## What a method does -/

/-- A method makes the given calls of `sendMessage`, is given the results, and returns a value. -/
inductive Code.Makes {α : Type*} : Code α → List Sent → α → Prop
  | ret (a : α) : Makes (.ret a) [] a
  | sendMessage {g : UInt32} {no p1 p2 : Int32} {next : Bool → Code α} {rc : Bool}
      {sent : List Sent} {a : α} (h : Makes (next rc) sent a) :
      Makes (.sendMessage g no p1 p2 next) (⟨TCMessage.new g no p1 p2, rc⟩ :: sent) a

/-- A message made by `sendMessage` is not discarded. -/
def Fresh (msg : TCMessage) : Prop := msg.discard = false

theorem accepted_cons (s : Sent) (sent : List Sent) :
    Sent.accepted (s :: sent) = Sent.accepted [s] ++ Sent.accepted sent := by
  rw [Sent.accepted, Sent.accepted, Sent.accepted, ← List.map_append, ← List.filter_append,
    List.singleton_append]

/-- `sendMessage` puts the message behind the others exactly when it returns true. -/
theorem toList_sendMessage (q : TQueue TCMessage) (msg : TCMessage) :
    (sendMessage q msg).2.toList =
      q.toList ++ Sent.accepted [⟨msg, (sendMessage q msg).1⟩] := by
  rw [sendMessage]
  cases hfull : q.isFull
  · simp [q.toList_push, hfull, Sent.accepted]
  · simp [Sent.accepted]

/-- **What a method does**: it makes its calls, and what is accepted goes behind what is in the
queue. -/
theorem run_spec {α : Type*} (c : Code α) (q : TQueue TCMessage) :
    c.Makes (c.run q).sent (c.run q).value ∧
      (c.run q).msgQueue.toList = q.toList ++ Sent.accepted (c.run q).sent ∧
      ∀ msg ∈ Sent.accepted (c.run q).sent, Fresh msg := by
  induction c generalizing q with
  | ret a => exact ⟨.ret a, by simp [Code.run, Sent.accepted], by simp [Code.run, Sent.accepted]⟩
  | sendMessage g no p1 p2 next ih =>
    obtain ⟨hmakes, hqueue, hfresh⟩ :=
      ih (sendMessage q (TCMessage.new g no p1 p2)).1 (sendMessage q (TCMessage.new g no p1 p2)).2
    refine ⟨.sendMessage hmakes, ?_, ?_⟩
    · simp only [Code.run]
      rw [accepted_cons, ← List.append_assoc, ← toList_sendMessage]
      exact hqueue
    · intro msg hmsg
      simp only [Code.run] at hmsg
      rw [accepted_cons] at hmsg
      rcases List.mem_append.1 hmsg with hmsg | hmsg
      · obtain ⟨s, hs, rfl⟩ := List.mem_map.1 hmsg
        rw [List.mem_singleton.1 (List.mem_filter.1 hs).1]
        rfl
      · exact hfresh msg hmsg

/-! ## The turns of a round -/

section Turns

variable {σ : Type*} (t : Tasks σ)

/-- A turn is as it should be: `handleEvent` is called exactly when the task wants the message at
that moment, and the turn ends with what it makes of the message and of the state; a task that is
passed over changes nothing. -/
structure Turn.Proper (turn : Turn σ) : Prop where
  handled_iff : turn.handled = true ↔ t.Wants turn.task turn.before.1 turn.before.2
  makes : turn.handled = true →
    (t.handleEvent turn.task turn.before.1 turn.before.2).Makes turn.sent turn.after
  passed : turn.handled = false → turn.sent = [] ∧ turn.after = turn.before

/-- A message is handed round as it should be, to `k` tasks from task `i` on: the turns go through
the table in order, each begins where the one before it ended, none begins with the message
discarded, and they end with the last task or when a handler has discarded the message. -/
structure Handed (i k : ℕ) (msg : TCMessage) (turns : List (Turn σ)) : Prop where
  inOrder : turns.map Turn.task = List.range' i turns.length
  length_le : turns.length ≤ k
  proper : ∀ turn ∈ turns, turn.Proper t
  head : ∀ turn ∈ turns.head?, turn.before.1 = msg
  chained : turns.IsChain fun turn turn' => turn'.before = turn.after
  kept : ∀ turn ∈ turns, turn.before.1.discard = false
  stops : turns.length < k → turns = [] ∧ msg.discard = true ∨
    ∃ turn ∈ turns.getLast?, turn.handled = true ∧ turn.after.1.discard = true

/-- The turn of a task, and what it does to the queue. -/
theorem turn_spec (i : ℕ) (msg : TCMessage) (app : σ) (q : TQueue TCMessage) :
    (t.turn i msg app q).1.task = i ∧ (t.turn i msg app q).1.before = (msg, app) ∧
      (t.turn i msg app q).1.Proper t ∧
      (t.turn i msg app q).2.toList =
        q.toList ++ Sent.accepted (t.turn i msg app q).1.sent ∧
      ∀ m ∈ Sent.accepted (t.turn i msg app q).1.sent, Fresh m := by
  rw [Tasks.turn]
  split_ifs with hwants
  · obtain ⟨hmakes, hqueue, hfresh⟩ := run_spec (t.handleEvent i msg app) q
    refine ⟨rfl, rfl, ⟨iff_of_true rfl hwants, fun _ => hmakes, fun h => ?_⟩, hqueue, hfresh⟩
    cases h
  · refine ⟨rfl, rfl, ⟨iff_of_false (by simp) hwants, fun h => ?_, fun _ => ⟨rfl, rfl⟩⟩, ?_, ?_⟩
    · cases h
    · simp [Sent.accepted]
    · simp [Sent.accepted]

/-- A task that ends its turn with the message discarded was called to handle it. -/
theorem Turn.Proper.handled_of_discard {turn : Turn σ} (h : turn.Proper t)
    (hkept : turn.before.1.discard = false) (hafter : turn.after.1.discard = true) :
    turn.handled = true := by
  by_contra hpassed
  rw [(h.passed (by simpa using hpassed)).2, hkept] at hafter
  cases hafter

/-- One more turn in front. -/
theorem Handed.cons {i k : ℕ} {turn : Turn σ} {turns : List (Turn σ)} (htask : turn.task = i)
    (hproper : turn.Proper t) (hkept : turn.before.1.discard = false)
    (hnext : ∀ turn' ∈ turns.head?, turn'.before = turn.after)
    (h : Handed t (i + 1) k turn.after.1 turns) :
    Handed t i (k + 1) turn.before.1 (turn :: turns) where
  inOrder := by rw [List.map_cons, htask, h.inOrder, List.length_cons, List.range'_succ]
  length_le := Nat.succ_le_succ h.length_le
  proper := List.forall_mem_cons.2 ⟨hproper, h.proper⟩
  head := by simp
  chained := List.isChain_cons.2 ⟨hnext, h.chained⟩
  kept := List.forall_mem_cons.2 ⟨hkept, h.kept⟩
  stops := fun hlt => by
    rcases h.stops (Nat.lt_of_succ_lt_succ hlt) with ⟨rfl, hdiscard⟩ | ⟨last, hlast, hend⟩
    · exact .inr ⟨turn, rfl, hproper.handled_of_discard t hkept hdiscard, hdiscard⟩
    · refine .inr ⟨last, ?_, hend⟩
      rw [List.getLast?_cons, hlast]
      rfl

/-- **The turns of a round**, and what they do to the queue. -/
theorem forTasks_spec (i k : ℕ) (msg : TCMessage) (app : σ) (q : TQueue TCMessage) :
    Handed t i k msg (t.forTasks i k msg app q).1 ∧
      (∀ turn ∈ (t.forTasks i k msg app q).1.head?, turn.before = (msg, app)) ∧
      (t.forTasks i k msg app q).2.2.toList =
        q.toList ++ (t.forTasks i k msg app q).1.flatMap (Sent.accepted ·.sent) ∧
      ∀ m ∈ (t.forTasks i k msg app q).1.flatMap (Sent.accepted ·.sent), Fresh m := by
  induction k generalizing i msg app q with
  | zero =>
    exact ⟨⟨rfl, le_refl 0, by simp [Tasks.forTasks], by simp [Tasks.forTasks],
      .nil, by simp [Tasks.forTasks], fun h => absurd h (lt_irrefl 0)⟩, by simp [Tasks.forTasks],
      by simp [Tasks.forTasks], by simp [Tasks.forTasks]⟩
  | succ k ih =>
    cases hdiscard : msg.discard with
    | true =>
      have hstop : t.forTasks i (k + 1) msg app q = ([], app, q) := by
        rw [Tasks.forTasks, hdiscard]
        rfl
      rw [hstop]
      exact ⟨⟨rfl, Nat.zero_le _, by simp, by simp, .nil, by simp, fun _ => .inl ⟨rfl, hdiscard⟩⟩,
        by simp, by simp, by simp⟩
    | false =>
      obtain ⟨htask, hbefore, hproper, hqueue, hfresh⟩ := turn_spec t i msg app q
      set turn := (t.turn i msg app q).1 with hturn
      set q' := (t.turn i msg app q).2
      obtain ⟨hhanded, hhead, hrest, hfreshs⟩ := ih (i + 1) turn.after.1 turn.after.2 q'
      have hgo : t.forTasks i (k + 1) msg app q =
          (turn :: (t.forTasks (i + 1) k turn.after.1 turn.after.2 q').1,
            (t.forTasks (i + 1) k turn.after.1 turn.after.2 q').2) := by
        rw [Tasks.forTasks, hdiscard]
        rfl
      have hmsg : turn.before.1 = msg := by rw [hbefore]
      rw [hgo, ← hmsg]
      refine ⟨.cons t htask hproper (by rw [hmsg, hdiscard]) hhead hhanded, ?_, ?_, ?_⟩
      · intro turn' hturn'
        rw [List.head?_cons, Option.mem_some_iff] at hturn'
        rw [← hturn', hbefore]
      · rw [List.flatMap_cons, ← List.append_assoc, ← hqueue]
        exact hrest
      · intro m hm
        rw [List.flatMap_cons] at hm
        rcases List.mem_append.1 hm with hm | hm
        · exact hfresh m hm
        · exact hfreshs m hm

/-! ## The log -/

/-- What a log says when the queue holds the messages `queued`: they are those accepted and not
taken yet; and each message that was taken was the oldest of these at the time, not discarded, and
was handed round. -/
structure LogOk (queued : List TCMessage) (log : List (Entry σ)) : Prop where
  queued_eq : accepted log = dispatched log ++ queued
  fresh : ∀ msg ∈ queued, Fresh msg
  taken : ∀ pre msg turns, pre ++ [Entry.dispatch msg turns] <+: log →
    (∃ later, accepted pre = dispatched pre ++ msg :: later) ∧ Fresh msg ∧
      Handed t 0 t.numTasks msg turns

theorem accepted_append (log log' : List (Entry σ)) :
    accepted (log ++ log') = accepted log ++ accepted log' := List.flatMap_append

theorem dispatched_append (log log' : List (Entry σ)) :
    dispatched (log ++ log') = dispatched log ++ dispatched log' := List.flatMap_append

variable {t} {queued : List TCMessage} {log : List (Entry σ)}

/-- A message is sent from outside `processMessages`. -/
theorem LogOk.sent (h : LogOk t queued log) {s : Sent} (hs : ∀ msg ∈ Sent.accepted [s], Fresh msg) :
    LogOk t (queued ++ Sent.accepted [s]) (log ++ [.sent s]) where
  queued_eq := by
    rw [accepted_append, dispatched_append, h.queued_eq]
    simp [accepted, dispatched, Entry.accepted, Entry.dispatched]
  fresh := List.forall_mem_append.2 ⟨h.fresh, hs⟩
  taken := fun pre msg turns hpre => by
    rcases List.prefix_concat_iff.1 hpre with heq | hpre
    · cases (List.append_inj' heq rfl).2
    · exact h.taken pre msg turns hpre

/-- A method of a task sends messages from outside `processMessages`. -/
theorem LogOk.sents (h : LogOk t queued log) {sent : List Sent}
    (hs : ∀ msg ∈ Sent.accepted sent, Fresh msg) :
    LogOk t (queued ++ Sent.accepted sent) (log ++ sent.map .sent) := by
  induction sent generalizing queued log with
  | nil => simpa [Sent.accepted] using h
  | cons s sent ih =>
    rw [accepted_cons, List.forall_mem_append] at hs
    have hrest := ih (h.sent hs.1) hs.2
    rw [List.append_assoc, ← accepted_cons, List.append_assoc] at hrest
    exact hrest

/-- A round of `processMessages`. -/
theorem LogOk.dispatch {msg : TCMessage} (h : LogOk t (msg :: queued) log) {turns : List (Turn σ)}
    (hturns : Handed t 0 t.numTasks msg turns)
    (hs : ∀ m ∈ turns.flatMap (Sent.accepted ·.sent), Fresh m) :
    LogOk t (queued ++ turns.flatMap (Sent.accepted ·.sent)) (log ++ [.dispatch msg turns]) where
  queued_eq := by
    rw [accepted_append, dispatched_append, h.queued_eq]
    simp [accepted, dispatched, Entry.accepted, Entry.dispatched]
  fresh := List.forall_mem_append.2 ⟨(List.forall_mem_cons.1 h.fresh).2, hs⟩
  taken := fun pre msg' turns' hpre => by
    rcases List.prefix_concat_iff.1 hpre with heq | hpre
    · obtain ⟨rfl, hentry⟩ := List.append_inj' heq rfl
      obtain ⟨rfl, rfl⟩ := Entry.dispatch.inj (List.singleton_inj.1 hentry)
      exact ⟨⟨queued, h.queued_eq⟩, h.fresh _ List.mem_cons_self, hturns⟩
    · exact h.taken pre msg' turns' hpre

namespace TSupervisor

/-- The log of a supervisor fits its queue. -/
def Ok (t : Tasks σ) (s : TSupervisor σ) : Prop := LogOk t s.msgQueue.toList s.log

theorem ok_init (app : σ) (messageBuffer : ℕ → TCMessage) {n : ℕ} (h : 0 < n) :
    (init app messageBuffer n h).Ok t :=
  ⟨rfl, by simp [init, TQueue.toList, TQueue.size, TQueue.init], fun pre msg turns hpre => by
    simp [init] at hpre⟩

theorem Ok.round {s : TSupervisor σ} (h : s.Ok t) : (s.round t).Ok t := by
  rw [TSupervisor.round]
  cases hfront : s.msgQueue.front with
  | none => exact h
  | some msg =>
    rw [TQueue.front_eq] at hfront
    obtain ⟨queued, hqueue⟩ := List.head?_eq_some_iff.1 hfront
    obtain ⟨hhanded, -, hrest, hfresh⟩ := forTasks_spec t 0 t.numTasks msg s.app s.msgQueue
    have hok : LogOk t (msg :: queued) s.log := hqueue ▸ h
    have hpop : (t.forTasks 0 t.numTasks msg s.app s.msgQueue).2.2.pop.toList =
        queued ++ (t.forTasks 0 t.numTasks msg s.app s.msgQueue).1.flatMap
          (Sent.accepted ·.sent) := by
      rw [TQueue.toList_pop, hrest, hqueue, List.cons_append, List.tail_cons]
    rw [Ok]
    dsimp only
    rw [hpop]
    exact hok.dispatch hhanded hfresh

theorem Ok.processTasksFrom (i k : ℕ) {s : TSupervisor σ} (h : s.Ok t) :
    (s.processTasksFrom t i k).Ok t := by
  induction k generalizing i s with
  | zero => exact h
  | succ k ih =>
    rw [TSupervisor.processTasksFrom]
    split_ifs with hactive
    · obtain ⟨-, hqueue, hfresh⟩ := run_spec (t.process i s.app) s.msgQueue
      refine ih (i + 1) ?_
      rw [Ok]
      dsimp only
      rw [hqueue]
      exact h.sents hfresh
    · exact ih (i + 1) h

/-- **The log of every run** fits the queue. -/
theorem Ok.step {s : TSupervisor σ} (h : s.Ok t) (e : Event σ) : (s.step t e).Ok t := by
  cases e with
  | sendMessage g no p1 p2 =>
    rw [Ok, TSupervisor.step]
    dsimp only
    rw [toList_sendMessage]
    refine h.sent fun msg hmsg => ?_
    obtain ⟨s', hs', rfl⟩ := List.mem_map.1 hmsg
    rw [List.mem_singleton.1 (List.mem_filter.1 hs').1]
    rfl
  | app app => exact h
  | processTasks => exact h.processTasksFrom 0 t.numTasks
  | round => exact h.round

/-- `processMessages` returns with the queue empty and the log in order. -/
theorem Ok.processMessages {rounds : ℕ} {s s' : TSupervisor σ} (h : s.Ok t)
    (hs : s.processMessages t rounds = some s') : s'.Ok t ∧ s'.msgQueue.toList = [] := by
  have hreturn : ∀ {s : TSupervisor σ}, s.Ok t → s.msgQueue.isEmpty → s = s' →
      s'.Ok t ∧ s'.msgQueue.toList = [] := by
    rintro s hok hempty rfl
    refine ⟨hok, List.length_eq_zero_iff.1 ?_⟩
    rw [TQueue.length_toList]
    exact s.msgQueue.empty_iff.1 hempty
  induction rounds generalizing s with
  | zero =>
    rw [TSupervisor.processMessages] at hs
    split_ifs at hs with hempty
    exact hreturn h hempty (Option.some.inj hs)
  | succ rounds ih =>
    rw [TSupervisor.processMessages] at hs
    split_ifs at hs with hempty
    · exact hreturn h hempty (Option.some.inj hs)
    · exact ih h.round hs

/-- **Messages are delivered**: after any run, what was accepted is what was taken, in the same
order, and then what is in the queue; each message that was taken was the oldest one accepted and
not taken before, and was handed to the tasks; and when `processMessages` returns, all that was
accepted has been taken. -/
theorem messages_delivered (t : Tasks σ) (app : σ) (messageBuffer : ℕ → TCMessage) {n : ℕ}
    (hn : 0 < n) (events : List (Event σ)) :
    let s := Run.final (TSupervisor.step t) (init app messageBuffer n hn) events
    accepted s.log = dispatched s.log ++ s.msgQueue.toList ∧
      (∀ pre msg turns post, s.log = pre ++ .dispatch msg turns :: post →
        (∃ later, accepted pre = dispatched pre ++ msg :: later) ∧ msg.discard = false ∧
          Handed t 0 t.numTasks msg turns) ∧
      ∀ rounds s', s.processMessages t rounds = some s' → dispatched s'.log = accepted s'.log := by
  intro s
  have hok : s.Ok t := Run.always_final (I := Ok t) (fun _ e h => h.step e)
    (ok_init app messageBuffer hn) events
  refine ⟨hok.queued_eq, fun pre msg turns post hlog => ?_, fun rounds s' hs => ?_⟩
  · exact hok.taken pre msg turns ⟨post, by rw [hlog, List.append_assoc, List.singleton_append]⟩
  · obtain ⟨hok', hempty⟩ := hok.processMessages hs
    have hqueued := hok'.queued_eq
    rw [hempty, List.append_nil] at hqueued
    exact hqueued.symm

/-- Two tasks. The first answers message 0 with message 1 to the second, and activates it; the
second discards what it handles. -/
def twoTasks : Tasks Bool where
  numTasks := 2
  numTasks_lt := by omega
  eventMask i := if i = 0 then 1 else 2
  isActive i app := i = 0 || app
  handleEvent i msg app :=
    if i = 0 then .sendMessage 3 1 0 0 fun rc => .ret (msg, app || rc)
    else .ret ({ msg with discard := true }, app)
  process _ app := .ret app

/-- A queue of two messages. Message 2 is refused, and so is what the first task sends for
message 0 while the queue is full; what it sends for the next message is taken last. -/
theorem messages_delivered_two :
    let events : List (Event Bool) :=
      [.sendMessage 1 0 0 0, .sendMessage 3 5 0 0, .sendMessage 1 2 0 0, .round, .round]
    let s := Run.final (step twoTasks) (init false (fun _ => default) 2 (by omega)) events
    dispatched s.log = [.new 1 0 0 0, .new 3 5 0 0] ∧
      accepted s.log = dispatched s.log ++ [.new 3 1 0 0] := by
  intro events s
  have hqueue : s.msgQueue.toList = [.new 3 1 0 0] := by decide +kernel
  have hlog := (messages_delivered twoTasks false (fun _ => default) (n := 2) (by omega) events).1
  refine ⟨by decide +kernel, ?_⟩
  rw [← hqueue]
  exact hlog

end TSupervisor

end Turns

end KS3.Supervisor
