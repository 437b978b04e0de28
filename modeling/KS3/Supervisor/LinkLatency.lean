import KS3.Hal.Ticks
import KS3.Supervisor.MacLink

/-!
# How soon the task notices the link

The task polls the PHY every `TM_MAC_CONTROL_LINK` ticks, one tick later when the tick counter has
wrapped in the meantime. A poll is one step of a reading, so that it takes up to four of them until
what the PHY shows has arrived: the first one may complete a reading whose link was taken before.

`rank` bounds the ticks that are left until the task is in a state that agrees with the link.

* `rank_next`: a tick lowers the bound;
* `link_settles`: after 86 ticks of a steady link the task is connected exactly if there is one.
-/

namespace KS3.Supervisor

open Comm Protocol Net

/-! ## A steady link -/

/-- The status register shows a link. -/
def showsLink (linksts : UInt16) : Bool := linksts &&& lan8LinkStatus ≠ 0

@[simp] theorem link_ofRegs (linksts sdsts : UInt16) :
    (Reading.ofRegs linksts sdsts).link = showsLink linksts := rfl

/-- The MII is not busy and the status register shows a link, or none. -/
def Shows (up : Bool) (mii : Mii) : Prop :=
  mii.busy = false ∧ showsLink (mii.reg lan8BsrReg) = up

/-- How many polls it takes until the last reading agrees with a steady link and does so from then
on: a status register that was read earlier and says something else is the worst case. -/
def pollsLeft (up : Bool) (l : Link) : ℕ :=
  match l.phase with
  | .special linksts =>
    if showsLink linksts = up then if l.last.link = up then 0 else 1 else 4
  | .status => if l.last.link = up then 0 else 2
  | .idle => if l.last.link = up then 0 else 3

section Polls

variable {up : Bool} {l : Link} {mii : Mii}

theorem link_of_pollsLeft (h : pollsLeft up l = 0) : l.last.link = up := by
  unfold pollsLeft at h
  split at h
  all_goals
    split_ifs at h
    assumption

theorem pollsLeft_le : pollsLeft up l ≤ 4 := by
  unfold pollsLeft
  split
  all_goals
    split_ifs
    all_goals omega

/-- A poll of a PHY with a steady link: the number of polls falls until it is zero. On the way the
link of the last reading is the other one, except that it may be the right one by chance before the
first of the four polls. -/
theorem pollsLeft_poll (h : Shows up mii) :
    pollsLeft up (l.poll mii).2 = pollsLeft up l - 1 ∧
      (l.last.link = up → pollsLeft up l = 0 ∨ pollsLeft up l = 4) ∧
      ((l.poll mii).2.last.link = up ↔ pollsLeft up l ≤ 1) := by
  obtain ⟨hbusy, hlink⟩ := h
  obtain ⟨phase, last⟩ := l
  cases phase with
  | idle =>
    by_cases hlast : last.link = up <;>
      simp [pollsLeft, Link.poll, Link.next, Link.completes, hlast]
  | status =>
    by_cases hlast : last.link = up <;>
      simp [pollsLeft, Link.poll, Link.next, Link.completes, hbusy, hlink, hlast]
  | special linksts =>
    by_cases hsts : showsLink linksts = up
    · by_cases hlast : last.link = up <;>
        simp [pollsLeft, Link.poll, Link.next, Link.completes, hbusy, hsts, hlast]
    · by_cases hlast : last.link = up <;>
        simp [pollsLeft, Link.poll, Link.next, Link.completes, hbusy, hsts, hlast]

end Polls

/-! ## Time -/

/-- How many ticks ago the timer was set. -/
def age (v : LinkView) (now : UInt32) : ℕ := (now - v.timer).toNat

/-- A period of `TM_MAC_CONTROL_LINK` ticks runs out after as many ticks, or one more. -/
theorem timedOut_age (timer now : UInt32) :
    (TMasterTx.TimedOut timer now tmMacControlLink → 20 ≤ (now - timer).toNat) ∧
      (¬ TMasterTx.TimedOut timer now tmMacControlLink → (now - timer).toNat ≤ 20) := by
  have hiff := Hal.timedOut_iff timer (now - timer) tmMacControlLink
  rw [UInt32.add_comm timer, UInt32.sub_add_cancel] at hiff
  have hperiod : tmMacControlLink.toNat = 20 := rfl
  rw [hiff, hperiod]
  split_ifs <;> omega

/-- In the tick after the one in which the timer was set. -/
theorem age_new (now : UInt32) : (now + 1 - now).toNat = 1 := by
  rw [UInt32.add_comm, UInt32.add_sub_cancel]
  rfl

/-- One tick later. -/
theorem age_add_one {timer now : UInt32} (h : (now - timer).toNat ≤ 20) :
    (now + 1 - timer).toNat = (now - timer).toNat + 1 := by
  have hsub : now + 1 - timer = now - timer + 1 := by
    rw [UInt32.sub_eq_add_neg, UInt32.sub_eq_add_neg, UInt32.add_assoc, UInt32.add_assoc,
      UInt32.add_comm 1]
  rw [hsub, UInt32.toNat_add]
  simp only [UInt32.toNat_one]
  omega

/-- The task was started and has been called in every tick: it has not been called in this one, and
in a state that polls the timer is at most a period old. -/
structure Timely (v : LinkView) (now : UInt32) : Prop where
  started : v.state ≠ .kStIdle
  called : v.timer2 ≠ now ∨ v.state = .kStInitStart
  period : match v.state with
    | .kStInitWait | .kStControlLinkStatus | .kStLinkWait => 1 ≤ age v now ∧ age v now ≤ 21
    | _ => True

/-- How many ticks it takes at most until the machine has come to a state that agrees with a steady
link, when the next poll is due within `wait` ticks and `k` polls are left: up to the next poll, the
further polls, and the ticks it spends in the states that announce a change. -/
def ticksLeft (up : Bool) (k wait : ℕ) : MacState → ℕ
  | .kStInitStart => if up then 65 else 0
  | .kStInitWait => if k = 0 then 0 else wait + 21 * (k - 1) + if up then 1 else 2
  | .kStInitComplete => if up then 1 else 65
  | .kStControlLinkStatus => if k = 0 then 0 else wait + 21 * (k - 1) + 1
  | .kStLinkOff => if up then 64 else 1
  | .kStLinkWait => if k = 0 then 0 else wait + 21 * (k - 1) + if up then 0 else 1
  | .kStIdle | .kStError | .kStInitWaitTimeout => 0

/-- The same for a state of the machine; it does nothing in a tick in which it was called before. -/
def rank (up : Bool) (now : UInt32) (l : Link) (v : LinkView) : ℕ :=
  ticksLeft up (pollsLeft up l) (22 - age v now) v.state + if v.timer2 = now then 1 else 0

/-- The state after a poll that finds a link, or none. -/
def afterPoll (link : Bool) : MacState → MacState
  | .kStInitWait => if link then .kStInitComplete else .kStInitWait
  | .kStControlLinkStatus => if link then .kStControlLinkStatus else .kStLinkOff
  | .kStLinkWait => if link then .kStControlLinkStatus else .kStLinkWait
  | state => state

section Rank

variable {up : Bool} {now : UInt32} {l : Link} {v : LinkView}

theorem rank_le (ht : Timely v now) : rank up now l v ≤ 86 := by
  have hpolls : pollsLeft up l ≤ 4 := pollsLeft_le
  have hage := ht.period
  have hcalled := ht.called
  unfold rank
  cases hv : v.state with
  | kStIdle | kStError | kStInitWaitTimeout | kStInitStart | kStInitComplete | kStLinkOff =>
    simp only [ticksLeft]
    split_ifs <;> omega
  | kStInitWait | kStControlLinkStatus | kStLinkWait =>
    simp only [hv, reduceCtorEq, or_false] at hage hcalled
    rw [if_neg hcalled, ticksLeft]
    split_ifs <;> omega

/-- When no ticks are left, the task agrees with the link. -/
theorem connected_of_rank (hok : LinkOk l v) (ht : Timely v now) (h : rank up now l v = 0) :
    v.connected = up := by
  have hage := ht.period
  have hconnected := hok.state
  replace h : ticksLeft up (pollsLeft up l) (22 - age v now) v.state = 0 :=
    (Nat.add_eq_zero_iff.1 h).1
  cases hv : v.state with
  | kStIdle => exact absurd hv ht.started
  | kStError | kStInitWaitTimeout =>
    rw [hv] at hconnected
    exact hconnected.elim
  | kStInitStart =>
    rw [hv] at hconnected h
    cases up
    · exact hconnected
    · cases h
  | kStInitComplete | kStLinkOff =>
    rw [hv, ticksLeft] at h
    split_ifs at h
  | kStInitWait | kStControlLinkStatus | kStLinkWait =>
    simp only [hv, ticksLeft] at h hage hconnected
    have hpolls : pollsLeft up l = 0 := by
      by_contra hne
      rw [if_neg hne] at h
      omega
    rw [hconnected.1, ← link_of_pollsLeft hpolls, hconnected.2]

/-- After a tick in which the task was called, the timer is a tick old or one tick older. -/
theorem timely_of_called {v : LinkView} (hcalled : v.timer2 = now) (hstarted : v.state ≠ .kStIdle)
    (htimer : v.timer = now ∨ (now - v.timer).toNat ≤ 20) : Timely v (now + 1) where
  started := hstarted
  called := .inl (hcalled ▸ MacWatch.add_one_ne now)
  period := by
    have hage : 1 ≤ age v (now + 1) ∧ age v (now + 1) ≤ 21 := by
      rcases htimer with htimer | htimer
      · rw [age, htimer, age_new]
        omega
      · rw [age, age_add_one htimer]
        omega
    cases v.state <;> trivial

/-- What a poll does to the state and the timers. -/
theorem poll_eq (v : LinkView) (now : UInt32) (mii : Mii) :
    (v.poll now mii).1.state =
        afterPoll ((v.emac.processLinkStatus mii).2.linkStatus ≠ 0) v.state ∧
      (v.poll now mii).1.timer = now ∧ (v.poll now mii).1.timer2 = now := by
  by_cases hup : (v.emac.processLinkStatus mii).2.linkStatus = 0 <;> cases hv : v.state <;>
    simp [LinkView.poll, afterPoll, hup, hv]

/-- **A call in every tick keeps the timers in time.** -/
theorem Timely.next (hok : LinkOk l v) (ht : Timely v now) (mii : Mii) :
    Timely (v.next now mii).1 (now + 1) := by
  have hstate := hok.state
  by_cases htick : v.timer2 = now
  · have hstart : v.state = .kStInitStart := ht.called.resolve_left fun h => h htick
    rw [LinkView.next, if_pos htick]
    exact ⟨ht.started, .inl (htick ▸ MacWatch.add_one_ne now), by rw [hstart]; trivial⟩
  · rw [LinkView.next, if_neg htick]
    cases hv : v.state with
    | kStIdle => exact absurd hv ht.started
    | kStError | kStInitWaitTimeout =>
      rw [hv] at hstate
      exact hstate.elim
    | kStInitStart | kStInitComplete | kStLinkOff =>
      exact timely_of_called rfl (by simp) (.inl rfl)
    | kStInitWait | kStControlLinkStatus | kStLinkWait =>
      simp only
      split_ifs with htimer
      · obtain ⟨hstate', htimer', htimer2'⟩ := poll_eq v now mii
        refine timely_of_called htimer2' ?_ (.inl htimer')
        rw [hstate', hv, afterPoll]
        split_ifs <;> simp
      · exact timely_of_called rfl (by simp) (.inr ((timedOut_age v.timer now).2 htimer))

/-- A poll with a steady link lowers the bound: the next one is due in at most 21 ticks. -/
theorem rank_poll (hok : LinkOk l v) (ht : Timely v now) {mii : Mii} (hmii : Shows up mii)
    (hv : v.state = .kStInitWait ∨ v.state = .kStControlLinkStatus ∨ v.state = .kStLinkWait) :
    rank up (now + 1) (l.poll mii).2 (v.poll now mii).1 ≤ rank up now l v - 1 := by
  obtain ⟨hleft, hlast, hlink⟩ := pollsLeft_poll (l := l) hmii
  have hpolls : pollsLeft up l ≤ 4 := pollsLeft_le
  have hready : pollsLeft up l = 0 → l.last.link = up := link_of_pollsLeft
  obtain ⟨hstate', htimer', htimer2'⟩ := poll_eq v now mii
  have hage' : age (v.poll now mii).1 (now + 1) = 1 := by rw [age, htimer', age_new]
  have hcalled' : ¬ (v.poll now mii).1.timer2 = now + 1 := by
    rw [htimer2']
    exact MacWatch.add_one_ne now
  have hup : decide ((v.emac.processLinkStatus mii).2.linkStatus ≠ 0) =
      (l.poll mii).2.last.link := by
    have hzero := linkStatus_poll hok.follows mii
    cases hafter : (l.poll mii).2.last.link <;> simp [hzero, hafter]
  have hstate := hok.state
  have hage := ht.period
  have hcalled := ht.called
  rw [rank, rank, hstate', hup, hage', hleft, if_neg hcalled']
  rcases hv with hv | hv | hv
  all_goals
    simp only [hv, reduceCtorEq, or_false] at hstate hage hcalled ⊢
    rw [hstate.2] at hlast hready
    rw [if_neg hcalled]
    cases hafter : (l.poll mii).2.last.link
    all_goals
      rw [hafter] at hlink
      cases up
      all_goals
        simp only [afterPoll, ticksLeft, reduceCtorEq, false_iff, true_iff, if_true, if_false,
          Bool.false_eq_true, not_le, false_imp_iff, true_imp_iff, imp_false, imp_true_iff]
          at hlast hlink hready ⊢
        split_ifs <;> omega

/-- **A tick with a steady link lowers the bound.** -/
theorem rank_next (hok : LinkOk l v) (ht : Timely v now) {mii : Mii} (hmii : Shows up mii) :
    rank up (now + 1) (v.nextLink now mii l) (v.next now mii).1 ≤ rank up now l v - 1 := by
  have hstate := hok.state
  have hage := ht.period
  have hnext : ¬ now = now + 1 := MacWatch.add_one_ne now
  by_cases htick : v.timer2 = now
  · have hstart : v.state = .kStInitStart := ht.called.resolve_left fun h => h htick
    rw [LinkView.nextLink, LinkView.next, if_pos htick, if_pos htick, rank, rank, hstart, htick,
      if_neg hnext, if_pos rfl]
    exact le_refl _
  · rw [LinkView.nextLink, LinkView.next, if_neg htick, if_neg htick]
    cases hv : v.state with
    | kStIdle => exact absurd hv ht.started
    | kStError | kStInitWaitTimeout =>
      rw [hv] at hstate
      exact hstate.elim
    | kStInitStart =>
      cases up <;> simp [rank, ticksLeft, hv, htick, hnext, pollsLeft, Link.init, age]
    | kStInitComplete | kStLinkOff =>
      rw [hv] at hstate
      cases up <;> simp [rank, ticksLeft, hv, htick, hnext, pollsLeft, hstate, age]
    | kStInitWait | kStControlLinkStatus | kStLinkWait =>
      simp only
      split_ifs with htimer
      · exact rank_poll hok ht hmii (by simp [hv])
      · have hold := (timedOut_age v.timer now).2 htimer
        simp only [hv, age] at hage
        simp only [rank, hv, age, age_add_one hold, ticksLeft, htick, hnext, if_false]
        split_ifs <;> omega

end Rank

/-! ## Runs -/

/-- The task, called once at every tick: the tick of the next call. -/
structure LinkWatch where
  link : MacLink
  now : UInt32

namespace LinkWatch

/-- The task when it has been activated at tick `t` and has been sent `msgSysInit`, at tick
`now`. -/
def start (task : TTaskMACService) (t now : UInt32) : LinkWatch :=
  ⟨⟨(task.activate t).handleEvent (TCMessage.new 0x10000010 1101 0 0), staticEmac⟩, now⟩

/-- A tick, with what the MII answers and the message queue the call meets. -/
def step (w : LinkWatch) (e : Mii × TQueue TCMessage) : LinkWatch :=
  ⟨((w.link.process w.now e.1).run e.2).value, w.now + 1⟩

/-- The task agrees with the last reading of the PHY and is in time, and at most `n` ticks are left
with the given link. -/
def Settling (up : Bool) (n : ℕ) (w : LinkWatch) : Prop :=
  ∃ l, LinkOk l w.link.view ∧ Timely w.link.view w.now ∧ rank up w.now l w.link.view ≤ n

theorem settling_start (up : Bool) (task : TTaskMACService) (t now : UInt32) :
    Settling up 86 (start task t now) := by
  have htimely : Timely (start task t now).link.view (start task t now).now :=
    ⟨by simp [start, MacLink.view, TTaskMACService.handleEvent, TCMessage.new, msgSysInit],
      .inr rfl,
      trivial⟩
  exact ⟨.init, ⟨staticEmac_follows, rfl⟩, htimely, rank_le htimely⟩

/-- A tick, whatever the PHY shows. -/
theorem Settling.any {up : Bool} {n : ℕ} {w : LinkWatch} (h : Settling up n w)
    (e : Mii × TQueue TCMessage) : Settling up 86 (w.step e) := by
  obtain ⟨l, hok, htimely, -⟩ := h
  have hview := (w.link.view_process w.now e.1 e.2).1
  refine ⟨w.link.view.nextLink w.now e.1 l, ?_, ?_, ?_⟩
  · rw [step, hview]
    exact hok.next w.now e.1
  · rw [step, hview]
    exact htimely.next hok e.1
  · rw [step, hview]
    exact rank_le (htimely.next hok e.1)

/-- A tick with a steady link. -/
theorem Settling.shows {up : Bool} {n : ℕ} {w : LinkWatch} (h : Settling up n w)
    {e : Mii × TQueue TCMessage} (hshows : Shows up e.1) : Settling up (n - 1) (w.step e) := by
  obtain ⟨l, hok, htimely, hrank⟩ := h
  have hview := (w.link.view_process w.now e.1 e.2).1
  refine ⟨w.link.view.nextLink w.now e.1 l, ?_, ?_, ?_⟩
  · rw [step, hview]
    exact hok.next w.now e.1
  · rw [step, hview]
    exact htimely.next hok e.1
  · rw [step, hview]
    exact (rank_next hok htimely hshows).trans (Nat.sub_le_sub_right hrank 1)

end LinkWatch

open LinkWatch in
/-- **The task follows the link within 86 ticks.** The task is activated at any tick, is told to
start and is then called at every tick, also across the wrap of the tick counter. The MII answers
anything during the first calls `es`; then, during the calls `fs`, it is not busy and the PHY shows
a link throughout, or none throughout. If these are at least 86 calls, the task takes itself to be
connected at their end exactly if the PHY shows a link. -/
theorem link_settles (task : TTaskMACService) (t now : UInt32)
    (es fs : List (Mii × TQueue TCMessage)) (up : Bool) (hshows : ∀ e ∈ fs, Shows up e.1)
    (hlong : 86 ≤ fs.length) :
    (Run.final step (start task t now) (es ++ fs)).link.task.connected = up := by
  rw [Run.final_append]
  have hbefore : Settling up 86 (Run.final step (start task t now) es) :=
    Run.always_final (fun _ e h => h.any e) (settling_start up task t now) es
  have hshown : ∀ m ∈ Run.steps step (Run.final step (start task t now) es) fs, Shows up m.2.1 :=
    fun m hm => hshows m.2 (Run.mem_of_mem_steps hm)
  have hafter := Run.countdown_final (P := Settling up)
    (A := fun _ (e : Mii × TQueue TCMessage) => Shows up e.1) (fun _ _ _ h he => h.shows he) hbefore
    hshown
  rw [Nat.sub_eq_zero_of_le hlong] at hafter
  obtain ⟨l, hok, htimely, hrank⟩ := hafter
  exact connected_of_rank hok htimely (Nat.le_zero.1 hrank)

/-- A PHY with a link at 100 Mbit/s and full duplex, and one without. -/
def miiOf (up : Bool) : Mii :=
  ⟨false, fun reg => if reg = lan8BsrReg then if up then 0x7809 ||| 4 else 0x7809 else 0x18⟩

/-- The cable is plugged in for 100 ticks, just before the tick counter wraps, and then pulled for
86 ticks. -/
theorem link_settles_pulled :
    (∀ e ∈ List.replicate 86 (miiOf false, noMessages), Shows false e.1) ∧
      (Run.final LinkWatch.step (LinkWatch.start startedTask 0xFFFFFFF0 0xFFFFFFF1)
        (List.replicate 100 (miiOf true, noMessages) ++
          List.replicate 86 (miiOf false, noMessages))).link.task.connected = false := by
  have hshows : ∀ e ∈ List.replicate 86 (miiOf false, noMessages), Shows false e.1 := by
    intro e he
    rw [List.eq_of_mem_replicate he]
    exact ⟨rfl, by decide⟩
  exact ⟨hshows, link_settles startedTask _ _ _ _ false hshows (by simp)⟩

end KS3.Supervisor
