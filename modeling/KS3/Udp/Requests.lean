import KS3.Udp.Transmission

/-!
# Packet buffers and addressees

What becomes of a datagram that is received. Its packet buffer belongs to the entry of `rxQueue` and
is freed with it; but `push` reports nothing when the queue is full, and then the buffer belongs to
nobody. Its sender is remembered in `txData.raddr`, of which there is one: a reply goes to the
address of the datagram received last, whoever asked.

`packets_iff`: every packet buffer is in the queue or freed, once, at all times exactly when no
datagram is received while `rxQueue` is full. `replies_iff`: every reply is sent to the client that
asked exactly when, whenever one is sent, the last datagram was received from its client.
-/

namespace KS3.Udp.UdpIo

open Comm

variable {s : UdpIo}

/-! ## Packet buffers -/

/-- The packet buffers the entries of `rxQueue` refer to. -/
def queued (s : UdpIo) : List (Option ℕ) := s.rxQueue.toList.map UdpData.ex

/-- Every packet buffer received is in one entry and not freed, or in none and freed once. -/
def Owned (s : UdpIo) : Prop :=
  ∀ p < s.received, s.queued.count (some p) = 1 ∧ s.freed.count (some p) = 0 ∨
    s.queued.count (some p) = 0 ∧ s.freed.count (some p) = 1

/-- The packet buffers are freed in the order they are received in, and the rest is queued. -/
def Accounted (s : UdpIo) : Prop := s.freed ++ s.queued = (List.range s.received).map some

theorem Accounted.count (h : s.Accounted) (p : ℕ) :
    s.freed.count (some p) + s.queued.count (some p) = if p < s.received then 1 else 0 := by
  have hnodup : ((List.range s.received).map some).Nodup :=
    List.nodup_range.map (Option.some_injective ℕ)
  rw [← List.count_append, h]
  split_ifs with hp
  · exact List.count_eq_one_of_mem hnodup (List.mem_map_of_mem (List.mem_range.2 hp))
  · exact List.count_eq_zero_of_not_mem (by simpa using hp)

theorem Accounted.owned (h : s.Accounted) : s.Owned := by
  intro p hp
  have hcount := h.count p
  rw [if_pos hp] at hcount
  omega

/-- A pass loses no packet buffer unless a datagram is received with the queue full. -/
def Pass.Room (s : UdpIo) : Pass → Prop
  | .receive .. => ¬ s.rxQueue.isFull
  | _ => True

/-- `udp_receive_callback` remembers the address, and the connection is to be renewed if it was
another. -/
theorem receive_eq (s : UdpIo) (addr : UInt32) (payload len : ℕ) :
    ∃ update, s.receive addr payload len =
      { s with
        raddr := addr
        update := update
        rxQueue := s.rxQueue.push ⟨payload, len, some s.received, some addr⟩
        received := s.received + 1 } ∧
      (update = true ∨ s.raddr = addr ∧ update = s.update) := by
  unfold receive
  split_ifs with hnew
  · exact ⟨true, rfl, .inl rfl⟩
  · have haddr : s.raddr = addr := by
      by_contra hne
      exact hnew (.inl hne)
    exact ⟨s.update, by rw [← haddr], .inr ⟨haddr, rfl⟩⟩

theorem Accounted.pass (h : s.Accounted) {p : Pass} (hp : p.Room s) : (s.pass p).Accounted := by
  cases p with
  | receive addr payload len =>
    obtain ⟨update, heq, -⟩ := s.receive_eq addr payload len
    rw [UdpIo.pass, heq]
    have hqueue := s.rxQueue.toList_push ⟨payload, len, some s.received, some addr⟩
    rw [if_neg hp] at hqueue
    simp only [Accounted, queued, hqueue, List.map_append, List.map_singleton, List.range_succ]
    rw [← List.append_assoc]
    exact congrArg (· ++ [some s.received]) h
  | add data =>
    obtain ⟨_, _, _, _, hadd⟩ := s.add_frame none data
    rw [UdpIo.pass, hadd]
    exact h
  | rxPass replies =>
    rcases hd : s.rxQueue.toList with _ | ⟨d, ds⟩
    · rwa [UdpIo.pass, rxPass_of_nil hd]
    · obtain ⟨_, _, _, _, hpass⟩ := rxPass_frame hd replies
      rw [UdpIo.pass, hpass]
      simp only [Accounted, queued, hd, List.map_cons] at h
      simpa [Accounted, queued, TQueue.toList_pop, hd] using h
  | txPass connectOk sendOk =>
    obtain ⟨_, _, _, _, _, _, hpass⟩ := s.txPass_frame connectOk sendOk
    rw [UdpIo.pass, hpass]
    exact h

/-- A datagram that is received with the queue full loses its packet buffer. -/
theorem Accounted.not_owned (h : s.Accounted) (hfull : s.rxQueue.isFull) (addr : UInt32)
    (payload len : ℕ) : ¬ (s.receive addr payload len).Owned := by
  intro howned
  obtain ⟨update, heq, -⟩ := s.receive_eq addr payload len
  rw [heq, TQueue.push_of_full _ hfull] at howned
  have hcount := h.count s.received
  rw [if_neg (lt_irrefl _)] at hcount
  rcases howned s.received (Nat.lt_succ_self _) with ⟨hqueued, -⟩ | ⟨-, hfreed⟩
  · change s.queued.count _ = 1 at hqueued
    omega
  · change s.freed.count _ = 1 at hfreed
    omega

/-- **Packet buffers are neither lost nor freed twice.** In every run of calls after `init`, after
every callback and every pass of the loops each packet buffer received is in one entry of `rxQueue`
and not freed, or in none and freed once, exactly when no datagram is received while `rxQueue` is
full. -/
theorem packets_iff (memory : Mem) (raw : ℕ) (cells : ℕ → UdpData) (inited : Bool)
    (cs : List Call) :
    (∀ pre, pre <+: cs.flatMap Call.passes →
        (Run.final pass (init memory raw cells inited) pre).Owned) ↔
      ∀ m ∈ Run.steps pass (init memory raw cells inited) (cs.flatMap Call.passes),
        m.2.Room m.1 := by
  have h₀ : (init memory raw cells inited).Accounted := rfl
  refine Run.forall_prefix_iff (A := fun s (p : Pass) => p.Room s) (fun _ h => h.owned)
    (fun s p h => ⟨fun howned => ?_, fun hp => (h.pass hp).owned⟩) (fun _ _ h hp => h.pass hp) h₀
  cases p with
  | receive addr payload len => exact fun hfull => h.not_owned hfull addr payload len howned
  | _ => trivial

/-- Five datagrams before the first is processed: the packet buffer of the fifth is lost. -/
theorem packets_lost :
    ¬ (Run.final call initial ((List.range 5).map fun n => .receive 7 (10000 * (n + 1)) 4)).Owned :=
    by
  intro h
  exact absurd (h 4 (by decide)) (by decide +kernel)

/-! ## Addressees -/

/-- The connection stands to the address of the last datagram, unless it is to be renewed. -/
def Linked (s : UdpIo) : Prop := s.connected → ¬ s.update → s.remoteIp = s.raddr

/-- Every datagram sent in reply to a request goes to the client that asked. -/
def Answers (s : UdpIo) : Prop := ∀ c ∈ s.sends, ∀ client, c.client = some client →
  c.remoteIp = client

/-- When a datagram is sent in reply to a request, the last datagram came from the same client. -/
def Pass.Current (s : UdpIo) : Pass → Prop
  | .txPass connectOk _ => s.Transmits connectOk → ∀ d, s.txQueue.front = some d →
    ∀ client, d.client = some client → s.raddr = client
  | _ => True

/-- `raddr` is the address of the last datagram received. -/
theorem pass_raddr (s : UdpIo) (p : Pass) :
    (s.pass p).raddr = match p with
      | .receive addr _ _ => addr
      | _ => s.raddr := by
  cases p with
  | receive addr payload len =>
    obtain ⟨update, heq, -⟩ := s.receive_eq addr payload len
    rw [pass, heq]
  | add data =>
    obtain ⟨_, _, _, _, hadd⟩ := s.add_frame none data
    rw [pass, hadd]
  | rxPass replies =>
    rcases hd : s.rxQueue.toList with _ | ⟨d, ds⟩
    · rw [pass, rxPass_of_nil hd]
    · obtain ⟨_, _, _, _, hpass⟩ := rxPass_frame hd replies
      rw [pass, hpass]
  | txPass connectOk sendOk =>
    obtain ⟨_, _, _, _, _, _, hpass⟩ := s.txPass_frame connectOk sendOk
    rw [pass, hpass]

/-- A datagram is sent to the address of the last one received. -/
theorem Linked.target_eq (h : s.Linked) {connectOk : Bool} (htr : s.Transmits connectOk) :
    s.target = s.raddr := by
  unfold target
  split_ifs with hupdate
  · rfl
  · have hlink := htr.2
    rw [if_neg hupdate] at hlink
    exact h hlink hupdate

theorem Linked.txPass (h : s.Linked) (connectOk sendOk : Bool) :
    (s.txPass connectOk sendOk).Linked ∧ ((s.txPass connectOk sendOk).Answers ↔
      s.Answers ∧ Pass.Current s (.txPass connectOk sendOk)) := by
  by_cases htr : s.Transmits connectOk
  · rcases hd : s.txQueue.toList with _ | ⟨d, ds⟩
    · rw [txPass_of_nil hd]
      refine ⟨h, (and_iff_left fun _ d hfront => ?_).symm⟩
      rw [TQueue.front_eq, hd] at hfront
      cases hfront
    · have htarget := h.target_eq htr
      have hsent : ∀ t : UdpIo, t.sends = (s.sent d sendOk).sends →
          (t.Answers ↔ s.Answers ∧ Pass.Current s (.txPass connectOk sendOk)) := by
        intro t ht
        simp only [Answers, ht, sent, List.forall_mem_append, List.forall_mem_singleton, htarget,
          Pass.Current, htr, TQueue.front_eq, hd, List.head?_cons, Option.some.injEq,
          forall_eq', true_imp_iff]
      rw [txPass_of_transmits htr hd]
      split_ifs
      · exact ⟨fun _ _ => htarget, hsent _ rfl⟩
      · exact ⟨fun _ _ => htarget, hsent _ rfl⟩
  · have hcurrent : Pass.Current s (.txPass connectOk sendOk) := fun htr' => absurd htr' htr
    rcases txPass_of_not_transmits htr sendOk with heq | ⟨hupdate, r, heq⟩
    · rw [heq]
      exact ⟨h, (and_iff_left hcurrent).symm⟩
    · rw [heq]
      exact ⟨fun hconn => absurd hconn Bool.false_ne_true, (and_iff_left hcurrent).symm⟩

/-- One pass: what is sent goes to the address of the last datagram received. -/
theorem Linked.pass (h : s.Linked) (p : Pass) :
    (s.pass p).Linked ∧ ((s.pass p).Answers ↔ s.Answers ∧ p.Current s) := by
  cases p with
  | receive addr payload len =>
    obtain ⟨update, heq, hupdate⟩ := s.receive_eq addr payload len
    rw [UdpIo.pass, heq]
    refine ⟨fun hconn hnot => ?_, (and_iff_left trivial).symm⟩
    rcases hupdate with rfl | ⟨rfl, rfl⟩
    · exact absurd rfl hnot
    · exact h hconn hnot
  | add data =>
    obtain ⟨_, _, _, _, hadd⟩ := s.add_frame none data
    rw [UdpIo.pass, hadd]
    exact ⟨h, (and_iff_left trivial).symm⟩
  | rxPass replies =>
    rcases hd : s.rxQueue.toList with _ | ⟨d, ds⟩
    · rw [UdpIo.pass, rxPass_of_nil hd]
      exact ⟨h, (and_iff_left trivial).symm⟩
    · obtain ⟨_, _, _, _, hpass⟩ := rxPass_frame hd replies
      rw [UdpIo.pass, hpass]
      exact ⟨h, (and_iff_left trivial).symm⟩
  | txPass connectOk sendOk => exact h.txPass connectOk sendOk

/-- **Where replies go.** In every run of calls after `init`: every datagram passed to `udp_send`
that was produced while a request was processed is sent to the client that made the request exactly
when, each time such a datagram is passed to `udp_send`, its client is also the one the last
datagram was received from. -/
theorem replies_iff (memory : Mem) (raw : ℕ) (cells : ℕ → UdpData) (inited : Bool)
    (cs : List Call) :
    (∀ c ∈ (Run.final call (init memory raw cells inited) cs).sends, ∀ client,
        c.client = some client → c.remoteIp = client) ↔
      ∀ m ∈ Run.steps pass (init memory raw cells inited) (cs.flatMap Call.passes),
        m.2.Current m.1 := by
  have h₀ : (init memory raw cells inited).Linked := fun hconn => absurd hconn Bool.false_ne_true
  have hrun := Run.final_iff_of_invariant (I := Answers) (A := fun s (p : Pass) => p.Current s)
    (fun _ p h => (h.pass p).1) (fun _ p h => (h.pass p).2) h₀ (cs.flatMap Call.passes)
  rw [← run_eq] at hrun
  exact hrun.trans (and_iff_right nofun)

/-- A request from the address 1, another from 2, and then the reply to the first: it goes to 2. -/
theorem replies_misdirected :
    ¬ ∀ c ∈ (Run.final call initial [.receive 1 10000 4, .receive 2 20000 4,
        .processRxQueue [[small]], .processTxQueue [(true, true)]]).sends,
      ∀ client, c.client = some client → c.remoteIp = client := by
  intro h
  have hsend : ⟨2, small, true, some 1⟩ ∈ (Run.final call initial [.receive 1 10000 4,
      .receive 2 20000 4, .processRxQueue [[small]], .processTxQueue [(true, true)]]).sends := by
    decide +kernel
  exact absurd (h _ hsend 1 rfl) (by decide)

end KS3.Udp.UdpIo
