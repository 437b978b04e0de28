import KS3.Udp.UdpIo

/-!
# The transmit queue and its buffers

The entries of `txQueue` point to buffers of the pool, and `release` is called with the address in
an entry, also for the datagrams that were received. `Agrees` is the invariant: the buffers lent
out are those of the entries, each of them once.

`pool_agrees`: in every state reached the pool and the queue agree, and `addTxData` finds a buffer
whenever there is room in the queue. `transmit_in_order`: the payloads accepted by `addTxData` are,
in order and octet for octet, those `udp_send` has taken followed by those still in the queue.
-/

namespace KS3.Udp.UdpIo

open Comm

/-! ## The invariant -/

/-- An address that is none of the pool. -/
def Foreign (raw b : ℕ) : Prop := ∀ i < udpTxQSize, slot raw i ≠ b

/-- The pool and the queue agree: the buffers lent out are those of the entries. The datagrams that
were received have their payloads elsewhere. -/
structure Agrees (raw : ℕ) (s : UdpIo) : Prop where
  lent : s.udpBuffers.Lent (s.txQueue.toList.map UdpData.buffer)
  buffers_eq : s.udpBuffers.buffers = slot raw
  size_eq : s.udpBuffers.size = udpTxQSize
  queue_eq : s.txQueue.msgBufferSize = udpTxQSize
  foreign : ∀ d ∈ s.rxQueue.toList, Foreign raw d.buffer
  results : ∀ c ∈ s.calls, c.2 ≠ kRcTxBufferFull

theorem slot_inj {raw i j : ℕ} (h : slot raw i = slot raw j) : i = j := by
  simp only [slot, udpDataMaxSz] at h
  omega

theorem agrees_init (memory : Mem) (raw : ℕ) (cells : ℕ → UdpData) (inited : Bool) :
    (init memory raw cells inited).Agrees raw where
  lent := TBuffersPool.lent_init fun _ _ _ _ h => slot_inj h
  buffers_eq := rfl
  size_eq := rfl
  queue_eq := rfl
  foreign := nofun
  results := nofun

variable {raw : ℕ} {s t : UdpIo}

/-- The invariant is about the pool, the queues and the results only. -/
theorem Agrees.of_eq (h : s.Agrees raw) (hpool : t.udpBuffers = s.udpBuffers)
    (htx : t.txQueue = s.txQueue) (hrx : t.rxQueue = s.rxQueue) (hcalls : t.calls = s.calls) :
    t.Agrees raw where
  lent := by rw [hpool, htx]; exact h.lent
  buffers_eq := hpool ▸ h.buffers_eq
  size_eq := hpool ▸ h.size_eq
  queue_eq := htx ▸ h.queue_eq
  foreign := hrx ▸ h.foreign
  results := hcalls ▸ h.results

/-! ## `addTxData` -/

/-- The number of octets `addTxData` takes. -/
def taken (data : List UInt8) : ℕ := min data.length udpDataMaxSz

theorem taken_eq (data : List UInt8) :
    (if data.length > getMaxAppDataSize then getMaxAppDataSize else data.length) = taken data := by
  unfold taken getMaxAppDataSize
  by_cases h : data.length > udpDataMaxSz
  · rw [if_pos h, min_eq_right h.le]
  · rw [if_neg h, min_eq_left (not_lt.1 h)]

/-- The state after a call of `addTxData` that was given the buffer of index `i`. -/
def added (s : UdpIo) (raw i : ℕ) (client : Option UInt32) (data : List UInt8) : UdpIo :=
  { s with
    udpBuffers := s.udpBuffers.get.2
    memory := s.memory.write (slot raw i) (data.take (taken data))
    txQueue := s.txQueue.push ⟨slot raw i, taken data, none, client⟩
    calls := s.calls ++ [(data, (taken data : ℤ))] }

/-- **What `addTxData` does**: it is refused when the queue is full, and else there is a buffer. -/
theorem Agrees.add_cases (h : s.Agrees raw) (client : Option UInt32) (data : List UInt8) :
    s.add client data = { s with calls := s.calls ++ [(data, kRcTxQueueFull)] } ∨
      ¬ s.txQueue.isFull ∧ ∃ i, slot raw i ∉ s.txQueue.toList.map UdpData.buffer ∧
        s.add client data = s.added raw i client data ∧
        (s.added raw i client data).Agrees raw := by
  by_cases hfull : s.txQueue.isFull
  · refine .inl ?_
    simp [add, addTxData, hfull]
  refine .inr ⟨hfull, ?_⟩
  have hroom : s.txQueue.size < s.txQueue.msgBufferSize :=
    lt_of_le_of_ne s.txQueue.size_le fun heq => hfull (s.txQueue.full_iff.2 heq)
  have hlt : (s.txQueue.toList.map UdpData.buffer).length < s.udpBuffers.size := by
    rw [List.length_map, TQueue.length_toList, h.size_eq, ← h.queue_eq]
    exact hroom
  obtain ⟨i, -, hget, hnot, hlent, hbuffers, hsize⟩ := h.lent.get hlt
  rw [h.buffers_eq] at hget hnot hlent
  have hadd : s.add client data = s.added raw i client data := by
    rcases hpool : s.udpBuffers.get with ⟨b, pool⟩
    obtain rfl : b = some (slot raw i) := by rw [← hget, hpool]
    simp only [add, addTxData, hfull, hpool, added, taken_eq]
    rfl
  refine ⟨i, hnot, hadd, ?_⟩
  refine ⟨?_, hbuffers.trans h.buffers_eq, hsize.trans h.size_eq, ?_, h.foreign, fun c hc => ?_⟩
  · simpa [added, TQueue.toList_push, hfull] using hlent
  · exact (s.txQueue.msgBufferSize_push _).trans h.queue_eq
  · rcases List.mem_append.1 hc with hc | hc
    · exact h.results c hc
    · rw [List.mem_singleton.1 hc]
      simp only [kRcTxBufferFull]
      omega

theorem Agrees.refused (h : s.Agrees raw) (data : List UInt8) :
    ({ s with calls := s.calls ++ [(data, kRcTxQueueFull)] } : UdpIo).Agrees raw := by
  refine ⟨h.lent, h.buffers_eq, h.size_eq, h.queue_eq, h.foreign, fun c hc => ?_⟩
  rcases List.mem_append.1 hc with hc | hc
  · exact h.results c hc
  · rw [List.mem_singleton.1 hc]
    exact show kRcTxQueueFull ≠ kRcTxBufferFull by decide

theorem Agrees.add (h : s.Agrees raw) (client : Option UInt32) (data : List UInt8) :
    (s.add client data).Agrees raw := by
  rcases h.add_cases client data with hadd | ⟨-, i, -, hadd, hagrees⟩
  · rw [hadd]
    exact h.refused data
  · rw [hadd]
    exact hagrees

/-! ## The passes -/

/-- Processing a datagram adds its replies, and takes the datagram from the queue; its payload is
none of the pool. -/
theorem Agrees.rxPass_eq (h : s.Agrees raw) (replies : List (List UInt8)) :
    s.rxPass replies = s ∨ ∃ d ds, s.rxQueue.toList = d :: ds ∧ ∃ t, t.Agrees raw ∧
      t = Run.final (fun s => s.add d.client) s replies ∧
      s.rxPass replies = { t with freed := t.freed ++ [d.ex], rxQueue := t.rxQueue.pop } := by
  rw [rxPass, TQueue.front_eq]
  rcases hrx : s.rxQueue.toList with _ | ⟨d, ds⟩
  · exact .inl rfl
  have ht : (Run.final (fun s => s.add d.client) s replies).Agrees raw :=
    Run.always_final (I := Agrees raw) (fun _ data h => h.add d.client data) h replies
  refine .inr ⟨d, ds, rfl, _, ht, rfl, ?_⟩
  have hd : Foreign raw d.buffer := h.foreign d (hrx ▸ List.mem_cons_self)
  have hrelease := TBuffersPool.release_of_ne (p := (Run.final _ s replies).udpBuffers)
    (b := d.buffer) fun i hi => by
      rw [ht.buffers_eq]
      exact hd i (ht.size_eq ▸ hi)
  simp only [List.head?_cons, hrelease]

theorem Agrees.rxPass (h : s.Agrees raw) (replies : List (List UInt8)) :
    (s.rxPass replies).Agrees raw := by
  rcases h.rxPass_eq replies with heq | ⟨d, ds, -, t, ht, -, heq⟩
  · rwa [heq]
  · rw [heq]
    refine ⟨ht.lent, ht.buffers_eq, ht.size_eq, ht.queue_eq, fun e he => ?_, ht.results⟩
    exact ht.foreign e (List.mem_of_mem_tail (TQueue.toList_pop _ ▸ he))

theorem Agrees.receive (h : s.Agrees raw) {payload : ℕ} (hpayload : Foreign raw payload)
    (addr : UInt32) (len : ℕ) : (s.receive addr payload len).Agrees raw := by
  have hforeign : ∀ (q : TQueue UdpData) (d : UdpData), (∀ e ∈ q.toList, Foreign raw e.buffer) →
      Foreign raw d.buffer → ∀ e ∈ (q.push d).toList, Foreign raw e.buffer := by
    intro q d hq hd e he
    rw [TQueue.toList_push] at he
    split_ifs at he
    · exact hq e he
    · rcases List.mem_append.1 he with he | he
      · exact hq e he
      · exact List.mem_singleton.1 he ▸ hd
  unfold UdpIo.receive
  split_ifs
  all_goals
    exact ⟨h.lent, h.buffers_eq, h.size_eq, h.queue_eq, hforeign _ _ h.foreign hpayload, h.results⟩

theorem Agrees.txPass (h : s.Agrees raw) (connectOk sendOk : Bool) :
    (s.txPass connectOk sendOk).Agrees raw := by
  by_cases htr : s.Transmits connectOk
  · rcases hd : s.txQueue.toList with _ | ⟨d, ds⟩
    · rwa [txPass_of_nil hd]
    · rw [txPass_of_transmits htr hd]
      split_ifs
      · have hlent := h.lent
        rw [hd, List.map_cons] at hlent
        obtain ⟨hrest, hbuffers, hsize⟩ := hlent.release
        refine ⟨?_, hbuffers.trans h.buffers_eq, hsize.trans h.size_eq,
          (TQueue.msgBufferSize_pop _).trans h.queue_eq, h.foreign, h.results⟩
        simpa [TQueue.toList_pop, hd] using hrest
      · exact h.of_eq rfl rfl rfl rfl
  · rcases txPass_of_not_transmits htr sendOk with heq | ⟨-, r, heq⟩
    · rwa [heq]
    · rw [heq]
      exact h.of_eq rfl rfl rfl rfl

/-- What is promised of a pass: the payload of a datagram that is received is none of the pool. -/
def Pass.Foreign (raw : ℕ) : Pass → Prop
  | .receive _ payload _ => UdpIo.Foreign raw payload
  | _ => True

theorem Agrees.pass (h : s.Agrees raw) {p : Pass} (hp : p.Foreign raw) :
    (s.pass p).Agrees raw := by
  cases p with
  | receive addr payload len => exact h.receive hp addr len
  | add data => exact h.add none data
  | rxPass replies => exact h.rxPass replies
  | txPass connectOk sendOk => exact h.txPass connectOk sendOk

theorem Agrees.run (h : s.Agrees raw) {cs : List Call}
    (hcs : ∀ p ∈ cs.flatMap Call.passes, p.Foreign raw) : (Run.final call s cs).Agrees raw := by
  rw [run_eq]
  exact Run.invariant_final (I := Agrees raw) (A := fun _ p => p.Foreign raw)
    (fun _ _ h hp => h.pass hp) h fun m hm => hcs _ (Run.mem_of_mem_steps hm)

/-- **The pool and the queue stay in agreement.** In every state reached after `init` by any calls,
where the payloads of received datagrams are none of the pool's buffers: the busy buffers are those
the entries of `txQueue` refer to, each of them once; `freeN` is the number of free buffers and the
room in `txQueue`; and no call of `addTxData` has returned `kRcTxBufferFull`. -/
theorem pool_agrees (memory : Mem) (raw : ℕ) (cells : ℕ → UdpData) (inited : Bool)
    (cs : List Call) (hcs : ∀ p ∈ cs.flatMap Call.passes, p.Foreign raw) {s : UdpIo}
    (hs : Run.final call (init memory raw cells inited) cs = s) :
    (∀ b, (∃ i < udpTxQSize, s.udpBuffers.buffers i = b ∧ s.udpBuffers.state i = .kStBusy) ↔
        b ∈ s.txQueue.toList.map UdpData.buffer) ∧
      (s.txQueue.toList.map UdpData.buffer).Nodup ∧
      s.udpBuffers.freeN = (s.udpBuffers.inState .kStFree).length ∧
      s.udpBuffers.freeN = udpTxQSize - s.txQueue.size ∧
      ∀ c ∈ s.calls, c.2 ≠ kRcTxBufferFull := by
  have h : s.Agrees raw := hs ▸ (agrees_init memory raw cells inited).run hcs
  refine ⟨fun b => ?_, h.lent.nodup, h.lent.freeN_eq, ?_, h.results⟩
  · rw [h.lent.busy_iff, h.size_eq]
  · have hadd := h.lent.freeN_add
    rw [List.length_map, TQueue.length_toList, h.size_eq] at hadd
    omega

/-- The state after a successful `init`, with zeros in the memory. -/
def initial : UdpIo := init (fun _ => 0) 0 (fun _ => ⟨0, 0, none, none⟩) true

/-- A datagram of two octets. -/
def small : List UInt8 := [1, 2]

/-- A request, two replies, and their transmission: the second fails and is made again. -/
def exchange : List Call :=
  [.receive 7 10000 4, .processRxQueue [[small, small]],
    .processTxQueue [(true, true), (true, false), (true, true)]]

theorem exchange_foreign : ∀ p ∈ exchange.flatMap Call.passes, p.Foreign 0 := by
  simp [exchange, Call.passes, Pass.Foreign, UdpIo.Foreign, slot, udpTxQSize, udpDataMaxSz]
  omega

/-- The agreement after the exchange. -/
theorem pool_agrees_exchange :
    (∀ p ∈ exchange.flatMap Call.passes, p.Foreign 0) ∧
      (Run.final call initial exchange).udpBuffers.freeN =
        udpTxQSize - (Run.final call initial exchange).txQueue.size :=
  ⟨exchange_foreign, (pool_agrees (fun _ => 0) 0 (fun _ => ⟨0, 0, none, none⟩) true exchange
    exchange_foreign rfl).2.2.2.1⟩

/-! ## The payloads -/

/-- The payloads `addTxData` has accepted. -/
def accepted (s : UdpIo) : List (List UInt8) := (s.calls.filter fun c => c.2 > 0).map Prod.fst

/-- The payloads `udp_send` has taken. -/
def delivered (s : UdpIo) : List (List UInt8) :=
  (s.sends.filter fun c => c.ok).map UdpSend.payload

/-- The payloads in the queue, as they stand in the memory. -/
def pending (s : UdpIo) : List (List UInt8) :=
  s.txQueue.toList.map fun d => s.memory.read d.buffer d.size

/-- The payloads are neither lost nor changed. -/
structure Intact (s : UdpIo) : Prop where
  sizes : ∀ d ∈ s.txQueue.toList, 0 < d.size ∧ d.size ≤ udpDataMaxSz
  stream : s.accepted = s.delivered ++ s.pending

theorem intact_init (memory : Mem) (raw : ℕ) (cells : ℕ → UdpData) (inited : Bool) :
    (init memory raw cells inited).Intact := ⟨nofun, rfl⟩

/-- Data `addTxData` takes as they are. -/
def Sized (data : List UInt8) : Prop := 0 < data.length ∧ data.length ≤ udpDataMaxSz

/-- A copy to a buffer that is not lent out leaves the payloads in the queue. -/
theorem Agrees.read_write (h : s.Agrees raw) {i : ℕ}
    (hi : slot raw i ∉ s.txQueue.toList.map UdpData.buffer) {bs : List UInt8}
    (hbs : bs.length ≤ udpDataMaxSz) {d : UdpData} (hd : d ∈ s.txQueue.toList)
    (hsize : d.size ≤ udpDataMaxSz) :
    (s.memory.write (slot raw i) bs).read d.buffer d.size = s.memory.read d.buffer d.size := by
  have hmem : d.buffer ∈ s.txQueue.toList.map UdpData.buffer := List.mem_map_of_mem hd
  obtain ⟨j, -, hj, -⟩ := (h.lent.busy_iff _).1 hmem
  rw [h.buffers_eq] at hj
  have hne : j ≠ i := by
    rintro rfl
    exact hi (hj ▸ hmem)
  rw [← hj]
  simp only [slot, udpDataMaxSz] at *
  rcases lt_or_gt_of_ne hne with hlt | hgt
  · exact Mem.read_write_of_le _ (by omega) bs
  · exact Mem.read_write_of_ge _ bs (by omega)

theorem Intact.add (h : s.Intact) (ha : s.Agrees raw) (client : Option UInt32) {data : List UInt8}
    (hdata : Sized data) : (s.add client data).Intact := by
  rcases ha.add_cases client data with hadd | ⟨hroom, i, hi, hadd, -⟩
  · rw [hadd]
    refine ⟨h.sizes, ?_⟩
    rw [show accepted _ = s.accepted by simp [accepted, kRcTxQueueFull]]
    exact h.stream
  · have htaken : taken data = data.length := min_eq_left hdata.2
    have hqueue : (s.added raw i client data).txQueue.toList =
        s.txQueue.toList ++ [⟨slot raw i, data.length, none, client⟩] := by
      simp [added, TQueue.toList_push, hroom, htaken]
    rw [hadd]
    refine ⟨fun d hd => ?_, ?_⟩
    · rw [hqueue, List.mem_append, List.mem_singleton] at hd
      rcases hd with hd | rfl
      · exact h.sizes d hd
      · exact hdata
    · have hmemory : (s.added raw i client data).memory = s.memory.write (slot raw i) data := by
        simp [added, htaken]
      have hpending : (s.added raw i client data).pending = s.pending ++ [data] := by
        rw [pending, hqueue, List.map_append, hmemory, pending]
        congr 1
        · exact List.map_congr_left fun d hd => ha.read_write hi hdata.2 hd (h.sizes d hd).2
        · simp [Mem.read_write]
      have haccepted : (s.added raw i client data).accepted = s.accepted ++ [data] := by
        have hpos : (0 : ℤ) < (data.length : ℤ) := by exact_mod_cast hdata.1
        simp only [accepted, added, htaken, List.filter_append, List.map_append]
        rw [List.filter_cons_of_pos (by simpa using hpos)]
        rfl
      rw [haccepted, hpending, h.stream, List.append_assoc]
      rfl

theorem Intact.txPass (h : s.Intact) (connectOk sendOk : Bool) :
    (s.txPass connectOk sendOk).Intact := by
  by_cases htr : s.Transmits connectOk
  · rcases hd : s.txQueue.toList with _ | ⟨d, ds⟩
    · rwa [txPass_of_nil hd]
    · have hsizes := h.sizes
      rw [hd, List.forall_mem_cons] at hsizes
      rw [txPass_of_transmits htr hd]
      cases sendOk with
      | true =>
        rw [if_pos ⟨rfl, hsizes.1.1⟩]
        refine ⟨by simpa [TQueue.toList_pop, hd] using hsizes.2, ?_⟩
        have hstream := h.stream
        simp only [pending, hd, List.map_cons] at hstream
        simpa [accepted, delivered, pending, sent, TQueue.toList_pop, hd] using hstream
      | false =>
        rw [if_neg fun h => Bool.false_ne_true h.1]
        refine ⟨h.sizes, ?_⟩
        rw [show delivered _ = s.delivered by simp [delivered, sent]]
        exact h.stream
  · rcases txPass_of_not_transmits htr sendOk with heq | ⟨-, r, heq⟩
    · rwa [heq]
    · rw [heq]
      exact ⟨h.sizes, h.stream⟩

/-- What is promised of a pass: all data passed to `addTxData` have an admissible size. -/
def Pass.Sized : Pass → Prop
  | .add data => UdpIo.Sized data
  | .rxPass replies => ∀ data ∈ replies, UdpIo.Sized data
  | _ => True

theorem Intact.pass (h : s.Intact) (ha : s.Agrees raw) {p : Pass} (hp : p.Sized) :
    (s.pass p).Intact := by
  cases p with
  | receive addr payload len =>
    simp only [UdpIo.pass, UdpIo.receive]
    split_ifs <;> exact ⟨h.sizes, h.stream⟩
  | add data => exact h.add ha none hp
  | rxPass replies =>
    rcases ha.rxPass_eq replies with heq | ⟨d, ds, -, t, -, ht, heq⟩
    · rwa [UdpIo.pass, heq]
    · have hrun : t.Agrees raw ∧ t.Intact := by
        rw [ht]
        refine Run.invariant_final (I := fun s : UdpIo => s.Agrees raw ∧ s.Intact)
          (A := fun _ data => UdpIo.Sized data)
          (fun _ data h hdata => ⟨h.1.add d.client data, h.2.add h.1 d.client hdata⟩) ⟨ha, h⟩
          fun m hm => hp _ (Run.mem_of_mem_steps hm)
      rw [UdpIo.pass, heq]
      exact ⟨hrun.2.sizes, hrun.2.stream⟩
  | txPass connectOk sendOk => exact h.txPass connectOk sendOk

/-- **The transmit queue loses and repeats nothing.** In every state reached after `init` by any
calls, with data of 1 to 1440 octets for `addTxData` and the payloads of received datagrams outside
the pool, whatever `udp_connect` and `udp_send` answer: the payloads accepted so far are those
`udp_send` has taken, followed by those the entries of `txQueue` refer to. -/
theorem transmit_in_order (memory : Mem) (raw : ℕ) (cells : ℕ → UdpData) (inited : Bool)
    (cs : List Call) (hcs : ∀ p ∈ cs.flatMap Call.passes, p.Foreign raw ∧ p.Sized) {s : UdpIo}
    (hs : Run.final call (init memory raw cells inited) cs = s) :
    s.accepted = s.delivered ++ s.pending := by
  suffices h : s.Agrees raw ∧ s.Intact from h.2.stream
  rw [← hs, run_eq]
  exact Run.invariant_final (I := fun s : UdpIo => s.Agrees raw ∧ s.Intact)
    (A := fun _ p => p.Foreign raw ∧ p.Sized)
    (fun _ _ h hp => ⟨h.1.pass hp.1, h.2.pass h.1 hp.2⟩)
    ⟨agrees_init memory raw cells inited, intact_init memory raw cells inited⟩
    fun m hm => hcs _ (Run.mem_of_mem_steps hm)

/-- The exchange, octet for octet. -/
theorem transmit_in_order_exchange :
    (∀ p ∈ exchange.flatMap Call.passes, p.Foreign 0 ∧ p.Sized) ∧
      (Run.final call initial exchange).accepted = [small, small] ∧
      (Run.final call initial exchange).accepted =
        (Run.final call initial exchange).delivered ++ (Run.final call initial exchange).pending :=
  have hcs : ∀ p ∈ exchange.flatMap Call.passes, p.Foreign 0 ∧ p.Sized := fun p hp =>
    ⟨exchange_foreign p hp, by
      revert p
      simp [exchange, Call.passes, Pass.Sized, UdpIo.Sized, small, udpDataMaxSz]⟩
  ⟨hcs, by decide +kernel, transmit_in_order (fun _ => 0) 0 (fun _ => ⟨0, 0, none, none⟩) true
    exchange hcs rfl⟩

end KS3.Udp.UdpIo
