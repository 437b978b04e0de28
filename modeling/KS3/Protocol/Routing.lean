import KS3.Protocol.Replies
import KS3.Protocol.Delivery
import KS3.Protocol.Parsing

/-!
# Where replies go

Serial frames and datagrams share one instance: its packet, its limit, its link, the source address
it remembers. `Exchange.Answered` says that the packets passed down while a frame or datagram was
processed carry the replies to its own messages, all of them, in order and undivided, on the link it
came from and to its source.

* `datagram_replies`: what a datagram of requests makes the handler get;
* `replies_routed`: every frame and datagram of any run of calls is answered, and nothing else is
  passed down.
-/

namespace KS3.Protocol

open DataIO SlaveMsgHandlers

/-! ## What the handlers keep -/

/-- A property that none of the handlers ends. -/
structure Handlers.Keeps {σ : Type*} (h : Handlers σ) (I : σ → Prop) : Prop where
  begin : ∀ s, I s → I (h.onBeginRxPacketProcess s)
  message : ∀ msg dest src s, I s → I (h.processRxMessage msg dest src s)
  finish : ∀ src s, I s → I (h.onEndRxPacketProcess src s)

namespace Handlers.Keeps

variable {σ : Type*} {h : Handlers σ} {I : σ → Prop} (hk : h.Keeps I)

include hk

theorem handlePacket {p p' : TProtocol} {s s' : σ} (hs : I s)
    (heq : p.handlePacket h s = some (p', s')) : I s' := by
  simp only [TProtocol.handlePacket] at heq
  split at heq
  · cases heq
  · rename_i hloop
    simp only [Option.some.injEq, Prod.mk.injEq] at heq
    rw [← heq.2]
    exact hk.finish _ _ (Layer3Rx.forMessages_keeps (fun _ _ hs => hk.message _ _ _ _ hs)
      (hk.begin s hs) hloop)

theorem rxBytes {bytes : List UInt8} {rc : ℤ} {p : TProtocol} {s : σ} {o : InputOut σ} (hs : I s)
    (heq : p.rxBytes h bytes rc s = some o) : I o.handled := by
  induction bytes generalizing rc p s with
  | nil =>
    simp only [TProtocol.rxBytes, Option.some.injEq] at heq
    rwa [← heq]
  | cons b bs ih =>
    rw [TProtocol.rxBytes] at heq
    split_ifs at heq with hready hlt
    · split at heq
      · cases heq
      · rename_i p' s' hpacket
        exact ih (hk.handlePacket hs hpacket) heq
    · simp only [Option.some.injEq] at heq
      rwa [← heq]
    · exact ih hs heq

theorem processInputAppData {p p' : TProtocol} {buffer : Mem} {n dest src : UInt16} {s s' : σ}
    {count : ℤ} (hs : I s)
    (heq : p.processInputAppData h buffer n dest src s = some (count, p', s')) : I s' := by
  simp only [TProtocol.processInputAppData] at heq
  split at heq
  · cases heq
  · rename_i hloop
    simp only [Option.some.injEq, Prod.mk.injEq] at heq
    rw [← heq.2.2]
    exact hk.finish _ _ (Layer3Rx.forMessages_keeps (I := fun x : σ × ℤ => I x.1)
      (fun _ _ hs => hk.message _ _ _ _ hs) (hk.begin s hs) hloop)

end Handlers.Keeps

/-! ## One frame or datagram -/

/-- The request in a delivered message, if it is to be answered. -/
def Request.due (r : Request) : Option Query := Protocol.due r.dest (Mem.ofList r.message)

/-- The packets carry one reply to each request that is to be answered, in order, and only these. -/
def Exchange.Answered (e : Exchange) : Prop :=
  ∃ groups, List.Forall₂ (Carries e.link e.src) groups e.packets ∧
    List.Forall₂ Query.Answers (e.requests.filterMap Request.due) groups.flatten

theorem IsQuery.ofMem_messageBytes {msg : Mem} (h : IsQuery msg) :
    Query.ofMem (Mem.ofList (messageBytes msg)) = Query.ofMem msg := by
  rcases h with hid | hid
  · have hbytes : messageBytes msg = msg.read 0 8 := by
      rw [messageBytes, messageSize, hid]
      rfl
    simp only [Query.ofMem, hbytes, Mem.ofList_read _ (show 0 < 8 by omega),
      Mem.ofList_read _ (show 1 < 8 by omega), Mem.word_ofList_read _ (show 2 + 1 < 8 by omega),
      Mem.word_ofList_read _ (show 4 + 1 < 8 by omega),
      Mem.word_ofList_read _ (show 6 + 1 < 8 by omega)]
  · have hbytes : messageBytes msg = msg.read 0 4 := by
      rw [messageBytes, messageSize, hid]
      rfl
    have hne : msg 0 ≠ msgParameterWrite := by
      rw [hid]
      decide
    simp only [Query.ofMem, hbytes, Mem.ofList_read _ (show 0 < 4 by omega), if_neg hne,
      Mem.ofList_read _ (show 1 < 4 by omega), Mem.word_ofList_read _ (show 2 + 1 < 4 by omega)]

/-- The requests of a datagram that are to be answered. -/
theorem filterMap_due {dest : UInt16} {requests : List Request} {queries : List Query}
    (hmessages : requests.map Request.message = queries.map Query.bytes)
    (hdest : ∀ r ∈ requests, r.dest = dest) :
    requests.filterMap Request.due = queries.filter (Query.needsReply dest) := by
  induction queries generalizing requests with
  | nil =>
    rw [List.map_nil, List.map_eq_nil_iff] at hmessages
    rw [hmessages]
    rfl
  | cons q queries ih =>
    obtain ⟨r, requests, rfl, hmessage, hrest⟩ := List.map_eq_cons_iff.1 hmessages
    rw [List.forall_mem_cons] at hdest
    have hdue : r.due = if q.needsReply dest then some q else none := by
      rw [Request.due, due, hmessage, Query.ofMem_bytes, hdest.1, Option.filter_some]
    rw [List.filterMap_cons, hdue, List.filter_cons, ih hrest hdest.2]
    split_ifs <;> rfl

section Session

variable {τ : Type*} (dev : Device τ) {t : ProtocolType} {dest src : UInt16}
  {s₀ s : Session τ}

/-- A frame or datagram is being processed, which began in the session `s₀`. -/
structure Serving (t : ProtocolType) (dest src : UInt16) (s₀ s : Session τ) : Prop where
  exchanges_eq : s.exchanges = s₀.exchanges
  before_eq : s.before = s₀.inst.packets.length
  addresses : ∀ r ∈ s.requests, r.dest = dest ∧ r.src = src
  filling : ∃ replies,
    List.Forall₂ Query.Answers (s.requests.filterMap Request.due) replies ∧
    Filling t src s₀.inst.packets replies s.inst

/-- It has been processed as the exchange `e`. -/
structure Closes (t : ProtocolType) (e : Exchange) (s₀ s : Session τ) : Prop where
  limit_eq : s.inst.layer3.maxTxAppSize = (HiIo.limit t).toNat
  linkID_eq : s.inst.linkID = HiIo.link t
  exchanges_eq : s.exchanges = s₀.exchanges ++ [e]
  packets_eq : s.inst.packets = s₀.inst.packets ++ e.packets
  link_eq : e.link = HiIo.link t
  answered : e.Answered

theorem Serving.begin (hlimit : s.inst.layer3.maxTxAppSize = (HiIo.limit t).toNat)
    (hlink : s.inst.linkID = HiIo.link t) :
    Serving t dest src s ((hiIoHandlers dev (HiIo.link t)).onBeginRxPacketProcess s) where
  exchanges_eq := rfl
  before_eq := rfl
  addresses := by simp [hiIoHandlers]
  filling := ⟨[], .nil, .start hlimit hlink⟩

variable (hhandler : dev.processTxAppData.isSome)

include hhandler in
theorem Serving.message (h : Serving t dest src s₀ s) {msg : Mem} (hmsg : IsQuery msg) :
    Serving t dest src s₀
      ((hiIoHandlers dev (HiIo.link t)).processRxMessage msg dest src s) where
  exchanges_eq := h.exchanges_eq
  before_eq := h.before_eq
  addresses := by
    intro r hr
    rcases List.mem_append.1 hr with hr | hr
    · exact h.addresses r hr
    · rw [List.mem_singleton.1 hr]
      exact ⟨rfl, rfl⟩
  filling := by
    obtain ⟨replies, hanswers, hfilling⟩ := h.filling
    obtain ⟨new, hnew, hfilling'⟩ := rxMessageHandler_filling dev hhandler
      (hfilling.congr (q := { s.inst with srcAddress := src }) rfl rfl rfl) rfl hmsg dest
    refine ⟨replies ++ new, ?_, hfilling'⟩
    have hdue : Request.due ⟨messageBytes msg, dest, src⟩ = due dest msg := by
      rw [Request.due, due, hmsg.ofMem_messageBytes, due]
    have hlast : [(⟨messageBytes msg, dest, src⟩ : Request)].filterMap Request.due =
        (due dest msg).toList := by
      rw [List.filterMap_cons, hdue]
      cases due dest msg <;> rfl
    simp only [hiIoHandlers, List.filterMap_append, hlast]
    exact List.rel_append hanswers hnew

include hhandler in
theorem Serving.finish (h : Serving t dest src s₀ s) :
    ∃ e, e.src = src ∧ e.requests = s.requests ∧ Closes t e s₀
      ((hiIoHandlers dev (HiIo.link t)).onEndRxPacketProcess src s) := by
  obtain ⟨replies, hanswers, hfilling⟩ := h.filling
  obtain ⟨hlimit, hlink, groups, packets, hpackets, hgroups, hreplies⟩ :=
    (hfilling.congr (q := { s.inst with srcAddress := src }) rfl rfl rfl).finish dev hhandler rfl
      (Query.ne_nil_of_answers hanswers)
  have hdrop : (({ s.inst with srcAddress := src } : TProtocolInstance τ).sendPending
      dev.toLower).packets.drop s.before = packets := by
    rw [hpackets, h.before_eq, List.drop_left]
  refine ⟨⟨HiIo.link t, src, s.requests, packets⟩, rfl, rfl, hlimit, hlink, ?_, hpackets, rfl,
    groups, hgroups, ?_⟩
  · simp only [hiIoHandlers, hdrop, h.exchanges_eq]
  · rwa [hreplies]

theorem noStandstill_of_queries {m : Mem} {n : ℕ} (h : Layer3Rx.Handed IsQuery m n) :
    NoStandstill m n := by
  intro i hi hlt hstill
  rcases h i 0 hi hlt (messageSize_eq_zero.2 hstill) (by omega) with hid | hid
  · exact absurd (hstill.1.symm.trans hid) (by decide)
  · exact absurd (hstill.1.symm.trans hid) (by decide)

include hhandler in
/-- A datagram is processed as an exchange with its source, whose requests are the messages it is
made of. -/
theorem processInputAppData_closes (p : TProtocol) {buffer : Mem} {n : UInt16}
    (dest src : UInt16) (hqueries : Layer3Rx.Handed IsQuery buffer n.toNat)
    (hlimit : s.inst.layer3.maxTxAppSize = (HiIo.limit t).toNat)
    (hlink : s.inst.linkID = HiIo.link t) :
    ∃ count p' s' e,
      p.processInputAppData (hiIoHandlers dev (HiIo.link t)) buffer n dest src s =
        some (count, p', s') ∧
      e.src = src ∧ (∀ r ∈ e.requests, r.dest = dest ∧ r.src = src) ∧
      (∃ rc r, Layer3Rx.forMessages Layer3Rx.keepBytes (n.toNat + 1)
        (Layer3Rx.setRxAppData buffer n) [] = some (rc, r, e.requests.map Request.message)) ∧
      Closes t e s s' := by
  obtain ⟨⟨rc, layer3, s', count⟩, hloop, hserving⟩ := Layer3Rx.forMessages_invariant
    (h := counting (hiIoHandlers dev (HiIo.link t)) dest src)
    (I := fun x : Session τ × ℤ => Serving t dest src s x.1) n.toNat_lt
    (noStandstill_of_queries hqueries) hqueries
    (fun _ _ hmsg hs => hs.message dev hhandler hmsg) .start
    (s := ((hiIoHandlers dev (HiIo.link t)).onBeginRxPacketProcess s, 0))
    (Serving.begin dev hlimit hlink) (Nat.lt_succ_self (n.toNat - 0))
  obtain ⟨e, hsrc, hrequests, hcloses⟩ := hserving.finish dev hhandler
  refine ⟨count, _, _, e, processInputAppData_of_loop p hloop, hsrc,
    hrequests ▸ hserving.addresses, ⟨rc, layer3, ?_⟩, hcloses⟩
  -- the messages noted follow the loop that only keeps them
  have hmap := Layer3Rx.forMessages_map (g := Layer3Rx.keepBytes)
    (h := counting (hiIoHandlers dev (HiIo.link t)) dest src)
    (fun x => x.1.requests.map Request.message)
    (fun msg x => by simp [counting, hiIoHandlers, Layer3Rx.keepBytes]) (n.toNat - 0 + 1)
    ⟨buffer, 0, n.toNat⟩ ((hiIoHandlers dev (HiIo.link t)).onBeginRxPacketProcess s, 0)
  rw [hloop] at hmap
  rw [hrequests]
  exact hmap

/-! ## Calls -/

/-- Between frames and datagrams: what was passed down was passed down while one of them was
processed, and each is answered. -/
structure Settled (t : ProtocolType) (s : Session τ) : Prop where
  limit_eq : s.inst.layer3.maxTxAppSize = (HiIo.limit t).toNat
  linkID_eq : s.inst.linkID = HiIo.link t
  packets_eq : s.inst.packets = s.exchanges.flatMap Exchange.packets
  answered : ∀ e ∈ s.exchanges, e.Answered

end Session

/-- What happens to the upper link: octets of the serial line, a datagram, or anything that changes
the layers below. -/
inductive HiIoCall (τ : Type*)
  | processInputData (now : UInt32) (bytes : List UInt8)
  | processInputAppData (buffer : Mem) (n dest src : UInt16)
  | elsewhere (lower : τ)

namespace HiIo

variable {τ : Type*} (dev : Device τ)

/-- One call. -/
def call (s : HiIo τ) : HiIoCall τ → Option (HiIo τ)
  | .processInputData now bytes => s.processInputData dev now bytes
  | .processInputAppData buffer n dest src => s.processInputAppData dev buffer n dest src
  | .elsewhere lower =>
    some { s with session := { s.session with inst := { s.session.inst with lower := lower } } }

/-- Calls one after the other, if they all return. -/
def calls (s : HiIo τ) : List (HiIoCall τ) → Option (HiIo τ)
  | [] => some s
  | c :: cs => (s.call dev c).bind fun s => s.calls cs

/-- The upper link as it is constructed, with the given receiver and buffer and the state of what
lies below. -/
def construct (rx : TProtocol) (txPacket : Mem) (lower : τ) : HiIo τ where
  protocolType := .kProtocolDataIo
  rx := rx
  session := ⟨⟨⟨txPacket, 0, 244⟩, 0, .linkId0, lower, [], []⟩, [], 0, []⟩

/-- The limit of the packet is that of the type of protocol. -/
def Consistent (s : HiIo τ) : Prop :=
  s.session.inst.layer3.maxTxAppSize = (limit s.protocolType).toNat

theorem limit_switch {p : TProtocolInstance τ} {protocolType : ProtocolType}
    (h : p.layer3.maxTxAppSize = (limit protocolType).toNat) (t : ProtocolType) :
    (switch t protocolType p).layer3.maxTxAppSize = (limit t).toNat := by
  rw [switch]
  split_ifs with hne
  · rfl
  · rw [← not_not.1 hne, ← h]

theorem packets_switch (t protocolType : ProtocolType) (p : TProtocolInstance τ) :
    (switch t protocolType p).packets = p.packets := by
  rw [switch]
  split_ifs <;> rfl

/-- The handlers keep the limit of the packet, if those of other messages do. -/
theorem keeps_limit (hother : ∀ msg dest src p,
      (dev.handleOther msg dest src p).layer3.maxTxAppSize = p.layer3.maxTxAppSize)
    (origin : LinkId) (max : ℕ) :
    (hiIoHandlers dev origin).Keeps fun s => s.inst.layer3.maxTxAppSize = max where
  begin _ hs := hs
  message msg dest src s hs := by
    have hreply : ∀ (p : TProtocolInstance τ) reply,
        (addReply dev p reply).layer3.maxTxAppSize = p.layer3.maxTxAppSize := fun p reply =>
      TProtocolInstance.maxTxAppSize_addMessage ..
    simp only [hiIoHandlers, rxMessageHandler]
    split_ifs
    · simp only [handleMsgPWrite]
      split_ifs
      · exact (hreply ..).trans hs
      · exact hs
    · exact (hreply ..).trans hs
    · exact (hother ..).trans hs
  finish _ _ hs := (TProtocolInstance.maxTxAppSize_sendPending ..).trans hs

/-- **The limit follows the type of protocol** in every state that any calls lead to. -/
theorem consistent_calls (hother : ∀ msg dest src p,
      (dev.handleOther msg dest src p).layer3.maxTxAppSize = p.layer3.maxTxAppSize)
    {s s' : HiIo τ} (h : s.Consistent) {cs : List (HiIoCall τ)}
    (hcalls : s.calls dev cs = some s') : s'.Consistent := by
  induction cs generalizing s with
  | nil =>
    cases hcalls
    exact h
  | cons c cs ih =>
    obtain ⟨s₁, hcall, hcalls⟩ := Option.bind_eq_some_iff.1 hcalls
    refine ih ?_ hcalls
    cases c with
    | processInputData now bytes =>
      simp only [call, processInputData] at hcall
      split at hcall
      · cases hcall
      · rename_i o ho
        cases hcall
        exact (keeps_limit dev hother _ _).rxBytes (limit_switch h .kProtocolDataIo) ho
    | processInputAppData buffer n dest src =>
      simp only [call, processInputAppData] at hcall
      split at hcall
      · cases hcall
      · rename_i ho
        cases hcall
        exact (keeps_limit dev hother _ _).processInputAppData (limit_switch h .kProtocolApp) ho
    | elsewhere lower =>
      cases hcall
      exact h

variable (hhandler : dev.processTxAppData.isSome)

include hhandler in
/-- `processInputAppData` with requests returns, and is one exchange. -/
theorem processInputAppData_exchange {s : HiIo τ} (hs : s.Consistent) {buffer : Mem} {n : UInt16}
    (dest src : UInt16) (hqueries : Layer3Rx.Handed IsQuery buffer n.toNat) :
    ∃ s' e, s.processInputAppData dev buffer n dest src = some s' ∧
      s'.protocolType = .kProtocolApp ∧ e.src = src ∧
      (∀ r ∈ e.requests, r.dest = dest ∧ r.src = src) ∧
      (∃ rc r, Layer3Rx.forMessages Layer3Rx.keepBytes (n.toNat + 1)
        (Layer3Rx.setRxAppData buffer n) [] = some (rc, r, e.requests.map Request.message)) ∧
      Closes .kProtocolApp e
        { s.session with inst := switch .kProtocolApp s.protocolType s.session.inst }
        s'.session := by
  obtain ⟨count, rx, session, e, hcall, hsrc, haddr, hmessages, hcloses⟩ :=
    processInputAppData_closes dev hhandler s.rx dest src hqueries (t := .kProtocolApp)
      (s := { s.session with inst := switch .kProtocolApp s.protocolType s.session.inst })
      (limit_switch hs .kProtocolApp) rfl
  refine ⟨⟨.kProtocolApp, rx, session⟩, e, ?_, rfl, hsrc, haddr, hmessages, hcloses⟩
  rw [link] at hcall
  simp only [processInputAppData, hcall]

/-- A block of requests hands out requests. -/
theorem handed_queries {buffer : Mem} {n : ℕ} {queries : List Query}
    (hbuffer : buffer.read 0 n = (queries.map Query.bytes).flatten) :
    Layer3Rx.Handed IsQuery buffer n := by
  have hmsgs : (queries.map Query.message).map Message.bytes = queries.map Query.bytes := by
    rw [List.map_map]
    rfl
  rw [← hmsgs] at hbuffer
  refine handed_flatten hbuffer fun a ha i hread => ?_
  obtain ⟨q, -, rfl⟩ := List.mem_map.1 ha
  have hid := buffer.eq_getD_of_read hread q.message.length_pos
  cases q with
  | write => exact .inl hid
  | read => exact .inr hid

/-- **Replies to a datagram.** Let `processInputAppData` be called, with a handler installed and for
an address other than the broadcast one, on a concatenation of writes and reads of parameters. It
returns, and the packets it hands to the handler hold, each at most 1472 octets and whole messages,
one reply of 12 octets to each read and to each write not numbered `0xFF`, in order and nothing
else: with the sequence number, the parameter number and for a write the value of the request. -/
theorem datagram_replies (hhandler : dev.processTxAppData.isSome) {s : HiIo τ} (hs : s.Consistent)
    (queries : List Query) (buffer : Mem) (n dest src : UInt16)
    (hbuffer : buffer.read 0 n.toNat = (queries.map Query.bytes).flatten)
    (hdest : dest ≠ protocolBroadcastAddress) :
    ∃ s' groups packets, s.processInputAppData dev buffer n dest src = some s' ∧
      s'.session.inst.packets = s.session.inst.packets ++ packets ∧
      List.Forall₂ (fun replies packet => replies.flatten.length ≤ 1472 ∧
        ∃ rc, packet = Packet.datagram replies.flatten rc) groups packets ∧
      List.Forall₂ (fun (q : Query) reply => q.Answers reply ∧ reply.length = 12)
        (queries.filter Query.numbered) groups.flatten := by
  obtain ⟨s', e, hcall, -, -, haddr, ⟨rc, r, hmessages⟩, hcloses⟩ :=
    processInputAppData_exchange dev hhandler hs dest src (handed_queries hbuffer)
  obtain ⟨groups, hcarries, hanswers⟩ := hcloses.answered
  -- the messages of the exchange are those of the datagram
  have hmsgs : (queries.map Query.message).map Message.bytes = queries.map Query.bytes := by
    rw [List.map_map]
    rfl
  have hlen : n.toNat = (queries.map Query.bytes).flatten.length := by
    rw [← hbuffer, Mem.length_read]
  have hcount : (queries.map Query.message).length < n.toNat + 1 := by
    rw [hlen, ← hmsgs]
    exact Nat.lt_succ_of_le (Message.length_le_flatten _)
  have hloop := forMessages_flatten n.toNat_lt (queries.map Query.message) (i := 0) (m := buffer)
    (by rw [hmsgs, hlen, Nat.zero_add]) (by rw [hmsgs, Nat.sub_zero, hbuffer]) [] hcount
  have hrequests : e.requests.map Request.message = queries.map Query.bytes := by
    have heq := hmessages.symm.trans hloop
    simp only [hmsgs, List.nil_append, Option.some.injEq, Prod.mk.injEq] at heq
    exact heq.2.2
  have hdue : e.requests.filterMap Request.due = queries.filter Query.numbered := by
    rw [filterMap_due hrequests fun r hr => (haddr r hr).1, Query.needsReply_of_ne hdest]
  rw [hdue] at hanswers
  refine ⟨s', groups, e.packets, hcall, ?_, ?_, ?_⟩
  · rw [hcloses.packets_eq, packets_switch]
  · rw [hcloses.link_eq] at hcarries
    exact hcarries.imp fun _ _ h => h.2
  · exact hanswers.imp fun _ _ h => ⟨h, (h.message fun _ => 0).1⟩

/-- A device with a handler that takes everything, and parameters that are all 7. -/
def quietDevice : Device Unit where
  layer2 := ⟨fun _ => 0, fun _ => 0, .stWait, 0, 0, 9, 0xFF, false⟩
  getTxFree _ := 1000
  write octets _ := (octets.length, ())
  processTxAppData := some fun payload _ => (payload.length, ())
  writeParameter _ _ _ := (0, ())
  readParameter _ _ := (0, 7, ())
  reserved _ := 0
  handleOther _ _ _ p := p

/-- A write and a read in one datagram. -/
theorem datagram_replies_two :
    let queries := [Query.write 1 5 42, Query.read 2 6]
    let s := construct TProtocol.listener (fun _ => 0) ()
    ∃ s' groups packets,
      s.processInputAppData quietDevice (Mem.ofList (queries.map Query.bytes).flatten) 12 9 1 =
        some s' ∧
      s'.session.inst.packets = s.session.inst.packets ++ packets ∧
      List.Forall₂ (fun replies packet => replies.flatten.length ≤ 1472 ∧
        ∃ rc, packet = Packet.datagram replies.flatten rc) groups packets ∧
      List.Forall₂ (fun (q : Query) reply => q.Answers reply ∧ reply.length = 12)
        (queries.filter Query.numbered) groups.flatten :=
  datagram_replies quietDevice rfl (s := construct TProtocol.listener (fun _ => 0) ()) rfl _ _ 12
    9 1 (by decide) (by decide)

end HiIo

end KS3.Protocol
