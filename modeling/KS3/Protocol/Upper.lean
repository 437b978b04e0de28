import KS3.Protocol.Routing
import KS3.Protocol.Server
import KS3.Protocol.TMasterTx

/-!
# The device behind the upper link

`handlers` puts the upper link together with what it works on: the registers, the container of
blocks and the object in which blocks of parameters are put together. `RxMessageHandler` has a case
for each kind of message here.

* `datagram_served`: a datagram of commands, of any kinds and in any order, is answered as the
  server of the module `Server` answers them: the packets that are handed to the handler hold its
  replies, whole and in order, and the state afterwards is its state.
* `serial_number_guarded`: the guard of register 2, over any number of datagrams.
-/

namespace KS3.Protocol

open DataIO Buffers

/-! ## Blocks of messages -/

open Layer3Rx in
/-- The loop over a block of messages that stand for commands: what each command leads to from what
the commands before it have led to holds at the end. -/
theorem forMessages_history {κ σ : Type*} (f : κ → Message) {J : List κ → σ → Prop}
    {h : Mem → σ → σ} {m : Mem} {n : ℕ} (hn : n < 2 ^ 16)
    (hstep : ∀ done c s i, J done s → m.read i (f c).bytes.length = (f c).bytes →
      J (done ++ [c]) (h (m.shift i) s)) (cs : List κ) {done : List κ} {i : ℕ}
    (hi : i + ((cs.map f).map Message.bytes).flatten.length = n)
    (hread : m.read i (n - i) = ((cs.map f).map Message.bytes).flatten) {s : σ} (h₀ : J done s)
    {fuel : ℕ} (hfuel : cs.length < fuel) :
    ∃ o, forMessages h fuel ⟨m, i, n⟩ s = some o ∧ J (done ++ cs) o.2.2 := by
  induction cs generalizing done i s fuel with
  | nil =>
    obtain ⟨fuel, rfl⟩ := Nat.exists_eq_add_of_lt hfuel
    have hin : i = n := by simpa using hi
    refine ⟨_, forMessages_error (getMessagePtr_of_le hin.ge) _, ?_⟩
    rwa [List.append_nil]
  | cons c cs ih =>
    obtain ⟨fuel, rfl⟩ : ∃ k, fuel = k + 1 :=
      ⟨fuel - 1, by simp only [List.length_cons] at hfuel; omega⟩
    have hpos := (f c).length_pos
    rw [List.map_cons] at hi hread
    obtain ⟨-, hfirst, hrest⟩ := Message.read_cons hread
    simp only [List.map_cons, List.flatten_cons, List.length_append] at hi
    rw [forMessages_ok (getMessagePtr_mk hn (by omega) ((f c).messageSize_shift hfirst)
      (by omega))]
    obtain ⟨o, ho, hJ⟩ := ih (by omega) hrest (hstep done c s i h₀ hfirst)
      (by simpa using hfuel)
    refine ⟨o, ho, ?_⟩
    rwa [List.append_assoc, List.singleton_append] at hJ

/-! ## Replies of any kind -/

section Filling

variable {τ : Type*} (dev : Device τ) {t : ProtocolType} {src : UInt16} {base : List Packet}
  {replies : List (List UInt8)} {p : TProtocolInstance τ}

/-- A reply, by the two pointers that `addMessage` takes. -/
structure IsReply (msg data : Mem) (reply : List UInt8) : Prop where
  size : messageSize msg = some reply.length
  plain : ¬ Layer3Tx.Wraps msg
  encoded : encoded msg data = reply

/-- A reply for which there is room. -/
theorem Filling.addOne (h : Filling t src base replies p) {msg data : Mem} {reply : List UInt8}
    (hreply : IsReply msg data reply)
    (hroom : p.layer3.txIndex + reply.length ≤ p.layer3.maxTxAppSize) :
    (p.addMessage3 msg data).1 = 0 ∧
      Filling t src base (replies ++ [reply]) (p.addMessage3 msg data).2 := by
  have hlt : p.layer3.maxTxAppSize < 2 ^ 16 := h.limit_eq ▸ UInt16.toNat_lt _
  obtain ⟨copies, -, hadd⟩ := TProtocolInstance.addMessage3_eq ⟨h.index_le, hlt⟩ hreply.size
    hreply.plain data
  rw [hadd, if_pos hroom, hreply.encoded]
  have hindex : (p.layer3.append reply).txIndex = p.layer3.txIndex + reply.length :=
    Layer3Tx.txIndex_append (by omega)
  have hpayload' : (p.layer3.append reply).payload = p.layer3.payload ++ reply :=
    Layer3Tx.payload_append (by omega)
  refine ⟨rfl, h.limit_eq, h.link_eq, hindex.trans_le hroom, ?_⟩
  obtain ⟨groups, packets, pending, hpackets, hgroups, hpayload, hreplies⟩ := h.progress
  refine ⟨groups, packets, pending ++ [reply], hpackets, hgroups, ?_, ?_⟩
  · rw [hpayload', hpayload, List.flatten_append, List.flatten_singleton]
  · rw [← hreplies, List.append_assoc]

/-- **A reply of any kind is never lost**, if it fits a packet: when the packet is full, it is sent
first. -/
theorem Filling.addAny (hhandler : dev.processTxAppData.isSome)
    (h : Filling t src base replies p) (hsrc : p.srcAddress = src) {msg data : Mem}
    {reply : List UInt8} (hreply : IsReply msg data reply)
    (hfits : reply.length ≤ (HiIo.limit t).toNat) :
    Filling t src base (replies ++ [reply]) (p.addMessage dev.toLower msg data).2 := by
  by_cases hroom : p.layer3.txIndex + reply.length ≤ p.layer3.maxTxAppSize
  · obtain ⟨hrc, hadd⟩ := h.addOne hreply hroom
    have hne : (p.addMessage3 msg data).1 ≠ -1 := by
      rw [hrc]
      decide
    rw [TProtocolInstance.addMessage_of_ne dev.toLower hne]
    exact hadd
  · have hlt : p.layer3.maxTxAppSize < 2 ^ 16 := h.limit_eq ▸ UInt16.toNat_lt _
    obtain ⟨copies, -, hadd⟩ := TProtocolInstance.addMessage3_eq ⟨h.index_le, hlt⟩ hreply.size
      hreply.plain data
    rw [if_neg hroom] at hadd
    obtain ⟨hflush, hzero⟩ := h.flush dev hhandler hsrc
    have hroom' : (p.sendPending dev.toLower).layer3.txIndex + reply.length ≤
        (p.sendPending dev.toLower).layer3.maxTxAppSize := by
      rw [hzero, hflush.limit_eq, Nat.zero_add]
      exact hfits
    rw [TProtocolInstance.addMessage_of_full dev.toLower hadd]
    exact (hflush.addOne hreply hroom').2

/-- Between two states `n` octets have been added; if they fit the packet, no packet has been sent
off but those that are counted. -/
def Compact (n flushed : ℕ) (p p' : TProtocolInstance τ) : Prop :=
  p.layer3.txIndex + n ≤ 1472 → p'.layer3.txIndex ≤ p.layer3.txIndex + n ∧
    p'.packets.length ≤ p.packets.length + flushed

theorem compact_of_eq {q : TProtocolInstance τ} (hlayer3 : q.layer3 = p.layer3)
    (hpackets : q.packets = p.packets) : Compact 0 0 p q := by
  intro _
  rw [hlayer3, hpackets]
  exact ⟨le_rfl, le_rfl⟩

theorem Compact.trans {p₁ p₂ p₃ : TProtocolInstance τ} {n n' flushed flushed' : ℕ}
    (h : Compact n flushed p₁ p₂) (h' : Compact n' flushed' p₂ p₃) :
    Compact (n + n') (flushed + flushed') p₁ p₃ := by
  intro hfits
  obtain ⟨hindex, hpackets⟩ := h (by omega)
  obtain ⟨hindex', hpackets'⟩ := h' (by omega)
  exact ⟨by omega, by omega⟩

/-- What is pending is sent off. -/
theorem compact_sendPending (low : Lower τ) (hle : p.layer3.txIndex ≤ 1472) :
    Compact 0 1 p (p.sendPending low) := by
  intro _
  rw [TProtocolInstance.sendPending_eq]
  rcases TProtocolInstance.sendPacket_cases low (p := p) (by omega) none with
    ⟨-, hsend⟩ | ⟨packet, lower, txPacket, -, hsend⟩
  · rw [hsend]
    exact ⟨le_rfl, Nat.le_succ _⟩
  · rw [hsend]
    refine ⟨Nat.zero_le _, ?_⟩
    rw [List.length_append, List.length_singleton]

/-- A reply is added. -/
theorem Filling.compact (h : Filling .kProtocolApp src base replies p) (low : Lower τ)
    {msg data : Mem} {reply : List UInt8} (hreply : IsReply msg data reply) :
    Compact reply.length 0 p (p.addMessage low msg data).2 := by
  intro hfits
  have hlimit : p.layer3.maxTxAppSize = 1472 := h.limit_eq
  obtain ⟨copies, -, hadd⟩ := TProtocolInstance.addMessage3_eq
    ⟨h.index_le, by rw [hlimit]; decide⟩ hreply.size hreply.plain data
  rw [if_pos (by omega)] at hadd
  have hne : (p.addMessage3 msg data).1 ≠ -1 := by
    rw [hadd]
    exact (by decide : (0 : ℤ) ≠ -1)
  rw [TProtocolInstance.addMessage_of_ne low hne, hadd, hreply.encoded]
  exact ⟨(Layer3Tx.txIndex_append (by omega)).le, le_rfl⟩

end Filling

/-! ## The device -/

/-- What lies below the upper link, and what the program does not determine. -/
structure Surroundings (ρ : Type*) extends Lower ρ where
  debug : Bool
  now : ρ → UInt32
  unread : ρ → UInt32
  reserved : ρ → UInt16

/-- What the upper link works on, with the state of what lies below. -/
structure UpperState (ρ : Type*) where
  lower : ρ
  server : ServerState

namespace Surroundings

variable {ρ : Type*} (b : Surroundings ρ)

/-- What lies below knows nothing of the registers and the blocks. -/
def low : Lower (UpperState ρ) where
  layer2 := b.layer2
  getTxFree s := b.getTxFree s.lower
  write octets s :=
    let (rc, lower) := b.write octets s.lower
    (rc, { s with lower := lower })
  processTxAppData := b.processTxAppData.map fun processTxAppData payload s =>
    let (rc, lower) := processTxAppData payload s.lower
    (rc, { s with lower := lower })

/-- The parameters as they are at the time. -/
def parameters (s : UpperState ρ) : Parameters := s.server.parameters b.debug (b.now s.lower)

/-- What is not determined, at the time. -/
def chance (s : UpperState ρ) : Chance := ⟨b.now s.lower, b.unread s.lower, b.reserved s.lower⟩

/-- The octets of a header. -/
def headerBytes (h : TMsgAppTypeHeader) : List UInt8 :=
  [h.id, h.sequenceNumber] ++ wordBytes h.type ++ wordBytes h.dataSize

/-- The octets at a pointer to a block. -/
def blockMem (block : TDataBuffer) : Mem := fun k =>
  if k < 8 then
    Mem.ofList (wordBytes block.packet ++ wordBytes block.size ++ longBytes block.sync) k
  else
    block.data (k - 8)

/-- A call into the protocol: `Protocol::addMessage` and `Protocol::sendPacket`. -/
def perform (p : TProtocolInstance (UpperState ρ)) :
    ProtocolCall → TProtocolInstance (UpperState ρ)
  | .addMessage msg data =>
    (p.addMessage b.low (Mem.ofList (headerBytes msg)) (data.elim (fun _ => 0) blockMem)).2
  | .sendPacket destAddress => (p.sendPacket b.low (TMasterTx.dest destAddress)).2

/-- `handleMsgPReadBlock`, on the state of the device. -/
def handleMsgPReadBlock (msg : Mem) (p : TProtocolInstance (UpperState ρ)) :
    TProtocolInstance (UpperState ρ) :=
  let out := ReadBlock.handleMsgPReadBlock b.low (b.parameters p.lower) msg p.lower.server.block p
  { out.inst with lower := { out.inst.lower with
    server := { out.inst.lower.server with block := out.block } } }

/-- `handleMsgAppType`, which leaves all types to `extMsgAppTypeHandler`. -/
def handleMsgAppType (msg : Mem) (srcAddress : UInt16) (p : TProtocolInstance (UpperState ρ)) :
    TProtocolInstance (UpperState ρ) :=
  let (calls, container) := p.lower.server.container.extMsgAppTypeHandler msg srcAddress
  calls.foldl b.perform { p with lower := { p.lower with
    server := { p.lower.server with container := container } } }

/-- The upper link and all that it is connected to. -/
def device : Device (UpperState ρ) where
  toLower := b.low
  writeParameter n v s :=
    let (ok, p) := (b.parameters s).write n v
    (if ok then 0 else -1, { s with server := { s.server with r14 := p.r14 } })
  readParameter n s :=
    match (b.parameters s).read n with
    | some v => (0, v, s)
    | none => (-1, b.unread s.lower, s)
  reserved s := b.reserved s.lower
  handleOther msg _ srcAddress p :=
    if msg 0 = msgReadBlock then b.handleMsgPReadBlock msg p
    else if msg 0 = msgAppType then b.handleMsgAppType msg srcAddress p
    else p

/-! ## What lies below leaves the state alone -/

variable (p : TProtocolInstance (UpperState ρ))

theorem server_sendFrame (dest : Option UInt8) :
    (p.sendFrame b.low dest).2.lower.server = p.lower.server := by
  simp only [TProtocolInstance.sendFrame]
  split_ifs <;> rfl

theorem server_sendPacket (dest : Option UInt8) :
    (p.sendPacket b.low dest).2.lower.server = p.lower.server := by
  rw [TProtocolInstance.sendPacket]
  cases p.linkID with
  | linkId0 => exact b.server_sendFrame p dest
  | linkId1 =>
    simp only
    split_ifs
    · cases hhandler : b.processTxAppData with
      | none => simp [low, hhandler]
      | some processTxAppData =>
        simp only [low, hhandler, Option.map_some]
        rfl
    · rfl

theorem server_sendPending : (p.sendPending b.low).lower.server = p.lower.server := by
  rw [TProtocolInstance.sendPending]
  split_ifs
  · exact b.server_sendPacket p none
  · rfl

theorem server_addMessage (msg data : Mem) :
    (p.addMessage b.low msg data).2.lower.server = p.lower.server := by
  rw [TProtocolInstance.addMessage]
  simp only
  split_ifs
  · exact b.server_sendPending _
  · rfl

theorem srcAddress_sendPending : (p.sendPending b.low).srcAddress = p.srcAddress := by
  rw [TProtocolInstance.sendPending, TProtocolInstance.sendPacket]
  split_ifs
  · cases p.linkID with
    | linkId0 =>
      simp only [TProtocolInstance.sendFrame]
      split_ifs <;> rfl
    | linkId1 =>
      simp only
      split <;> rfl
  · rfl

theorem srcAddress_addMessage (msg data : Mem) :
    (p.addMessage b.low msg data).2.srcAddress = p.srcAddress := by
  rw [TProtocolInstance.addMessage]
  simp only
  split_ifs
  · exact b.srcAddress_sendPending _
  · rfl

/-! ## A message is handled as the server does it -/

/-- No buffer counts as full, the index of the next free one is an index, and the object for the
replies is as it was constructed. -/
structure Ready (s : ServerState) : Prop where
  empty : s.container.nFull = 0
  index : s.container.iFree < kMaxSize
  constructed : ReadBlock.Constructed s.block

section Message

variable {b} {p} {src dest : UInt16} {base : List Packet} {replies : List (List UInt8)} {msg : Mem}

/-- A command has been handled as the server handles it, its replies are where they belong, and no
packet is sent off without need. -/
structure Handled (src : UInt16) (base : List Packet) (replies : List (List UInt8))
    (p : TProtocolInstance (UpperState ρ)) (flushed : ℕ) (out : ServerState × List (List UInt8))
    (p' : TProtocolInstance (UpperState ρ)) : Prop where
  server : p'.lower.server = out.1
  filling : Filling .kProtocolApp src base (replies ++ out.2) p'
  compact : Compact out.2.flatten.length flushed p p'

theorem isSome_device (hhandler : b.processTxAppData.isSome) :
    b.device.processTxAppData.isSome := by
  change (b.processTxAppData.map _).isSome
  rw [Option.isSome_map]
  exact hhandler

/-- One reply is added. -/
theorem Handled.of_addMessage (hhandler : b.processTxAppData.isSome)
    (h : Filling .kProtocolApp src base replies p) (hsrc : p.srcAddress = src) {data : Mem}
    {reply : List UInt8} (hreply : IsReply msg data reply) (hfits : reply.length ≤ 1472) :
    Handled src base replies p 0 (p.lower.server, [reply]) (p.addMessage b.low msg data).2 := by
  refine ⟨b.server_addMessage p msg data,
    h.addAny b.device (isSome_device hhandler) hsrc hreply hfits, ?_⟩
  rw [List.flatten_singleton]
  exact h.compact b.low hreply

/-- A value is a reply. -/
theorem isReply_value (sequenceNumber : UInt8) (n : UInt16) (v : UInt32) (result reserved : UInt16)
    (data : Mem) :
    IsReply (Mem.ofList (valueMessage sequenceNumber n v result reserved)) data
      (valueMessage sequenceNumber n v result reserved) := by
  refine ⟨rfl, fun hw => ?_, rfl⟩
  have hid : msgParameterValue = msgAppType := hw.1
  exact absurd hid (by decide)

/-- A write of a parameter. -/
theorem handled_write (hhandler : b.processTxAppData.isSome)
    (h : Filling .kProtocolApp src base replies p) (hsrc : p.srcAddress = src)
    (hdest : dest ≠ protocolBroadcastAddress) (sequenceNumber : UInt8) (n : UInt16) (v : UInt32)
    (hmsg : msg.read 0 (Query.write sequenceNumber n v).bytes.length =
      (Query.write sequenceNumber n v).bytes) :
    Handled src base replies p 0
      (p.lower.server.serve b.debug (b.chance p.lower) (.query (.write sequenceNumber n v)))
      (SlaveMsgHandlers.rxMessageHandler b.device msg dest src p) := by
  have hid : msg 0 = msgParameterWrite := msg.eq_ofList_of_read hmsg (show 0 < 8 by decide)
  have hseq : msg 1 = sequenceNumber := msg.eq_ofList_of_read hmsg (show 1 < 8 by decide)
  have hn : msg.word 2 = n :=
    (msg.word_of_read hmsg (show 2 + 1 < 8 by decide)).trans (ofBytes_lo_hi n)
  have hlo : msg.word 4 = loWord v :=
    (msg.word_of_read hmsg (show 4 + 1 < 8 by decide)).trans (ofBytes_lo_hi _)
  have hhi : msg.word 6 = hiWord v :=
    (msg.word_of_read hmsg (show 6 + 1 < 8 by decide)).trans (ofBytes_lo_hi _)
  have hv : ofWords (msg.word 4) (msg.word 6) = v := by
    rw [hlo, hhi, ofWords_loWord_hiWord]
  rw [SlaveMsgHandlers.rxMessageHandler, if_pos hid, SlaveMsgHandlers.handleMsgPWrite]
  simp only [hn, hv, hseq, hdest, ne_eq, not_false_eq_true, true_and]
  by_cases hanswer : sequenceNumber = 0xFF
  · simp only [hanswer, not_true, if_false]
    simp only [ServerState.serve, ne_eq, not_true, if_false]
    refine ⟨rfl, ?_, compact_of_eq rfl rfl⟩
    rw [List.append_nil]
    exact h.congr rfl rfl rfl
  · simp only [hanswer, not_false_eq_true, if_true, SlaveMsgHandlers.addReply]
    have hadd := Handled.of_addMessage (b := b) hhandler
      (h.congr (q := { p with lower := { p.lower with server := { p.lower.server with
        r14 := ((b.parameters p.lower).write n v).2.r14 } } }) rfl rfl rfl) hsrc
      (isReply_value sequenceNumber n v
        (resultCode (if ((b.parameters p.lower).write n v).1 then 0 else -1))
        (b.reserved p.lower.lower) fun _ => 0) (show 12 ≤ 1472 by decide)
    simp only [ServerState.serve, ne_eq, hanswer, not_false_eq_true, if_true]
    exact ⟨hadd.server, hadd.filling, hadd.compact⟩

/-- A read of a parameter. -/
theorem handled_read (hhandler : b.processTxAppData.isSome)
    (h : Filling .kProtocolApp src base replies p) (hsrc : p.srcAddress = src)
    (sequenceNumber : UInt8) (n : UInt16)
    (hmsg : msg.read 0 (Query.read sequenceNumber n).bytes.length =
      (Query.read sequenceNumber n).bytes) :
    Handled src base replies p 0
      (p.lower.server.serve b.debug (b.chance p.lower) (.query (.read sequenceNumber n)))
      (SlaveMsgHandlers.rxMessageHandler b.device msg dest src p) := by
  have hid : msg 0 = msgParameterRead := msg.eq_ofList_of_read hmsg (show 0 < 4 by decide)
  have hne : msg 0 ≠ msgParameterWrite := by
    rw [hid]
    decide
  have hseq : msg 1 = sequenceNumber := msg.eq_ofList_of_read hmsg (show 1 < 4 by decide)
  have hn : msg.word 2 = n :=
    (msg.word_of_read hmsg (show 2 + 1 < 4 by decide)).trans (ofBytes_lo_hi n)
  rw [SlaveMsgHandlers.rxMessageHandler, if_neg hne, if_pos hid, SlaveMsgHandlers.handleMsgPRead]
  simp only [hn, hseq, SlaveMsgHandlers.addReply]
  cases hread : (b.parameters p.lower).read n with
  | none =>
    have hdevice : b.device.readParameter n p.lower = (-1, b.unread p.lower.lower, p.lower) := by
      simp only [device, hread]
    have hserve : (p.lower.server.parameters b.debug (b.chance p.lower).now).read n = none := hread
    simp only [ServerState.serve, hserve, hdevice]
    exact Handled.of_addMessage hhandler h hsrc (isReply_value ..) (show 12 ≤ 1472 by decide)
  | some v =>
    have hdevice : b.device.readParameter n p.lower = (0, v, p.lower) := by
      simp only [device, hread]
    have hserve : (p.lower.server.parameters b.debug (b.chance p.lower).now).read n = some v :=
      hread
    simp only [ServerState.serve, hserve, hdevice]
    exact Handled.of_addMessage hhandler h hsrc (isReply_value ..) (show 12 ≤ 1472 by decide)

/-- A block of parameters is a reply, which fits a datagram. -/
theorem isReply_block (s : Parameters) (msg : Mem) {block : Mem}
    (h : ReadBlock.Constructed block) :
    IsReply (ReadBlock.fillBlock s msg block).block
        ((ReadBlock.fillBlock s msg block).block.shift sizeofTMsgAppTypeHeader)
        (ReadBlock.reply s msg block) ∧
      (ReadBlock.reply s msg block).length ≤ 1472 := by
  have hdata := ReadBlock.appDataSize_fillBlock s msg h
  have hle := ReadBlock.blockSize_le (msg 4)
  have hid := (ReadBlock.constructed_of_read (ReadBlock.read_fillBlock s msg h)).id
  have hlen : (ReadBlock.reply s msg block).length =
      ReadBlock.sizeofHeader + 4 * ReadBlock.blockSize (msg 4) := by
    rw [ReadBlock.reply_eq_read s msg h, Mem.length_read]
  refine ⟨⟨?_, ?_, rfl⟩, ?_⟩
  · rw [messageSize, if_pos hid, hdata, hlen, ReadBlock.sizeofHeader, sizeofTMsgAppTypeHeader,
      Option.some.injEq]
    omega
  · rw [Layer3Tx.Wraps, hdata]
    omega
  · rw [hlen, ReadBlock.sizeofHeader]
    omega

/-- A read of a block of parameters. -/
theorem handled_readBlock (hhandler : b.processTxAppData.isSome)
    (h : Filling .kProtocolApp src base replies p) (hsrc : p.srcAddress = src)
    (hready : Ready p.lower.server) (sequenceNumber : UInt8) (block : UInt16)
    (size reserved : UInt8) (hsize : size.toNat ≤ ReadBlock.dataLength)
    (hmsg : msg.read 0 (Command.readBlock sequenceNumber block size reserved hsize).bytes.length =
      (Command.readBlock sequenceNumber block size reserved hsize).bytes) :
    Handled src base replies p 0
      (p.lower.server.serve b.debug (b.chance p.lower)
        (.readBlock sequenceNumber block size reserved hsize))
      (SlaveMsgHandlers.rxMessageHandler b.device msg dest src p) := by
  have hid : msg 0 = msgReadBlock := msg.eq_ofList_of_read hmsg (show 0 < 6 by decide)
  have hw : msg 0 ≠ msgParameterWrite := by
    rw [hid]
    decide
  have hr : msg 0 ≠ msgParameterRead := by
    rw [hid]
    decide
  have hseq : msg 1 = sequenceNumber := msg.eq_ofList_of_read hmsg (show 1 < 6 by decide)
  have hbase : msg.word 2 = block :=
    (msg.word_of_read hmsg (show 2 + 1 < 6 by decide)).trans (ofBytes_lo_hi block)
  have hcount : msg 4 = size := msg.eq_ofList_of_read hmsg (show 4 < 6 by decide)
  have hblockSize : ReadBlock.blockSize (msg 4) = size.toNat := by
    rw [hcount, ReadBlock.blockSize_eq]
    exact min_eq_left (hsize.trans (by decide))
  have hreply := ReadBlock.reply_eq (b.parameters p.lower) msg hready.constructed
  rw [hblockSize, hseq, hbase] at hreply
  obtain ⟨hisReply, hfits⟩ := isReply_block (b.parameters p.lower) msg hready.constructed
  have hadd := Handled.of_addMessage hhandler h hsrc hisReply hfits
  rw [SlaveMsgHandlers.rxMessageHandler, if_neg hw, if_neg hr]
  have hother : b.device.handleOther msg dest src p = b.handleMsgPReadBlock msg p := if_pos hid
  rw [hother]
  have hserve : p.lower.server.serve b.debug (b.chance p.lower)
      (.readBlock sequenceNumber block size reserved hsize) =
      ({ p.lower.server with block :=
          (ReadBlock.fillBlock (b.parameters p.lower) msg p.lower.server.block).block },
        [ReadBlock.reply (b.parameters p.lower) msg p.lower.server.block]) := by
    have hword : (Mem.ofList ([msgReadBlock, sequenceNumber] ++ wordBytes block ++
        [size, reserved])).word 2 = block := ofBytes_lo_hi block
    rw [hreply]
    simp only [ServerState.serve, ReadBlock.fillBlock, hseq, hbase, hcount, hword]
    rfl
  rw [hserve]
  simp only [handleMsgPReadBlock, ReadBlock.handleMsgPReadBlock]
  refine ⟨?_, hadd.filling.congr rfl rfl rfl, hadd.compact⟩
  simp only [hadd.server]

/-- The notice that there is no data is a reply. -/
theorem isReply_absence (sequenceNumber : UInt8) :
    IsReply (Mem.ofList (headerBytes ⟨0x80, sequenceNumber, msgAppDataAbsence, 0⟩)) (fun _ => 0)
      (ServerState.absence sequenceNumber) := by
  have hid : Mem.ofList (headerBytes ⟨0x80, sequenceNumber, msgAppDataAbsence, 0⟩) 0 =
      msgAppType := rfl
  have hsize : appDataSize
      (Mem.ofList (headerBytes ⟨0x80, sequenceNumber, msgAppDataAbsence, 0⟩)) = 0 :=
    congrArg UInt16.toNat (ofBytes_lo_hi 0)
  refine ⟨?_, fun hw => ?_, ?_⟩
  · rw [messageSize, if_pos hid, hsize]
    rfl
  · have hle := hw.2
    rw [hsize] at hle
    omega
  · rw [encoded, if_pos hid, hsize, Mem.read_zero]
    rfl

/-- On the link of the datagrams the address of the receiver does not matter. -/
theorem sendPacket_app (hlink : p.linkID = .linkId1) (dest : Option UInt8) :
    (p.sendPacket b.low dest).2 = p.sendPending b.low := by
  by_cases hzero : p.layer3.txIndex = 0
  · simp [TProtocolInstance.sendPacket, TProtocolInstance.sendPending, hlink, hzero]
  · simp [TProtocolInstance.sendPacket, TProtocolInstance.sendPending, hlink, hzero]

/-- A message of an application type. -/
theorem handled_app (hhandler : b.processTxAppData.isSome)
    (h : Filling .kProtocolApp src base replies p) (hsrc : p.srcAddress = src)
    (hready : Ready p.lower.server) (sequenceNumber : UInt8) (type : UInt16) (data : List UInt8)
    (hlen : data.length < 0xFFFA) (hack : type = msgAppDataAcknowledge → 2 ≤ data.length)
    (hmsg : msg.read 0 (Command.appBytes sequenceNumber type data).length =
      Command.appBytes sequenceNumber type data) :
    Handled src base replies p (Command.app sequenceNumber type data hlen hack).flushes
      (p.lower.server.serve b.debug (b.chance p.lower)
        (.app sequenceNumber type data hlen hack))
      (SlaveMsgHandlers.rxMessageHandler b.device msg dest src p) := by
  have hlong : 6 ≤ (Command.appBytes sequenceNumber type data).length := by
    simp [Command.appBytes, wordBytes]
  have hid : msg 0 = msgAppType := msg.eq_ofList_of_read hmsg (by omega)
  have hw : msg 0 ≠ msgParameterWrite := by
    rw [hid]
    decide
  have hr : msg 0 ≠ msgParameterRead := by
    rw [hid]
    decide
  have hb : msg 0 ≠ msgReadBlock := by
    rw [hid]
    decide
  have hseq : msg 1 = sequenceNumber := msg.eq_ofList_of_read hmsg (by omega)
  have htype : msg.word 2 = type :=
    (msg.word_of_read hmsg (by omega)).trans (ofBytes_lo_hi type)
  have hother : b.device.handleOther msg dest src p = b.handleMsgAppType msg src p :=
    (if_neg hb).trans (if_pos hid)
  rw [SlaveMsgHandlers.rxMessageHandler, if_neg hw, if_neg hr, hother, handleMsgAppType,
    TDataBuffersContainer.extMsgAppTypeHandler, htype, hseq]
  by_cases hrequest : type = msgAppRequestData
  · have hnone : p.lower.server.container.getDataReadyInfo = kNoData := by
      rw [TDataBuffersContainer.getDataReadyInfo, hready.empty]
      rfl
    have hadd := Handled.of_addMessage hhandler h hsrc (isReply_absence sequenceNumber)
      (show 6 ≤ 1472 by decide)
    have hsrc' : (p.addMessage b.low (Mem.ofList (headerBytes
        ⟨0x80, sequenceNumber, msgAppDataAbsence, 0⟩)) fun _ => 0).2.srcAddress = src :=
      (b.srcAddress_addMessage p _ _).trans hsrc
    have hlink := hadd.filling.link_eq
    rw [if_pos hrequest, if_pos hnone]
    simp only [List.foldl_cons, List.foldl_nil, ServerState.serve, Command.flushes,
      if_pos hrequest]
    change Handled src base replies p 1 _ ((p.addMessage b.low (Mem.ofList (headerBytes
      ⟨0x80, sequenceNumber, msgAppDataAbsence, 0⟩)) fun _ => 0).2.sendPacket b.low _).2
    rw [sendPacket_app hlink]
    refine ⟨(b.server_sendPending _).trans hadd.server, ?_,
      hadd.compact.trans (compact_sendPending b.low ?_)⟩
    · exact (hadd.filling.flush b.device (isSome_device hhandler) hsrc').1
    · exact hadd.filling.index_le.trans hadd.filling.limit_eq.le
  · rw [if_neg hrequest]
    simp only [ServerState.serve, Command.flushes, if_neg hrequest]
    by_cases hackType : type = msgAppDataAcknowledge
    · have hpn : msg.word 6 = (Mem.ofList data).word 0 := by
        have hdata := hack hackType
        rw [msg.word_of_read hmsg (by simp [Command.appBytes, wordBytes]; omega)]
        rfl
      rw [if_pos hackType, if_pos hackType, hpn]
      refine ⟨rfl, ?_, compact_of_eq rfl rfl⟩
      rw [List.append_nil]
      exact h.congr rfl rfl rfl
    · rw [if_neg hackType, if_neg hackType]
      refine ⟨rfl, ?_, compact_of_eq rfl rfl⟩
      rw [List.append_nil]
      exact h.congr rfl rfl rfl

/-- **Every command is handled as the server handles it.** -/
theorem handled_command (hhandler : b.processTxAppData.isSome)
    (h : Filling .kProtocolApp src base replies p) (hsrc : p.srcAddress = src)
    (hdest : dest ≠ protocolBroadcastAddress) (hready : Ready p.lower.server) (c : Command)
    (hmsg : msg.read 0 c.bytes.length = c.bytes) :
    Handled src base replies p c.flushes (p.lower.server.serve b.debug (b.chance p.lower) c)
      (SlaveMsgHandlers.rxMessageHandler b.device msg dest src p) := by
  cases c with
  | query q =>
    cases q with
    | write sequenceNumber n v => exact handled_write hhandler h hsrc hdest sequenceNumber n v hmsg
    | read sequenceNumber n => exact handled_read hhandler h hsrc sequenceNumber n hmsg
  | readBlock sequenceNumber block size reserved hsize =>
    exact handled_readBlock hhandler h hsrc hready sequenceNumber block size reserved hsize hmsg
  | app sequenceNumber type data hlen hack =>
    exact handled_app hhandler h hsrc hready sequenceNumber type data hlen hack hmsg
  | value sequenceNumber n v result reserved =>
    have hid : msg 0 = msgParameterValue := msg.eq_ofList_of_read hmsg (show 0 < 12 by decide)
    have hignored : SlaveMsgHandlers.rxMessageHandler b.device msg dest src p = p := by
      simp only [SlaveMsgHandlers.rxMessageHandler, device, hid]
      rfl
    rw [hignored]
    refine ⟨rfl, ?_, compact_of_eq rfl rfl⟩
    rw [ServerState.serve, List.append_nil]
    exact h

end Message

/-- A command leaves the counts, the indices and the object as they should be. -/
theorem Ready.serve {s : ServerState} (h : Ready s) (debug : Bool) (x : Chance) (c : Command) :
    Ready (s.serve debug x c).1 := by
  cases c with
  | query q => cases q <;> exact ⟨h.empty, h.index, h.constructed⟩
  | readBlock sequenceNumber block size reserved hsize =>
    exact ⟨h.empty, h.index,
      ReadBlock.constructed_of_read (ReadBlock.read_fillBlock _ _ h.constructed)⟩
  | app sequenceNumber type data hlen hack =>
    simp only [ServerState.serve]
    split_ifs
    · exact h
    · simp only [TDataBuffersContainer.handleMsgDataAcknowledge,
        TDataBuffersContainer.releaseBufferByPacketNumber]
      cases hfind : s.container.findPacket ((Mem.ofList data).word 0) with
      | none => exact h
      | some n =>
        refine ⟨?_, TDataBuffersContainer.iFree_releaseBuffer h.index
          (TDataBuffersContainer.findPacket_spec hfind).1, h.constructed⟩
        change (s.container.releaseBuffer n).nFull = 0
        by_cases hfree : s.container.IsFree n
        · rw [TDataBuffersContainer.releaseBuffer_of_free hfree]
          exact h.empty
        · rw [TDataBuffersContainer.releaseBuffer_of_full hfree]
          exact h.empty
    · exact h
  | value => exact h

/-- A block of measurements is stored. -/
theorem Ready.writeBuffer {s : ServerState} (h : Ready s) (buffer : TDataBuffer)
    (dataId : UInt32) :
    Ready { s with container := (s.container.writeBuffer buffer dataId).2 } where
  empty := Store.nFull_step (s := ⟨s.container, []⟩) h.empty (.writeBuffer buffer dataId) h.index
  index := Store.iFree_step (s := ⟨s.container, []⟩) h.index (.writeBuffer buffer dataId)
  constructed := h.constructed

/-! ## Datagrams of commands -/

section Datagram

variable {b} {dest src : UInt16} {server : ServerState} {base : List Packet}

/-- The commands so far have been served, with replies that are where they belong. -/
structure Progress (debug : Bool) (src : UInt16) (server : ServerState) (base : List Packet)
    (done : List Command) (s : Session (UpperState ρ)) : Prop where
  served : ∃ replies, ServerState.Serves debug server done s.inst.lower.server replies ∧
    Filling .kProtocolApp src base replies s.inst ∧
    (replies.flatten.length ≤ 1472 → s.inst.layer3.txIndex ≤ replies.flatten.length ∧
      s.inst.packets.length ≤ base.length + (done.map Command.flushes).sum)
  ready : Ready s.inst.lower.server

/-- A datagram begins to be processed. -/
theorem Progress.begin (b : Surroundings ρ) {s : HiIo (UpperState ρ)} (hs : s.Consistent)
    (hready : Ready s.session.inst.lower.server) (src : UInt16) :
    Progress b.debug src s.session.inst.lower.server s.session.inst.packets []
      ((hiIoHandlers b.device .linkId1).onBeginRxPacketProcess { s.session with
        inst := HiIo.switch .kProtocolApp s.protocolType s.session.inst }) := by
  have hlower : (HiIo.switch .kProtocolApp s.protocolType s.session.inst).lower =
      s.session.inst.lower := by
    rw [HiIo.switch]
    split_ifs <;> rfl
  have hpackets := HiIo.packets_switch .kProtocolApp s.protocolType s.session.inst
  have hstart : Filling .kProtocolApp src _ [] _ :=
    Filling.start (HiIo.limit_switch hs .kProtocolApp) rfl
  rw [hpackets] at hstart
  refine ⟨⟨[], ?_, hstart, fun _ => ⟨le_rfl, ?_⟩⟩, ?_⟩
  · simp only [hiIoHandlers, TProtocolInstance.startTxPacket, hlower]
    exact .nil _
  · simp only [hiIoHandlers, TProtocolInstance.startTxPacket, hpackets]
    exact Nat.le_add_right _ _
  · simp only [hiIoHandlers, TProtocolInstance.startTxPacket, hlower]
    exact hready

/-- **One command more.** -/
theorem Progress.message (hhandler : b.processTxAppData.isSome)
    (hdest : dest ≠ protocolBroadcastAddress) {done : List Command} {s : Session (UpperState ρ)}
    (h : Progress b.debug src server base done s) (c : Command) {msg : Mem}
    (hmsg : msg.read 0 c.bytes.length = c.bytes) :
    Progress b.debug src server base (done ++ [c])
      ((hiIoHandlers b.device .linkId1).processRxMessage msg dest src s) := by
  obtain ⟨⟨replies, hserves, hfilling, hcompact⟩, hready⟩ := h
  have hhandled := handled_command (p := { s.inst with srcAddress := src }) hhandler
    (hfilling.congr rfl rfl rfl) rfl hdest hready c hmsg
  refine ⟨⟨_, ?_, hhandled.filling, fun hfits => ?_⟩, ?_⟩
  · simp only [hiIoHandlers, hhandled.server]
    exact hserves.snoc c _
  · rw [List.flatten_append, List.length_append] at hfits ⊢
    obtain ⟨hindex, hpackets⟩ := hcompact (by omega)
    obtain ⟨hindex', hpackets'⟩ := hhandled.compact
      ((Nat.add_le_add_right hindex _).trans hfits)
    rw [List.map_append, List.sum_append, List.map_singleton, List.sum_singleton]
    exact ⟨hindex'.trans (Nat.add_le_add_right hindex _),
      hpackets'.trans (by simpa only [← Nat.add_assoc] using Nat.add_le_add_right hpackets _)⟩
  · simp only [hiIoHandlers, hhandled.server]
    exact hready.serve ..

/-- A datagram has been answered: what the server says is in the packets, whole and in order. If it
would fit one packet, there is one, and one more for each request for data. -/
structure Served (debug : Bool) (src : UInt16) (cs : List Command) (s s' : HiIo (UpperState ρ)) :
    Prop where
  consistent : s'.Consistent
  ready : Ready s'.session.inst.lower.server
  replies : ∃ groups packets, s'.session.inst.packets = s.session.inst.packets ++ packets ∧
    List.Forall₂ (Carries .linkId1 src) groups packets ∧
    ServerState.Serves debug s.session.inst.lower.server cs s'.session.inst.lower.server
      groups.flatten ∧
    (groups.flatten.flatten.length ≤ 1472 → packets.length ≤ (cs.map Command.flushes).sum + 1)

/-- **Datagrams are served.** -/
theorem served (hhandler : b.processTxAppData.isSome) {s : HiIo (UpperState ρ)}
    (hs : s.Consistent) (hready : Ready s.session.inst.lower.server) (cs : List Command)
    (buffer : Mem) (n dest src : UInt16)
    (hbuffer : buffer.read 0 n.toNat = (cs.map Command.bytes).flatten)
    (hdest : dest ≠ protocolBroadcastAddress) :
    ∃ s', s.processInputAppData b.device buffer n dest src = some s' ∧
      Served b.debug src cs s s' := by
  have hmsgs : (cs.map Command.message).map Message.bytes = cs.map Command.bytes := by
    rw [List.map_map]
    rfl
  have hlen : n.toNat = (cs.map Command.bytes).flatten.length := by
    rw [← hbuffer, Mem.length_read]
  have hcount : cs.length < n.toNat + 1 := by
    have hle := Message.length_le_flatten (cs.map Command.message)
    rw [List.length_map, hmsgs, ← hlen] at hle
    omega
  -- the loop over the messages
  obtain ⟨⟨rc, layer3, session, count⟩, hloop, hprogress⟩ := forMessages_history Command.message
    (J := fun done (x : Session (UpperState ρ) × ℤ) => Progress b.debug src
      s.session.inst.lower.server s.session.inst.packets done x.1)
    (h := counting (hiIoHandlers b.device .linkId1) dest src) n.toNat_lt
    (fun done c x i h hread => h.message hhandler hdest c (by
      rw [Mem.read_shift, Nat.add_zero]
      exact hread))
    cs (i := 0) (m := buffer) (by rw [hmsgs, ← hlen, Nat.zero_add])
    (by rw [hmsgs, Nat.sub_zero, hbuffer])
    (s := ((hiIoHandlers b.device .linkId1).onBeginRxPacketProcess { s.session with
      inst := HiIo.switch .kProtocolApp s.protocolType s.session.inst }, 0))
    (.begin b hs hready src) hcount
  obtain ⟨⟨replies, hserves, hfilling, hcompact⟩, hready'⟩ := hprogress
  obtain ⟨hlimit, -, groups, packets, hpackets, hgroups, hreplies⟩ :=
    (hfilling.congr (q := { session.inst with srcAddress := src }) rfl rfl rfl).finish b.device
      (isSome_device hhandler) rfl hserves.ne_nil
  have hserver := b.server_sendPending { session.inst with srcAddress := src }
  refine ⟨⟨.kProtocolApp, { s.rx with layer3 := layer3, srcAddress := src },
    (hiIoHandlers b.device .linkId1).onEndRxPacketProcess src session⟩, ?_, hlimit, ?_, groups,
    packets, hpackets, hgroups, ?_, fun hfits => ?_⟩
  · have hcall := processInputAppData_of_loop s.rx (h := hiIoHandlers b.device .linkId1) hloop
    simp only [HiIo.processInputAppData, hcall]
  · simp only [hiIoHandlers]
    exact hserver ▸ hready'
  · rw [hreplies]
    simp only [hiIoHandlers]
    exact hserver ▸ hserves
  · rw [hreplies] at hfits
    obtain ⟨hindex, hsent⟩ := hcompact hfits
    replace hsent : session.inst.packets.length ≤
        s.session.inst.packets.length + (cs.map Command.flushes).sum := hsent
    have hlast := (compact_sendPending b.low
      (p := { session.inst with srcAddress := src }) (hindex.trans hfits) (hindex.trans hfits)).2
    have hcount' := congrArg List.length hpackets
    rw [List.length_append] at hcount'
    change _ ≤ session.inst.packets.length + 1 at hlast
    change (TProtocolInstance.sendPending b.low
      { session.inst with srcAddress := src }).packets.length = _ at hcount'
    omega

end Datagram

/-! ## Runs -/

/-- What happens to the upper link: a datagram of commands comes, a block of measurements is to be
stored, or something changes the layers below. -/
inductive Turn (ρ : Type*)
  | datagram (cs : List Command) (buffer : Mem) (n dest src : UInt16)
    (hbuffer : buffer.read 0 n.toNat = (cs.map Command.bytes).flatten)
    (hdest : dest ≠ protocolBroadcastAddress)
  | writeBuffer (buffer : TDataBuffer) (dataId : UInt32)
  | elsewhere (lower : ρ)

/-- The commands that came. -/
def Turn.commands : Turn ρ → List Command
  | .datagram cs .. => cs
  | _ => []

/-- The state of what lies below is set. -/
def setLower (s : HiIo (UpperState ρ)) (lower : UpperState ρ) : HiIo (UpperState ρ) :=
  { s with session := { s.session with inst := { s.session.inst with lower := lower } } }

/-- One turn. -/
def turn (s : HiIo (UpperState ρ)) : Turn ρ → Option (HiIo (UpperState ρ))
  | .datagram _ buffer n dest src _ _ => s.processInputAppData b.device buffer n dest src
  | .writeBuffer buffer dataId =>
    let server := s.session.inst.lower.server
    some (setLower s { s.session.inst.lower with
      server := { server with container := (server.container.writeBuffer buffer dataId).2 } })
  | .elsewhere lower => some (setLower s { s.session.inst.lower with lower := lower })

/-- The device after construction, on memory with any contents. -/
def start (rx : TProtocol) (txPacket : Mem) (memory : ℕ → TDataBuffer) (behind : Mem) (lower : ρ) :
    HiIo (UpperState ρ) :=
  .construct rx txPacket ⟨lower, ⟨0, 0, .init memory, ReadBlock.initial behind⟩⟩

/-- The commands that came have been served: register 14 holds the code exactly if it was left
there. -/
structure Kept (done : List Command) (s : HiIo (UpperState ρ)) : Prop where
  consistent : s.Consistent
  ready : Ready s.session.inst.lower.server
  code : s.session.inst.lower.server.r14 = Parameters.r14MaskWrReg ||| 2 ↔
    ServerState.Unlocked done

theorem Kept.start (rx : TProtocol) (txPacket : Mem) (memory : ℕ → TDataBuffer) (behind : Mem)
    (lower : ρ) : Kept [] (start rx txPacket memory behind lower) where
  consistent := rfl
  ready := ⟨rfl, (by decide : 0 < kMaxSize), ReadBlock.constructed_initial behind⟩
  code := iff_of_false (by decide : (0 : UInt32) ≠ Parameters.r14MaskWrReg ||| 2)
    ServerState.not_unlocked_nil

variable {b}

section Run

variable (hhandler : b.processTxAppData.isSome)

include hhandler

/-- Every turn goes through. -/
theorem Kept.turn {done : List Command} {s : HiIo (UpperState ρ)} (h : Kept done s) (t : Turn ρ) :
    ∃ s', b.turn s t = some s' ∧ Kept (done ++ t.commands) s' := by
  cases t with
  | datagram cs buffer n dest src hbuffer hdest =>
    obtain ⟨s', hcall, hconsistent, hready, groups, packets, -, -, hserves, -⟩ :=
      served hhandler h.consistent h.ready cs buffer n dest src hbuffer hdest
    exact ⟨s', hcall, hconsistent, hready, ServerState.r14_eq_iff hserves h.code⟩
  | writeBuffer buffer dataId =>
    exact ⟨_, rfl, h.consistent, h.ready.writeBuffer buffer dataId,
      (List.append_nil done).symm ▸ h.code⟩
  | elsewhere lower =>
    exact ⟨_, rfl, h.consistent, h.ready, (List.append_nil done).symm ▸ h.code⟩

/-- And every run does. -/
theorem Kept.turns (ts : List (Turn ρ)) {done : List Command} {s : HiIo (UpperState ρ)}
    (h : Kept done s) :
    ∃ s', ts.foldlM b.turn s = some s' ∧ Kept (done ++ ts.flatMap Turn.commands) s' := by
  induction ts generalizing done s with
  | nil =>
    refine ⟨s, rfl, ?_⟩
    rwa [List.flatMap_nil, List.append_nil]
  | cons t ts ih =>
    obtain ⟨s₁, hturn, h₁⟩ := h.turn hhandler t
    obtain ⟨s', hturns, h'⟩ := ih h₁
    refine ⟨s', ?_, ?_⟩
    · rw [List.foldlM_cons, hturn]
      exact hturns
    · rwa [List.append_assoc] at h'

end Run

/-- **The upper level is served.** Let anything have happened to the upper link since the start:
datagrams of commands, blocks of measurements to be stored, changes below. A datagram of commands,
of any kinds and in any order, for an address other than the broadcast one, is processed to the end.
What is handed to the handler are packets of at most 1472 octets, and the messages in them, whole
and in order, are the replies of the server that `ServerState.serve` describes, to just these
commands; the registers, the container of blocks and the object for blocks of parameters are
afterwards as that server leaves them. -/
theorem datagram_served (hhandler : b.processTxAppData.isSome) (rx : TProtocol) (txPacket : Mem)
    (memory : ℕ → TDataBuffer) (behind : Mem) (lower : ρ) (ts : List (Turn ρ)) (cs : List Command)
    (buffer : Mem) (n dest src : UInt16)
    (hbuffer : buffer.read 0 n.toNat = (cs.map Command.bytes).flatten)
    (hdest : dest ≠ protocolBroadcastAddress) :
    ∃ s s' groups packets,
      ts.foldlM b.turn (start rx txPacket memory behind lower) = some s ∧
      s.processInputAppData b.device buffer n dest src = some s' ∧
      s'.session.inst.packets = s.session.inst.packets ++ packets ∧
      List.Forall₂ (fun replies packet => replies.flatten.length ≤ 1472 ∧
        ∃ rc, packet = Packet.datagram replies.flatten rc) groups packets ∧
      ServerState.Serves b.debug s.session.inst.lower.server cs
        s'.session.inst.lower.server groups.flatten := by
  obtain ⟨s, hturns, h⟩ := Kept.turns hhandler ts (.start rx txPacket memory behind lower)
  obtain ⟨s', hcall, -, -, groups, packets, hpackets, hgroups, hserves, -⟩ :=
    served hhandler h.consistent h.ready cs buffer n dest src hbuffer hdest
  exact ⟨s, s', groups, packets, hturns, hcall, hpackets, hgroups.imp fun _ _ h => h.2, hserves⟩

/-- A device with a handler that takes everything, and a clock that stands still. -/
def quiet : Surroundings Unit where
  layer2 := ⟨fun _ => 0, fun _ => 0, .stWait, 0, 0, 9, 0xFF, false⟩
  getTxFree _ := 1000
  write octets _ := (octets.length, ())
  processTxAppData := some fun payload _ => (payload.length, ())
  debug := false
  now _ := 0
  unread _ := 0
  reserved _ := 0

/-- The code for register 2 is written to register 14. -/
def unlocking : Turn Unit :=
  .datagram [.query (.write 1 14 0x10170002)]
    (Mem.ofList [0x10, 1, 14, 0, 2, 0, 0x17, 0x10]) 8 9 1 (by decide) (by decide)

/-- A request for data and a read of a block, in one datagram. -/
theorem datagram_served_two :
    let cs : List Command :=
      [.app 3 msgAppRequestData [] (by decide) (by decide), .readBlock 4 14 2 0 (by decide)]
    ∃ s s' groups packets,
      [unlocking].foldlM quiet.turn
        (start TProtocol.listener (fun _ => 0) (fun _ => ⟨0, 0, 0, fun _ => 0⟩) (fun _ => 0) ()) =
          some s ∧
      s.processInputAppData quiet.device (Mem.ofList (cs.map Command.bytes).flatten) 12 9 1 =
        some s' ∧
      s'.session.inst.packets = s.session.inst.packets ++ packets ∧
      List.Forall₂ (fun replies packet => replies.flatten.length ≤ 1472 ∧
        ∃ rc, packet = Packet.datagram replies.flatten rc) groups packets ∧
      ServerState.Serves quiet.debug s.session.inst.lower.server cs
        s'.session.inst.lower.server groups.flatten :=
  datagram_served rfl TProtocol.listener _ _ _ () [unlocking] _ _ 12 9 1 (by decide) (by decide)

/-- **The serial number is guarded.** After any run, let a datagram of commands, for an address
other than the broadcast one, have a write of register 2 that asks for an answer. The answer, which
comes behind those to the commands before it, is `ResultOk` exactly when the code for the register,
`R14_MASK_WR_REG | 2`, is the last value that was written to register 14 and register 2 has not been
written since, by whichever datagrams this was done; otherwise it is `ResultBadParameter`. -/
theorem serial_number_guarded (hhandler : b.processTxAppData.isSome) (rx : TProtocol)
    (txPacket : Mem) (memory : ℕ → TDataBuffer) (behind : Mem) (lower : ρ) (ts : List (Turn ρ))
    (before after : List Command) (sequenceNumber : UInt8) (v : UInt32)
    (hanswer : sequenceNumber ≠ 0xFF) (buffer : Mem) (n dest src : UInt16)
    (hbuffer : buffer.read 0 n.toNat =
      ((before ++ .query (.write sequenceNumber 2 v) :: after).map Command.bytes).flatten)
    (hdest : dest ≠ protocolBroadcastAddress) :
    ∃ s s' groups packets first result reserved rest,
      ts.foldlM b.turn (start rx txPacket memory behind lower) = some s ∧
      s.processInputAppData b.device buffer n dest src = some s' ∧
      s'.session.inst.packets = s.session.inst.packets ++ packets ∧
      List.Forall₂ (fun replies packet => replies.flatten.length ≤ 1472 ∧
        ∃ rc, packet = Packet.datagram replies.flatten rc) groups packets ∧
      groups.flatten = first ++ valueMessage sequenceNumber 2 v result reserved :: rest ∧
      first.length = before.countP Command.answered ∧
      (result = 0 ∨ result = 0xFFFF) ∧
      (result = 0 ↔ ServerState.Unlocked (ts.flatMap Turn.commands ++ before)) := by
  obtain ⟨s, hturns, h⟩ := Kept.turns hhandler ts (.start rx txPacket memory behind lower)
  obtain ⟨s', hcall, -, -, groups, packets, hpackets, hgroups, hserves, -⟩ :=
    served hhandler h.consistent h.ready _ buffer n dest src hbuffer hdest
  obtain ⟨first, result, reserved, rest, hreplies, hfirst, hresult, hiff⟩ :=
    ServerState.write_two_iff h.code hanswer hserves
  exact ⟨s, s', groups, packets, first, result, reserved, rest, hturns, hcall, hpackets,
    hgroups.imp fun _ _ h => h.2, hreplies, hfirst, hresult, hiff⟩

/-- The code is written, and with the next datagram register 2. -/
theorem serial_number_guarded_unlocked :
    let cs : List Command := [.query (.write 2 2 77)]
    ∃ s s' groups packets first result reserved rest,
      [unlocking].foldlM quiet.turn
        (start TProtocol.listener (fun _ => 0) (fun _ => ⟨0, 0, 0, fun _ => 0⟩) (fun _ => 0) ()) =
          some s ∧
      s.processInputAppData quiet.device (Mem.ofList (cs.map Command.bytes).flatten) 8 9 1 =
        some s' ∧
      s'.session.inst.packets = s.session.inst.packets ++ packets ∧
      List.Forall₂ (fun replies packet => replies.flatten.length ≤ 1472 ∧
        ∃ rc, packet = Packet.datagram replies.flatten rc) groups packets ∧
      groups.flatten = first ++ valueMessage 2 2 77 result reserved :: rest ∧
      first.length = 0 ∧ (result = 0 ∨ result = 0xFFFF) ∧
      (result = 0 ↔ ServerState.Unlocked ([unlocking].flatMap Turn.commands ++ [])) :=
  serial_number_guarded rfl TProtocol.listener _ _ _ () [unlocking] [] [] 2 77 (by decide) _ 8 9 1
    (by decide) (by decide)

end Surroundings

end KS3.Protocol
