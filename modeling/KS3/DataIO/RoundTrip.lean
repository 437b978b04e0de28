import KS3.DataIO.Messages
import KS3.DataIO.Reception

/-!
# From messages to octets and back

The transmitter seen as a writer: `Layer3Tx.payload` is the data block written so far, and each
message that `addMessage` accepts adds its octets at the end (`addMessage_accepted`). What
`finishTxPacket` leaves in memory are the octets of a frame (`read_finishTxPacket`). With the
receiver of frames and the parser of data blocks this gives `roundTrip`: what is packed, sent and
received is what is handed out.
-/

namespace KS3.DataIO

open Comm

/-! ## Packing -/

/-- The octets of a message given by the two pointers of `addMessage`. -/
def encoded (msg data : Mem) : List UInt8 :=
  if msg 0 = msgAppType then
    msg.read 0 sizeofTMsgAppTypeHeader ++ data.read 0 (appDataSize msg)
  else
    msg.read 0 ((recordSize (msg 0)).getD 0)

namespace Layer3Tx

variable {t : Layer3Tx} {msg data : Mem}

/-- The data block written so far. -/
def payload (t : Layer3Tx) : List UInt8 := t.txPacket.read 10 t.txIndex

theorem append_append {as : List UInt8} (hlt : t.txIndex + as.length < 2 ^ 16)
    (bs : List UInt8) : (t.append as).append bs = t.append (as ++ bs) := by
  simp only [append, Nat.mod_eq_of_lt hlt, List.length_append, ← Nat.add_assoc, Mem.write_append]

theorem txIndex_append {bs : List UInt8} (hlt : t.txIndex + bs.length < 2 ^ 16) :
    (t.append bs).txIndex = t.txIndex + bs.length := Nat.mod_eq_of_lt hlt

theorem payload_append {bs : List UInt8} (hlt : t.txIndex + bs.length < 2 ^ 16) :
    (t.append bs).payload = t.payload ++ bs := by
  rw [payload, txIndex_append hlt, Mem.read_add, payload]
  simp only [append]
  rw [Mem.read_write, Mem.read_write_of_le _ le_rfl]

/-- A packet being filled, inside its limit. -/
structure Fits (t : Layer3Tx) : Prop where
  index_le : t.txIndex ≤ t.maxTxAppSize
  max_le : t.maxTxAppSize ≤ maxLayer2DataSize

/-- A packet being filled, inside a limit of 16 bits. -/
structure InBounds (t : Layer3Tx) : Prop where
  index_le : t.txIndex ≤ t.maxTxAppSize
  max_lt : t.maxTxAppSize < 2 ^ 16

theorem Fits.inBounds (h : t.Fits) : t.InBounds where
  index_le := h.index_le
  max_lt := h.max_le.trans_lt (by decide)

theorem InBounds.getTxBufferFree (h : t.InBounds) :
    t.getTxBufferFree = t.maxTxAppSize - t.txIndex := by
  obtain ⟨hi, hm⟩ := h
  simp only [Layer3Tx.getTxBufferFree]
  omega

/-- An application header whose message has a size that does not fit into 16 bits. -/
def Wraps (msg : Mem) : Prop := msg 0 = msgAppType ∧ 0xFFFA ≤ appDataSize msg

instance (msg : Mem) : Decidable (Wraps msg) := inferInstanceAs (Decidable (_ ∧ _))

theorem Wraps.mod_size (hw : Wraps msg) :
    (sizeofTMsgAppTypeHeader + appDataSize msg) % 2 ^ 16 = appDataSize msg - 0xFFFA := by
  have hlt := appDataSize_lt msg
  have hbig := hw.2
  simp only [sizeofTMsgAppTypeHeader]
  omega

theorem addMessage_unknown (h : messageSize msg = none) (data : Mem) :
    t.addMessage msg data = ⟨-2, t, []⟩ := by
  rw [messageSize] at h
  split_ifs at h with hid
  rw [addMessage, if_neg hid, h]

/-- The case of an application message whose size does not wrap. -/
theorem addAppMessage_eq (h : t.InBounds)
    (hlt : sizeofTMsgAppTypeHeader + appDataSize msg < 2 ^ 16) (data : Mem) :
    ∃ copies : List (ℕ × ℕ),
      (∀ c ∈ copies, c.1 + c.2 ≤ t.txIndex + (sizeofTMsgAppTypeHeader + appDataSize msg)) ∧
      t.addAppMessage msg data =
        if t.txIndex + (sizeofTMsgAppTypeHeader + appDataSize msg) ≤ t.maxTxAppSize then
          ⟨0, t.append (msg.read 0 sizeofTMsgAppTypeHeader ++ data.read 0 (appDataSize msg)),
            copies⟩
        else ⟨-1, t, []⟩ := by
  obtain ⟨hi, hm⟩ := id h
  rw [addAppMessage, Nat.mod_eq_of_lt hlt, h.getTxBufferFree]
  by_cases hroom : t.txIndex + (sizeofTMsgAppTypeHeader + appDataSize msg) ≤ t.maxTxAppSize
  · rw [if_neg (by omega)]
    simp only [if_pos hroom]
    have hhead : (t.append (msg.read 0 sizeofTMsgAppTypeHeader)).txIndex =
        t.txIndex + sizeofTMsgAppTypeHeader := by
      rw [txIndex_append (by rw [Mem.length_read]; omega), Mem.length_read]
    by_cases hzero : appDataSize msg = 0
    · refine ⟨[(t.txIndex, sizeofTMsgAppTypeHeader)], by simp, ?_⟩
      rw [if_neg (not_not.2 hzero), hzero, Mem.read_zero, List.append_nil]
    · refine ⟨[(t.txIndex, sizeofTMsgAppTypeHeader),
        (t.txIndex + sizeofTMsgAppTypeHeader, appDataSize msg)], by simp [Nat.add_assoc], ?_⟩
      rw [if_pos hzero, hhead, append_append (by rw [Mem.length_read]; omega)]
  · rw [if_pos (by omega)]
    exact ⟨[], by simp, by rw [if_neg hroom]⟩

/-- **What `addMessage` does** with a known message whose size does not wrap: it is appended if
there is room for it, and else refused. -/
theorem addMessage_eq (h : t.InBounds) {size : ℕ} (hsize : messageSize msg = some size)
    (hw : ¬ Wraps msg) (data : Mem) :
    (encoded msg data).length = size ∧ ∃ copies : List (ℕ × ℕ),
      (∀ c ∈ copies, c.1 + c.2 ≤ t.txIndex + size) ∧
      t.addMessage msg data =
        if t.txIndex + size ≤ t.maxTxAppSize then ⟨0, t.append (encoded msg data), copies⟩
        else ⟨-1, t, []⟩ := by
  by_cases hid : msg 0 = msgAppType
  · have hlt : sizeofTMsgAppTypeHeader + appDataSize msg < 2 ^ 16 := by
      have : ¬ 0xFFFA ≤ appDataSize msg := fun hbig => hw ⟨hid, hbig⟩
      simp only [sizeofTMsgAppTypeHeader]
      omega
    rw [messageSize, if_pos hid, Nat.mod_eq_of_lt hlt, Option.some.injEq] at hsize
    rw [encoded, if_pos hid, addMessage, if_pos hid, ← hsize]
    exact ⟨by simp, addAppMessage_eq h hlt data⟩
  · rw [messageSize, if_neg hid] at hsize
    have hencoded : encoded msg data = msg.read 0 size := by
      rw [encoded, if_neg hid, hsize]
      rfl
    have hi := h.index_le
    refine ⟨by rw [hencoded, Mem.length_read], [(t.txIndex, size)], by simp, ?_⟩
    rw [addMessage, if_neg hid, hsize, hencoded]
    simp only [h.getTxBufferFree]
    by_cases hroom : t.txIndex + size ≤ t.maxTxAppSize
    · rw [if_neg (by omega), if_pos hroom]
    · rw [if_pos (by omega), if_neg hroom]

/-- `addMessage` with a message whose size wraps: the sum taken modulo `2 ^ 16` decides, and the
whole data are copied. -/
theorem addMessage_wraps (h : t.InBounds) (hw : Wraps msg) (data : Mem) :
    t.addMessage msg data =
      if t.txIndex + (appDataSize msg - 0xFFFA) ≤ t.maxTxAppSize then
        ⟨0, (t.append (msg.read 0 sizeofTMsgAppTypeHeader)).append
          (data.read 0 (appDataSize msg)),
          [(t.txIndex, sizeofTMsgAppTypeHeader),
            ((t.txIndex + sizeofTMsgAppTypeHeader) % 2 ^ 16, appDataSize msg)]⟩
      else ⟨-1, t, []⟩ := by
  obtain ⟨hid, hbig⟩ := id hw
  have hi := h.index_le
  rw [addMessage, if_pos hid, addAppMessage, hw.mod_size, h.getTxBufferFree]
  by_cases hroom : t.txIndex + (appDataSize msg - 0xFFFA) ≤ t.maxTxAppSize
  · rw [if_neg (by omega), if_pos hroom]
    simp only
    rw [if_pos (by omega)]
    simp [append]
  · rw [if_pos (by omega), if_neg hroom]

/-- The octets of an accepted message are a well-formed message. -/
theorem exists_message (msg data : Mem) (hlt : msg 0 = msgAppType →
      sizeofTMsgAppTypeHeader + appDataSize msg < 2 ^ 16)
    (hknown : msg 0 ≠ msgAppType → ∃ size, recordSize (msg 0) = some size) :
    ∃ a : Message, a.bytes = encoded msg data := by
  by_cases hid : msg 0 = msgAppType
  · have hbytes : encoded msg data = msg.read 0 6 ++ data.read 0 (appDataSize msg) := by
      rw [encoded, if_pos hid]
      rfl
    have hlen : (encoded msg data).length = 6 + appDataSize msg := by simp [hbytes]
    have hoct : ∀ k < 6, Mem.ofList (encoded msg data) k = msg k := by
      intro k hk
      have hk' : k < (msg.read 0 6).length := by simpa using hk
      rw [hbytes, Mem.ofList, List.getD_append _ _ _ _ hk', Mem.getD_read _ hk, Nat.zero_add]
    refine ⟨⟨encoded msg data, ?_, ?_⟩, rfl⟩
    · have hsize : messageSize (Mem.ofList (encoded msg data)) = messageSize msg := by
        refine messageSize_ext (hoct 0 (by omega)) fun _ => ?_
        rw [Mem.word, Mem.word, hoct 4 (by omega), hoct (4 + 1) (by omega)]
      rw [hsize, messageSize, if_pos hid, Nat.mod_eq_of_lt (hlt hid), hlen]
      rfl
    · intro _
      simp only [sizeofTMsgAppTypeHeader]
      omega
  · obtain ⟨size, hsize⟩ := hknown hid
    have hbytes : encoded msg data = msg.read 0 size := by
      rw [encoded, if_neg hid, hsize]
      rfl
    have hid' : Mem.ofList (encoded msg data) 0 = msg 0 := by
      rw [hbytes, Mem.ofList, Mem.getD_read _ (recordSize_pos hsize)]
    refine ⟨⟨encoded msg data, ?_, fun h => absurd (hid'.symm.trans h) hid⟩, rfl⟩
    rw [messageSize, hid', if_neg hid, hsize, hbytes, Mem.length_read]

/-- **One accepted message** adds the octets of a well-formed message. -/
theorem addMessage_accepted (h : t.Fits)
    (hlt : msg 0 = msgAppType → sizeofTMsgAppTypeHeader + appDataSize msg < 2 ^ 16)
    (hrc : (t.addMessage msg data).rc = 0) :
    ∃ a : Message, a.bytes = encoded msg data ∧ (t.addMessage msg data).tx.Fits ∧
      (t.addMessage msg data).tx.txIndex = t.txIndex + a.bytes.length ∧
      (t.addMessage msg data).tx.payload = t.payload ++ a.bytes := by
  have hm := h.max_le
  simp only [maxLayer2DataSize] at hm
  obtain ⟨size, hsize⟩ : ∃ size, messageSize msg = some size := by
    rcases hsize : messageSize msg with _ | size
    · rw [addMessage_unknown hsize data] at hrc
      cases hrc
    · exact ⟨size, rfl⟩
  have hknown : msg 0 ≠ msgAppType → ∃ size, recordSize (msg 0) = some size := fun hid =>
    ⟨size, by rwa [messageSize, if_neg hid] at hsize⟩
  obtain ⟨a, ha⟩ := exists_message msg data hlt hknown
  have hw : ¬ Wraps msg := fun hw => by
    have := hlt hw.1
    have := hw.2
    simp only [sizeofTMsgAppTypeHeader] at *
    omega
  have htx : (t.addMessage msg data).tx = t.append (encoded msg data) ∧
      t.txIndex + (encoded msg data).length ≤ t.maxTxAppSize := by
    obtain ⟨hlen, copies, -, heq⟩ := addMessage_eq h.inBounds hsize hw data
    rw [heq] at hrc ⊢
    rw [hlen]
    by_cases hroom : t.txIndex + size ≤ t.maxTxAppSize
    · rw [if_pos hroom]
      exact ⟨rfl, hroom⟩
    · rw [if_neg hroom] at hrc
      cases hrc
  obtain ⟨htx, hle⟩ := htx
  have hlt' : t.txIndex + (encoded msg data).length < 2 ^ 16 := by omega
  refine ⟨a, ha, ?_, ?_, ?_⟩
  · rw [htx]
    exact ⟨(txIndex_append hlt').trans_le hle, h.max_le⟩
  · rw [htx, txIndex_append hlt', ha]
  · rw [htx, payload_append hlt', ha]

/-- Accepted messages one after another. -/
theorem addMessages_accepted (msgs : List (Mem × Mem)) (h : t.Fits)
    (hlt : ∀ p ∈ msgs, p.1 0 = msgAppType → sizeofTMsgAppTypeHeader + appDataSize p.1 < 2 ^ 16)
    (hrc : ∀ rc ∈ (t.addMessages msgs).1, rc = 0) :
    ∃ as : List Message, as.map Message.bytes = msgs.map (fun p => encoded p.1 p.2) ∧
      (t.addMessages msgs).2.Fits ∧
      (t.addMessages msgs).2.txIndex =
        t.txIndex + (as.map Message.bytes).flatten.length ∧
      (t.addMessages msgs).2.payload = t.payload ++ (as.map Message.bytes).flatten := by
  induction msgs generalizing t with
  | nil => exact ⟨[], rfl, h, rfl, (List.append_nil _).symm⟩
  | cons p msgs ih =>
    obtain ⟨msg, data⟩ := p
    simp only [addMessages, List.forall_mem_cons] at hlt hrc ⊢
    obtain ⟨a, ha, hfits, hidx, hpay⟩ := addMessage_accepted h hlt.1 hrc.1
    obtain ⟨as, has, hfits', hidx', hpay'⟩ := ih hfits hlt.2 hrc.2
    refine ⟨a :: as, ?_, hfits', ?_, ?_⟩
    · rw [List.map_cons, List.map_cons, ha, has]
    · rw [hidx', hidx, List.map_cons, List.flatten_cons, List.length_append, Nat.add_assoc]
    · rw [hpay', hpay, List.map_cons, List.flatten_cons, List.append_assoc]

end Layer3Tx

/-! ## The finished packet -/

/-- A packet with its preamble and addresses. -/
def addressed (l : DataIOLayer2) (dest : UInt8) (p : Mem) : Mem :=
  ((p.write 0 [layer2PreambleB0, layer2PreambleB1]).store 3 l.selfAddress).store 2 dest

theorem addressed_of_le (l : DataIOLayer2) (dest : UInt8) (p : Mem) {k : ℕ} (hk : 4 ≤ k) :
    addressed l dest p k = p k := by
  rw [addressed, Mem.store_of_ne _ (by omega), Mem.store_of_ne _ (by omega),
    Mem.write_of_le _ _ (by simp; omega)]

theorem read_addressed (l : DataIOLayer2) (f : Frame) (hsrc : f.src = l.selfAddress) {p : Mem}
    (hsize : p.word 4 = f.size) : (addressed l f.dest p).read 0 6 = f.head := by
  have hlo : loByte f.size = p 4 := by rw [← hsize, Mem.word, loByte_ofBytes]
  have hhi : hiByte f.size = p 5 := by rw [← hsize, Mem.word, hiByte_ofBytes]
  rw [Frame.head, hlo, hhi, hsrc]
  simp [Mem.read, List.range_succ, addressed, Mem.store, Mem.write, Function.update]

/-- What `finishTxPacket` leaves in a packet whose size field and data are those of a frame. -/
theorem read_finishTxPacket (l : DataIOLayer2) (f : Frame) (hsrc : f.src = l.selfAddress) {p : Mem}
    (hsize : p.word 4 = f.size) (hdata : p.read 10 f.data.length = f.data) :
    (l.finishTxPacket f.dest p).read 0 (10 + f.data.length) = f.bytes := by
  have hhead := read_addressed l f hsrc hsize
  -- the packet once the header CRC is in it
  obtain ⟨p₂, hp₂⟩ : ∃ p₂, p₂ =
      (addressed l f.dest p).write 6 [loByte f.headCrc, hiByte f.headCrc] := ⟨_, rfl⟩
  have hbelow : ∀ k < 6, p₂ k = addressed l f.dest p k := fun k hk => by
    rw [hp₂, Mem.write_of_lt _ (by omega)]
  have hsize₂ : (p₂.word 4).toNat = f.data.length := by
    rw [Mem.word, hbelow 4 (by omega), hbelow (4 + 1) (by omega), addressed_of_le _ _ _ (by omega),
      addressed_of_le _ _ _ (by omega), ← f.toNat_size, ← hsize, Mem.word]
  have hdata₂ : p₂.read 10 f.data.length = f.data := by
    refine (Mem.read_congr fun k _ => ?_).trans hdata
    rw [hp₂, Mem.write_of_le _ _ (by simp; omega), addressed_of_le _ _ _ (by omega)]
  have hfinish : l.finishTxPacket f.dest p = p₂.write 8 [loByte f.dataCrc, hiByte f.dataCrc] := by
    have hcrc : calcBlockCRC16i ((addressed l f.dest p).read 0 (sizeofLR2Header - 2)) 0xFFFF =
        f.headCrc := congrArg (calcBlockCRC16i · 0xFFFF) hhead
    have hcrc₂ : calcBlockCRC16i (p₂.read 10 (p₂.word 4).toNat) 0xFFFF = f.dataCrc := by
      rw [hsize₂, hdata₂]
      rfl
    rw [← hcrc₂, hp₂, ← hcrc]
    rfl
  -- read it back: header, header CRC, data CRC, data
  have hcrcs : (p₂.write 8 [loByte f.dataCrc, hiByte f.dataCrc]).read 0 10 =
      f.head ++ [loByte f.headCrc, hiByte f.headCrc] ++ [loByte f.dataCrc, hiByte f.dataCrc] := by
    have h₈ : (p₂.write 8 [loByte f.dataCrc, hiByte f.dataCrc]).read 8 2 =
        [loByte f.dataCrc, hiByte f.dataCrc] := Mem.read_write ..
    have h₆ : p₂.read 6 2 = [loByte f.headCrc, hiByte f.headCrc] := by
      rw [hp₂]
      exact Mem.read_write ..
    have h₀ : p₂.read 0 6 = f.head := by
      rw [hp₂, Mem.read_write_of_le _ (by omega), hhead]
    rw [show 10 = 6 + 2 + 2 from rfl, Mem.read_add _ 0 (6 + 2) 2, Nat.zero_add, h₈,
      Mem.read_write_of_le p₂ (show 0 + (6 + 2) ≤ 8 by omega), Mem.read_add, h₀, Nat.zero_add, h₆]
  have hrest : (p₂.write 8 [loByte f.dataCrc, hiByte f.dataCrc]).read 10 f.data.length =
      f.data := by
    refine (Mem.read_congr fun k _ => ?_).trans hdata₂
    exact Mem.write_of_le _ _ (by simp)
  rw [hfinish, Mem.read_add, hcrcs, Nat.zero_add, hrest]
  rfl

/-- The frame a filled packet becomes. -/
def Layer3Tx.frame (t : Layer3Tx) (l : DataIOLayer2) (dest : UInt8) (h : t.Fits) : Frame where
  dest := dest
  src := l.selfAddress
  data := t.payload
  size_le := by
    rw [Layer3Tx.payload, Mem.length_read]
    exact h.index_le.trans h.max_le

/-- **`finishTxPacket`** returns the length of a frame and leaves its octets in the packet. -/
theorem finishTxPacket_frame {t : Layer3Tx} (l : DataIOLayer2) (dest : UInt8) (h : t.Fits)
    (hpos : t.txIndex ≠ 0) :
    (t.finishTxPacket l dest).1 = 10 + t.txIndex ∧
      (t.finishTxPacket l dest).2.txPacket.read 0 (10 + t.txIndex) = (t.frame l dest h).bytes := by
  have hlen : (t.frame l dest h).data.length = t.txIndex := Mem.length_read ..
  have hlt : t.txIndex < 2 ^ 16 - 10 := by
    have := h.index_le.trans h.max_le
    simp only [maxLayer2DataSize] at this
    omega
  obtain ⟨p, hp⟩ : ∃ p, p = t.txPacket.write 4
      [loByte (UInt16.ofNat t.txIndex), hiByte (UInt16.ofNat t.txIndex)] := ⟨_, rfl⟩
  have hsize : p.word 4 = (t.frame l dest h).size := by
    rw [Frame.size, hlen, hp, Mem.word_write]
  have hdata : p.read 10 (t.frame l dest h).data.length = (t.frame l dest h).data := by
    rw [hlen]
    refine Mem.read_congr fun k _ => ?_
    rw [hp, Mem.write_of_le _ _ (by simp; omega)]
  have hread : (l.finishTxPacket dest p).read 0 (10 + t.txIndex) = (t.frame l dest h).bytes := by
    have hread := read_finishTxPacket l (t.frame l dest h) rfl hsize hdata
    rwa [hlen] at hread
  have hbytes : (t.frame l dest h).bytes.length = 10 + t.txIndex := by
    rw [Frame.length_bytes, hlen, Nat.add_comm]
  have hword : ((l.finishTxPacket dest p).word 4).toNat = t.txIndex := by
    rw [Mem.word_of_read _ (hbytes.symm ▸ hread) (by omega), ← hlen]
    exact Receiver.sizeField_frame (q := []) (List.append_nil _) (by omega)
  rw [Layer3Tx.finishTxPacket, if_pos hpos, ← hp]
  refine ⟨?_, hread⟩
  simp only [hword, sizeofLR2Header]
  omega

/-! ## The round trip -/

theorem payload_pos {as : List Message} (h : as ≠ []) : (as.map Message.bytes).flatten ≠ [] := by
  obtain ⟨a, as, rfl⟩ := List.exists_cons_of_ne_nil h
  rw [List.map_cons, List.flatten_cons]
  exact List.append_ne_nil_of_left_ne_nil (List.ne_nil_of_length_pos a.length_pos) _

/-- A filled packet, sent and received. -/
theorem deliver (sender receiver : DataIOLayer2) (rx : Layer3Rx) (dest : UInt8) {t : Layer3Tx}
    (h : t.Fits) {as : List Message} (has : as ≠ [])
    (hidx : t.txIndex = (as.map Message.bytes).flatten.length)
    (hpay : t.payload = (as.map Message.bytes).flatten) (hwait : receiver.state = .stWait)
    (hdest : receiver.station.Mine dest) {received : List ℤ × DataIOLayer2}
    (hrec : received = receiver.feed ((t.finishTxPacket sender dest).2.txPacket.read 0
      (t.finishTxPacket sender dest).1)) :
    (t.finishTxPacket sender dest).1 = 10 + t.txIndex ∧
      (∃ rcs, received.1 = rcs ++ [2] ∧ ∀ rc ∈ rcs, rc ≠ 2) ∧
      rx.readPacket received.2 = (⟨received.2.packet.shift 10, 0, t.txIndex⟩,
        some (dest.toUInt16, sender.selfAddress.toUInt16)) ∧
      (received.2.packet.shift 10).read 0 t.txIndex = (as.map Message.bytes).flatten := by
  have hpos : t.txIndex ≠ 0 := by
    rw [hidx]
    exact (List.length_pos_of_ne_nil (payload_pos has)).ne'
  obtain ⟨hlen, hsent⟩ := finishTxPacket_frame sender dest h hpos
  have hpay' : (t.frame sender dest h).data = (as.map Message.bytes).flatten := hpay
  have hsize : (t.frame sender dest h).data.length = t.txIndex := Mem.length_read ..
  rw [hlen, hsent] at hrec
  obtain ⟨hrcs, hready, -⟩ := DataIOLayer2.feed_frame (f := t.frame sender dest h) hwait
    (hpay' ▸ payload_pos has) hdest
  rw [← hrec] at hrcs hready
  obtain ⟨hptr, hblock⟩ := DataIOLayer2.getRxDataPtr_ready hready
  refine ⟨hlen, ?_, ?_, ?_⟩
  · rw [hrcs]
    exact ⟨_, rfl, by simp⟩
  · rw [Layer3Rx.readPacket, hptr, hsize]
    rfl
  · rw [← hpay', ← hblock, hsize]

/-- A filled packet, sent, received and taken apart. -/
theorem deliver_messages (sender receiver : DataIOLayer2) (dest : UInt8) {t : Layer3Tx}
    (h : t.Fits) {as : List Message} (has : as ≠ [])
    (hidx : t.txIndex = (as.map Message.bytes).flatten.length)
    (hpay : t.payload = (as.map Message.bytes).flatten) (hwait : receiver.state = .stWait)
    (hdest : receiver.station.Mine dest) :
    let received := receiver.feed ((t.finishTxPacket sender dest).2.txPacket.read 0
      (t.finishTxPacket sender dest).1)
    (t.finishTxPacket sender dest).1 = 10 + t.txIndex ∧
      (∃ rcs, received.1 = rcs ++ [2] ∧ ∀ rc ∈ rcs, rc ≠ 2) ∧
      ∀ rx : Layer3Rx,
        (rx.readPacket received.2).2 = some (dest.toUInt16, sender.selfAddress.toUInt16) ∧
        (rx.readPacket received.2).1.rxSize = t.txIndex ∧
        ∀ fuel > as.length, ∃ rx', Layer3Rx.forMessages Layer3Rx.keepBytes fuel
          (rx.readPacket received.2).1 [] = some (-1, rx', as.map Message.bytes) := by
  intro received
  have hlt : t.txIndex < 2 ^ 16 := by
    have := h.index_le.trans h.max_le
    simp only [maxLayer2DataSize] at this
    omega
  have hdeliver := fun rx => deliver sender receiver rx dest h has hidx hpay hwait hdest
    (show received = _ from rfl)
  obtain ⟨hlen, hrcs, -⟩ := hdeliver ⟨received.2.packet, 0, 0⟩
  refine ⟨hlen, hrcs, fun rx => ?_⟩
  obtain ⟨-, -, hread, hblock⟩ := hdeliver rx
  refine ⟨by rw [hread], by rw [hread], fun fuel hfuel => ?_⟩
  have hloop := forMessages_flatten hlt as (m := received.2.packet.shift 10) (i := 0)
    (by rw [Nat.zero_add, hidx]) hblock [] hfuel
  rw [hread, hloop]
  exact ⟨_, rfl⟩

/-- **Encode, then decode.** Any messages that are packed one after another, finished into a
packet for `dest` and fed to a waiting receiver with that address arrive: the receiver answers `2`
at the last octet and at no earlier one, `readPacket` gives the addresses and the size of the data
block, and `getMessagePtr` gives the octets of the messages in order, and then `-1`. -/
theorem roundTrip (sender receiver : DataIOLayer2) (tx : Layer3Tx) (rx : Layer3Rx) (buffer : Mem)
    (dest : UInt8) (msgs : List (Mem × Mem)) (hne : msgs ≠ [])
    (hmax : tx.maxTxAppSize ≤ maxLayer2DataSize)
    (happ : ∀ p ∈ msgs, p.1 0 = msgAppType → sizeofTMsgAppTypeHeader + appDataSize p.1 < 2 ^ 16)
    (hrc : ∀ rc ∈ ((tx.startTxPacket buffer).addMessages msgs).1, rc = 0)
    (hwait : receiver.state = .stWait)
    (hdest : dest = receiver.selfAddress ∨ dest = receiver.broadcastAddress) :
    let filled := ((tx.startTxPacket buffer).addMessages msgs).2
    let sent := filled.finishTxPacket sender dest
    let received := receiver.feed (sent.2.txPacket.read 0 sent.1)
    let packet := rx.readPacket received.2
    sent.1 = 10 + filled.txIndex ∧
      (∃ rcs, received.1 = rcs ++ [2] ∧ ∀ rc ∈ rcs, rc ≠ 2) ∧
      packet.2 = some (dest.toUInt16, sender.selfAddress.toUInt16) ∧
      packet.1.rxSize = filled.txIndex ∧
      ∀ fuel > msgs.length, ∃ rx', Layer3Rx.forMessages Layer3Rx.keepBytes fuel packet.1 [] =
        some (-1, rx', msgs.map fun p => encoded p.1 p.2) := by
  intro filled sent received packet
  have hstart : (tx.startTxPacket buffer).Fits := ⟨Nat.zero_le _, hmax⟩
  obtain ⟨as, has, hfits, hidx, hpay⟩ := Layer3Tx.addMessages_accepted msgs hstart happ hrc
  have hne' : as ≠ [] := by
    rintro rfl
    exact hne (List.map_eq_nil_iff.1 has.symm)
  have hidx' : filled.txIndex = (as.map Message.bytes).flatten.length :=
    hidx.trans (Nat.zero_add _)
  obtain ⟨hlen, hrcs, hrx⟩ := deliver_messages sender receiver dest hfits hne' hidx' hpay hwait
    hdest
  obtain ⟨haddresses, hsize, hloop⟩ := hrx rx
  refine ⟨hlen, hrcs, haddresses, hsize, fun fuel hfuel => ?_⟩
  have hcount : as.length = msgs.length := by
    rw [← List.length_map (f := Message.bytes), has, List.length_map]
  obtain ⟨rx', hrx'⟩ := hloop fuel (hcount ▸ hfuel)
  exact ⟨rx', by rw [← has]; exact hrx'⟩

/-- A write of parameter 5 and an application message with two octets of data. -/
def twoMessages : List (Mem × Mem) :=
  [(Mem.ofList [0x10, 1, 5, 0, 42, 0, 0, 0], fun _ => 0),
    (Mem.ofList [0x80, 2, 7, 0, 2, 0], Mem.ofList [0xAA, 0x55])]

/-- The two messages travel from station 1 to station 9. -/
theorem roundTrip_two :
    let tx : Layer3Tx := ⟨fun _ => 0, 0, 244⟩
    let station (self : UInt8) : DataIOLayer2 :=
      ⟨fun _ => 0, fun _ => 0, .stWait, 0, 0, self, 0xFF, false⟩
    let filled := ((tx.startTxPacket fun _ => 0).addMessages twoMessages).2
    let sent := filled.finishTxPacket (station 1) 9
    let received := (station 9).feed (sent.2.txPacket.read 0 sent.1)
    let packet := Layer3Rx.readPacket ⟨fun _ => 0, 0, 0⟩ received.2
    sent.1 = 10 + filled.txIndex ∧
      (∃ rcs, received.1 = rcs ++ [2] ∧ ∀ rc ∈ rcs, rc ≠ 2) ∧
      packet.2 = some (9, 1) ∧ packet.1.rxSize = filled.txIndex ∧
      ∀ fuel > 2, ∃ rx', Layer3Rx.forMessages Layer3Rx.keepBytes fuel packet.1 [] =
        some (-1, rx', twoMessages.map fun p => encoded p.1 p.2) :=
  roundTrip _ _ _ _ _ 9 twoMessages (by simp [twoMessages]) (by decide) (by decide) (by decide) rfl
    (.inl rfl)

end KS3.DataIO
