import KS3.DataIO.Bounds
import KS3.DataIO.Frame

/-!
# The code's receiver refines the receiver of frames

`Tracks` relates the receiver of the code, with its buffer, index and CRC register, to `Receiver`,
which only has the list of collected octets. As long as the 16-bit index does not wrap, each octet
gives the same result code on both sides and keeps the relation (`tracks_rxHandler`), hence so
does a string of octets (`tracks_feed`).

* `feed_frame`, `feed_foreign`: the two results about whole frames, for the code's receiver;
* `accepted_is_frame`: along every run that stays inside the buffer, a packet is only ever
  declared ready when the latest octets are a complete frame for this station, and
  `getRxDataPtr` returns the parts of that frame.
-/

namespace KS3.DataIO

open Comm

/-- How many octets a receiver has collected. -/
def Receiver.load : Receiver → ℕ
  | .wait => 0
  | .preamble2 => 1
  | .frame fr => fr.length
  | .ready _ => 0

/-- An octet adds at most one to what is collected. -/
theorem Receiver.load_next (st : Station) (r : Receiver) (b : UInt8) :
    (r.next st b).2.load ≤ r.load + 1 := by
  cases r with
  | wait =>
    simp only [next]
    split <;> simp [load]
  | preamble2 =>
    simp only [next]
    split <;> simp [load]
  | frame fr =>
    simp only [next, collect, endHeader, endData]
    split_ifs <;> simp [load]
  | ready fr => simp [next, load]

namespace DataIOLayer2

variable {l : DataIOLayer2} {fr : List UInt8}

/-- The station of a receiver. -/
def station (l : DataIOLayer2) : Station := ⟨l.selfAddress, l.broadcastAddress, l.enableDataIOLt⟩

/-- An octet does not move the receiver to another station. -/
theorem station_rxHandler (l : DataIOLayer2) (b : UInt8) :
    (l.rxHandler b).layer2.station = l.station := by
  simp only [rxHandler, rxData, endData, rxWait, rxPreamble2, rxHeader, endHeader]
  split <;> (try split_ifs) <;> rfl

/-- Without DataIO-Lt no octet gives `3`. -/
theorem rc_rxHandler_ne (l : DataIOLayer2) (hlt : l.enableDataIOLt = false) (b : UInt8) :
    (l.rxHandler b).rc ≠ 3 := by
  simp only [rxHandler, rxData, endData, rxWait, rxPreamble2, rxHeader, endHeader, hlt]
  split <;> (try split_ifs) <;> simp_all

/-- The state of the code's receiver with `n` octets collected. -/
def stateAt (n : ℕ) : TRxState :=
  if n < 8 then .stRxHeader else if n = 8 then .stCRC0 else if n = 9 then .stCRC1 else .stRxData

theorem stateAt_data {n : ℕ} (h : 10 ≤ n) : stateAt n = .stRxData := by
  rw [stateAt, if_neg (by omega), if_neg (by omega), if_neg (by omega)]

/-- The code's receiver has the octets `fr` of a frame in its buffer, and its CRC register covers
the part of them that it should. -/
structure Collects (l : DataIOLayer2) (fr : List UInt8) : Prop where
  two_le : 2 ≤ fr.length
  state : l.state = stateAt fr.length
  index : l.index = fr.length
  packet : l.packet.read 0 fr.length = fr
  headCrc : fr.length < 8 → l.rxCrc16 = calcBlockCRC16i (fr.take 6) 0xFFFF
  dataCrc : 10 ≤ fr.length → l.rxCrc16 = calcBlockCRC16i (fr.drop 10) 0xFFFF

/-- The code's receiver is in the given state of the receiver of frames. -/
def Tracks (l : DataIOLayer2) : Receiver → Prop
  | .wait => l.state = .stWait
  | .preamble2 => l.state = .stPreamble2 ∧ l.packet 0 = layer2PreambleB0
  | .frame fr => l.Collects fr
  | .ready fr => l.state = .stPacketReady ∧ l.packet.read 0 fr.length = fr

/-- A receiver with a packet ready has collected a whole frame. -/
theorem Tracks.eq_ready {r : Receiver} (h : l.Tracks r) (hready : l.state = .stPacketReady) :
    ∃ fr, r = .ready fr := by
  cases r with
  | wait => exact absurd (hready.symm.trans h) (by decide)
  | preamble2 => exact absurd (hready.symm.trans h.1) (by decide)
  | frame fr =>
    have hs := Collects.state h
    simp only [stateAt] at hs
    split_ifs at hs <;> exact absurd (hready.symm.trans hs) (by decide)
  | ready fr => exact ⟨fr, rfl⟩

/-! ## One octet -/

theorem push_packet (hi : l.index = fr.length) (h : l.packet.read 0 fr.length = fr) (b : UInt8) :
    (l.push b).packet.read 0 (fr ++ [b]).length = fr ++ [b] := by
  have hlen : (fr ++ [b]).length = fr.length + 1 := by simp
  rw [hlen, Mem.read_succ]
  simp only [push, hi, Nat.zero_add]
  rw [Mem.store_self, Mem.read_store_of_le _ (by omega), h]

theorem push_index (hi : l.index = fr.length) (hlt : fr.length < 2 ^ 16 - 1) (b : UInt8) :
    (l.push b).index = (fr ++ [b]).length := by
  simp only [push, hi, List.length_append, List.length_singleton]
  omega

/-- An octet of the header. -/
theorem tracks_rxHeader (h : l.Collects fr) (h₈ : fr.length < 8) (b : UInt8) :
    (l.rxHeader b).1 = (Receiver.collect l.station (fr ++ [b])).1 ∧
      (l.rxHeader b).2.Tracks (Receiver.collect l.station (fr ++ [b])).2 ∧
      (l.rxHeader b).2.station = l.station := by
  have hlen : (fr ++ [b]).length = fr.length + 1 := by simp
  have hidx : (l.rxHeaderByte b).index = (fr ++ [b]).length := push_index h.index (by omega) b
  have hpkt : (l.rxHeaderByte b).packet.read 0 (fr ++ [b]).length = fr ++ [b] :=
    push_packet h.index h.packet b
  have hcrc : (l.rxHeaderByte b).rxCrc16 = calcBlockCRC16i ((fr ++ [b]).take 6) 0xFFFF := by
    simp only [rxHeaderByte, h.index, sizeofLR2Header, h.headCrc h₈]
    split
    · rw [List.take_of_length_le (by omega), List.take_of_length_le (by omega),
        calcBlockCRC16i_concat]
    · rw [List.take_append_of_le_length (by omega)]
  by_cases h₇ : fr.length = 7
  · -- the header is complete: the same checks on both sides
    have hsize : (l.rxHeaderByte b).dataSize = sizeField (fr ++ [b]) :=
      congrArg UInt16.toNat (Mem.word_of_read _ hpkt (by omega))
    have hhead : (l.rxHeaderByte b).headerCrc16 = (Mem.ofList (fr ++ [b])).word 6 :=
      Mem.word_of_read _ hpkt (by omega)
    have hdest : (l.rxHeaderByte b).destAddress = Mem.ofList (fr ++ [b]) 2 :=
      Mem.eq_ofList_of_read _ hpkt (by omega)
    rw [rxHeader, if_pos (by simp only [sizeofLR2Header]; omega), Receiver.collect,
      if_pos (by omega), endHeader, Receiver.endHeader, hsize, hcrc, hhead, hdest]
    by_cases hbig : maxLayer2DataSize < sizeField (fr ++ [b])
    · simp only [gt_iff_lt, if_pos hbig]
      exact ⟨trivial, rfl, rfl⟩
    by_cases hok : (Mem.ofList (fr ++ [b])).word 6 = calcBlockCRC16i ((fr ++ [b]).take 6) 0xFFFF
    · by_cases hmine : l.station.Mine (Mem.ofList (fr ++ [b]) 2)
      · simp only [gt_iff_lt, if_neg hbig, if_pos hok, if_pos hok.symm, if_pos hmine,
          if_pos (show Mem.ofList (fr ++ [b]) 2 = (l.rxHeaderByte b).selfAddress ∨
            Mem.ofList (fr ++ [b]) 2 = (l.rxHeaderByte b).broadcastAddress from hmine)]
        refine ⟨trivial, ⟨by omega, ?_, hidx, hpkt, by omega, by omega⟩, rfl⟩
        rw [hlen, h₇]
        rfl
      · simp only [gt_iff_lt, if_neg hbig, if_pos hok, if_pos hok.symm, if_neg hmine,
          if_neg (show ¬ (Mem.ofList (fr ++ [b]) 2 = (l.rxHeaderByte b).selfAddress ∨
            Mem.ofList (fr ++ [b]) 2 = (l.rxHeaderByte b).broadcastAddress) from hmine)]
        exact ⟨trivial, rfl, rfl⟩
    · simp only [gt_iff_lt, if_neg hbig, if_neg hok, if_neg (Ne.symm hok)]
      exact ⟨trivial, rfl, rfl⟩
  · rw [rxHeader, if_neg (by simp only [sizeofLR2Header]; omega),
      Receiver.collect_of_ne (by omega) (by omega)]
    have h₂ := h.two_le
    refine ⟨rfl, ⟨by omega, ?_, hidx, hpkt, fun _ => hcrc, fun h' => by omega⟩, rfl⟩
    have hs : (l.rxHeaderByte b).state = l.state := rfl
    rw [hs, h.state, hlen]
    simp only [stateAt, if_pos h₈, if_pos (show fr.length + 1 < 8 by omega)]

/-- An octet of the data. -/
theorem tracks_rxData (h : l.Collects fr) (h₁₀ : 10 ≤ fr.length) (hlt : fr.length < 2 ^ 16 - 1)
    (b : UInt8) :
    (l.rxData b).1 = (Receiver.collect l.station (fr ++ [b])).1 ∧
      (l.rxData b).2.Tracks (Receiver.collect l.station (fr ++ [b])).2 ∧
      (l.rxData b).2.station = l.station := by
  have hlen : (fr ++ [b]).length = fr.length + 1 := by simp
  have hidx : (l.rxDataByte b).index = (fr ++ [b]).length := push_index h.index hlt b
  have hpkt : (l.rxDataByte b).packet.read 0 (fr ++ [b]).length = fr ++ [b] :=
    push_packet h.index h.packet b
  have hcrc : (l.rxDataByte b).rxCrc16 = calcBlockCRC16i ((fr ++ [b]).drop 10) 0xFFFF := by
    rw [List.drop_append_of_le_length (by omega), calcBlockCRC16i_concat, ← h.dataCrc h₁₀]
    rfl
  have hsize : (l.rxDataByte b).dataSize = sizeField (fr ++ [b]) :=
    congrArg UInt16.toNat (Mem.word_of_read _ hpkt (by omega))
  have hword : (l.rxDataByte b).crc16 = (Mem.ofList (fr ++ [b])).word 8 :=
    Mem.word_of_read _ hpkt (by omega)
  rw [rxData, hidx, hsize, Receiver.collect, if_neg (show ¬ (fr ++ [b]).length = 8 by omega)]
  simp only [sizeofLR2Header, Nat.add_assoc, Nat.reduceAdd]
  by_cases hend : (fr ++ [b]).length = sizeField (fr ++ [b]) + 10
  · rw [if_pos hend, if_pos ⟨by omega, hend⟩, endData, Receiver.endData, hword, hcrc]
    by_cases hok : (Mem.ofList (fr ++ [b])).word 8 = calcBlockCRC16i ((fr ++ [b]).drop 10) 0xFFFF
    · rw [if_pos hok, if_pos hok]
      exact ⟨rfl, ⟨rfl, hpkt⟩, rfl⟩
    · rw [if_neg hok, if_neg hok]
      exact ⟨rfl, rfl, rfl⟩
  · rw [if_neg hend, if_neg fun hc => hend hc.2]
    refine ⟨rfl, ⟨by omega, ?_, hidx, hpkt, by omega, fun _ => hcrc⟩, rfl⟩
    have hs : (l.rxDataByte b).state = l.state := rfl
    rw [hs, h.state, hlen]
    rw [stateAt_data h₁₀, stateAt_data (by omega)]

/-- **One octet**: the code's receiver answers as the receiver of frames does, and keeps track of
it. -/
theorem tracks_rxHandler {r : Receiver} (h : l.Tracks r) (hlt : r.load < 2 ^ 16 - 1) (b : UInt8) :
    (l.rxHandler b).rc = (r.next l.station b).1 ∧
      (l.rxHandler b).layer2.Tracks (r.next l.station b).2 ∧
      (l.rxHandler b).layer2.station = l.station := by
  cases r with
  | wait =>
    rw [rxHandler_stWait b h, rxWait, Receiver.next]
    by_cases hb : b = layer2PreambleB0
    · rw [if_pos hb, if_pos hb]
      exact ⟨rfl, ⟨rfl, (l.packet.store_self 0 b).trans hb⟩, rfl⟩
    · rw [if_neg hb, if_neg hb]
      exact ⟨rfl, h, rfl⟩
  | preamble2 =>
    obtain ⟨hs, h₀⟩ := h
    rw [rxHandler_stPreamble2 b hs, rxPreamble2, Receiver.next]
    by_cases hb : b = layer2PreambleB1
    · rw [if_pos hb, if_pos hb]
      have hcrc : layer2PreambleCRC16 =
          calcBlockCRC16i [layer2PreambleB0, layer2PreambleB1] 0xFFFF := by decide
      refine ⟨rfl, ⟨by simp, rfl, rfl, ?_, fun _ => hcrc, by simp⟩, rfl⟩
      have h₀' : l.packet.store 1 b 0 = layer2PreambleB0 :=
        (Mem.store_of_ne _ (by omega) b).trans h₀
      have h₁' : l.packet.store 1 b 1 = layer2PreambleB1 := (Mem.store_self ..).trans hb
      simp [Mem.read, List.range_succ, h₀', h₁']
    · rw [if_neg hb, if_neg hb]
      exact ⟨rfl, rfl, rfl⟩
  | frame fr =>
    have hlen : (fr ++ [b]).length = fr.length + 1 := by simp
    have hlt : fr.length < 2 ^ 16 - 1 := hlt
    obtain ⟨h₂, hs, hi, hp, -, -⟩ := id h
    have hpkt := push_packet hi hp b
    have hidx := push_index hi hlt b
    rcases lt_trichotomy fr.length 8 with h₈ | h₈ | h₈
    · rw [rxHandler_stRxHeader b (hs.trans (if_pos h₈))]
      exact tracks_rxHeader h h₈ b
    · -- the first octet of the data CRC
      rw [h₈] at hs
      rw [rxHandler_stCRC0 b hs, Receiver.next, Receiver.collect_of_ne (by omega) (by omega)]
      refine ⟨rfl, ⟨by omega, ?_, hidx, hpkt, by omega, by omega⟩, rfl⟩
      rw [hlen, h₈]
      rfl
    · by_cases h₉ : fr.length = 9
      · rw [h₉] at hs
        rw [rxHandler_stCRC1 b hs, Receiver.next, Receiver.collect_of_ne (by omega) (by omega)]
        refine ⟨rfl, ⟨by omega, ?_, hidx, hpkt, by omega, fun _ => ?_⟩, rfl⟩
        · rw [hlen, h₉]
          rfl
        · rw [List.drop_of_length_le (by omega)]
          rfl
      · rw [rxHandler_stRxData b (hs.trans (stateAt_data (by omega)))]
        exact tracks_rxData h (by omega) hlt b
  | ready fr =>
    rw [rxHandler_stPacketReady b h.1]
    exact ⟨rfl, h, rfl⟩

/-! ## Strings of octets -/

theorem feed_append (l : DataIOLayer2) (as bs : List UInt8) :
    l.feed (as ++ bs) =
      ((l.feed as).1 ++ ((l.feed as).2.feed bs).1, ((l.feed as).2.feed bs).2) := by
  induction as generalizing l with
  | nil => rfl
  | cons a as ih => simp only [List.cons_append, feed, ih]

/-- **A string of octets** that cannot make the index wrap. -/
theorem tracks_feed {r : Receiver} (bs : List UInt8) (h : l.Tracks r)
    (hlt : r.load + bs.length < 2 ^ 16) :
    (l.feed bs).1 = (r.feed l.station bs).1 ∧ (l.feed bs).2.Tracks (r.feed l.station bs).2 ∧
      (l.feed bs).2.station = l.station := by
  induction bs generalizing l r with
  | nil => exact ⟨rfl, h, rfl⟩
  | cons b bs ih =>
    simp only [List.length_cons] at hlt
    obtain ⟨hrc, htr, hst⟩ := tracks_rxHandler h (by omega) b
    have hload := r.load_next l.station b
    obtain ⟨hrcs, htrs, hsts⟩ := ih htr (by omega)
    rw [hst] at hrcs htrs hsts
    simp only [feed, Receiver.feed, hrc, hrcs]
    exact ⟨trivial, htrs, hsts⟩

/-- A frame with data for this station: ready at its last octet and not before. -/
theorem feed_frame {f : Frame} (hwait : l.state = .stWait) (hdata : f.data ≠ [])
    (hmine : l.station.Mine f.dest) :
    (l.feed f.bytes).1 = 0 :: List.replicate (f.data.length + 8) 1 ++ [2] ∧
      (l.feed f.bytes).2.Tracks (.ready f.bytes) ∧ (l.feed f.bytes).2.station = l.station := by
  have hle := f.size_le
  have h := tracks_feed (r := .wait) f.bytes hwait
    (by simp only [f.length_bytes, maxLayer2DataSize, Receiver.load] at *; omega)
  rwa [Receiver.feed_frame hdata hmine] at h

/-- A frame for somebody else, whose octets behind the header hold no preamble. -/
theorem feed_foreign {f : Frame} (hwait : l.state = .stWait) (hlt : l.enableDataIOLt = false)
    (hforeign : ¬ l.station.Mine f.dest) (hn : Receiver.NoPreamble f.tail)
    (hl : f.tail.getLast? ≠ some layer2PreambleB0) :
    (∀ r ∈ (l.feed f.bytes).1, r ≠ 2 ∧ r ≠ 3) ∧ (l.feed f.bytes).2.state = .stWait ∧
      (l.feed f.bytes).2.station = l.station := by
  have hle := f.size_le
  have h := tracks_feed (r := .wait) f.bytes hwait
    (by simp only [f.length_bytes, maxLayer2DataSize, Receiver.load] at *; omega)
  obtain ⟨rcs, hrcs, hall⟩ := @Receiver.feed_foreign l.station hlt f hforeign hn hl
  rw [hrcs] at h
  refine ⟨?_, h.2.1, h.2.2⟩
  rw [h.1]
  exact hall

/-- The packet of a ready receiver, as `getRxDataPtr` hands it out. -/
theorem getRxDataPtr_ready {f : Frame} (h : l.Tracks (.ready f.bytes)) :
    l.getRxDataPtr = some (l.packet.shift 10, f.dest.toUInt16, f.src.toUInt16, f.data.length) ∧
      (l.packet.shift 10).read 0 f.data.length = f.data := by
  obtain ⟨hs, hp⟩ := h
  have hlen := f.length_bytes
  have hdest : l.destAddress = f.dest := l.packet.eq_ofList_of_read hp (by omega)
  have hsrc : l.srcAddress = f.src := l.packet.eq_ofList_of_read hp (by omega)
  have hsize : l.dataSize = f.data.length := by
    rw [dataSize, l.packet.word_of_read hp (by omega)]
    exact Receiver.sizeField_frame (p := f.bytes) (q := []) (List.append_nil _) (by omega)
  refine ⟨?_, ?_⟩
  · rw [getRxDataPtr, if_pos hs, hdest, hsrc, hsize]
  · have hdrop : f.bytes.drop 10 = f.data := rfl
    have hread : (l.packet.read 0 (10 + f.data.length)).drop 10 = l.packet.read 10 f.data.length :=
      Mem.drop_read ..
    rw [Mem.read_shift, Nat.add_zero, ← hread, Nat.add_comm, ← hlen, hp, hdrop]

/-! ## Acceptance along runs -/

/-- What is kept along a run: the octets since the latest `startRx` and the receiver of frames
they lead to. -/
def Explained (st : Station) (calls : List RxCall) (l : DataIOLayer2) : Prop :=
  l.station = st ∧ ∃ hist r, hist.map RxCall.rxHandler <:+ calls ∧ l.Tracks r ∧
    Receiver.Sound st hist r

/-- A receiver inside its buffer has collected less than a packet. -/
theorem load_lt_of_inBounds {r : Receiver} {b : UInt8} (h : l.Tracks r)
    (hin : l.InBounds (.rxHandler b)) : r.load < 2 ^ 16 - 1 := by
  cases r with
  | wait => simp [Receiver.load]
  | preamble2 => simp [Receiver.load]
  | ready fr => simp [Receiver.load]
  | frame fr =>
    have hstore : (l.rxHandler b).store = some l.index := by
      have hs := h.state
      simp only [stateAt] at hs
      split_ifs at hs
      · rw [rxHandler_stRxHeader b hs]
      · rw [rxHandler_stCRC0 b hs]
      · rw [rxHandler_stCRC1 b hs]
      · rw [rxHandler_stRxData b hs]
    have hlt := hin l.index hstore
    simp only [h.index, sizeofLR2Packet, sizeofLR2Header, maxLayer2DataSize] at hlt
    simp only [Receiver.load]
    omega

theorem explained_rxHandler {st : Station} {calls : List RxCall} {b : UInt8}
    (h : Explained st calls l) (hin : l.InBounds (.rxHandler b)) :
    Explained st (calls ++ [RxCall.rxHandler b]) (l.rxHandler b).layer2 := by
  obtain ⟨rfl, hist, r, hsuf, htr, hsound⟩ := h
  obtain ⟨-, htr', hst'⟩ := tracks_rxHandler htr (load_lt_of_inBounds htr hin) b
  refine ⟨hst', hist ++ [b], _, ?_, htr', Receiver.sound_next hsound b⟩
  obtain ⟨pre, rfl⟩ := hsuf
  exact ⟨pre, by simp⟩

/-- The calls of a receiver with fixed addresses that hunts for its own preambles. -/
def Plain : RxCall → Bool
  | .rxHandler _ => true
  | .startRx => true
  | _ => false

theorem explained_final (st : Station) {calls : List RxCall} (hst : l.station = st)
    (hwait : l.state = .stWait) (hplain : ∀ c ∈ calls, Plain c)
    (hin : ∀ m ∈ Run.steps call l calls, m.1.InBounds m.2) :
    Explained st calls (Run.final call l calls) := by
  apply Run.invariant_history (J := Explained st)
    (A := fun l c => Plain c ∧ l.InBounds c)
  · intro calls l c h hc
    cases c with
    | rxHandler b => exact explained_rxHandler h hc.2
    | startRx => exact ⟨h.1, [], .wait, List.nil_suffix, rfl, trivial⟩
    | setPreambleRecieved => cases hc.1
    | configure a₁ a₂ => cases hc.1
  · exact ⟨hst, [], .wait, List.suffix_rfl, hwait, trivial⟩
  · intro m hm
    exact ⟨hplain m.2 (Run.mem_of_mem_steps hm), hin m hm⟩

/-- **Acceptance is sound.** Along every run of octets and restarts from construction on whose
stores stay inside the packet, the octet that makes a packet ready is the last of a complete frame
for this station: the latest calls are `rxHandler` with the octets of the frame. The frame's parts
are what `getRxDataPtr` then returns. -/
theorem accepted_is_frame (l : DataIOLayer2) (calls : List RxCall) (b : UInt8)
    (hplain : ∀ c ∈ calls, Plain c)
    (hin : ∀ m ∈ Run.steps call l.construct (calls ++ [.rxHandler b]), m.1.InBounds m.2)
    (hbefore : (Run.final call l.construct calls).state = .stRxData)
    (hafter : (Run.final call l.construct (calls ++ [.rxHandler b])).state = .stPacketReady) :
    ∃ f : Frame, f.bytes.map RxCall.rxHandler <:+ calls ++ [.rxHandler b] ∧
      (f.dest = l.selfAddress ∨ f.dest = l.broadcastAddress) ∧
      ∃ data : Mem, (Run.final call l.construct (calls ++ [.rxHandler b])).getRxDataPtr =
          some (data, f.dest.toUInt16, f.src.toUInt16, f.data.length) ∧
        data.read 0 f.data.length = f.data := by
  rw [Run.steps_append, List.forall_mem_append] at hin
  obtain ⟨hst, hist, r, hsuf, htr, hsound⟩ :=
    explained_final (l := l.construct) l.construct.station rfl rfl hplain hin.1
  have hin' : (Run.final call l.construct calls).InBounds (.rxHandler b) :=
    hin.2 (_, _) List.mem_cons_self
  obtain ⟨-, htr', -⟩ := tracks_rxHandler htr (load_lt_of_inBounds htr hin') b
  rw [Run.final_append] at hafter ⊢
  rw [hst] at htr'
  -- the state before the octet is that of a frame with its header, the state after it is ready
  cases r with
  | wait => exact absurd (hbefore.symm.trans htr) (by decide)
  | preamble2 => exact absurd (hbefore.symm.trans htr.1) (by decide)
  | ready fr => exact absurd (hbefore.symm.trans htr.1) (by decide)
  | frame fr =>
    have h₈ : 8 ≤ fr.length := by
      by_contra hlt
      have hs := htr.state
      rw [hbefore, stateAt, if_pos (by omega)] at hs
      cases hs
    obtain ⟨fr', hnext⟩ := htr'.eq_ready hafter
    rw [hnext] at htr'
    obtain ⟨f, rfl, hmine, hf⟩ := Receiver.frame_of_ready hsound h₈ hnext
    refine ⟨f, ?_, hmine, _, getRxDataPtr_ready htr'⟩
    obtain ⟨pre, rfl⟩ := hsuf
    obtain ⟨pre', hpre'⟩ := hf
    refine ⟨pre ++ pre'.map .rxHandler, ?_⟩
    rw [List.append_assoc, ← List.map_append, hpre']
    simp

/-- A station with the address 9. -/
def stationNine : DataIOLayer2 := { blank with selfAddress := 9, broadcastAddress := 0xFF }

/-- A cut frame, a restart and a frame with one octet of data, up to that octet. -/
def restartCalls : List RxCall :=
  [.rxHandler 0xAA, .rxHandler 0x55, .rxHandler 9, .startRx] ++
    [0xAA, 0x55, 9, 1, 1, 0, 0x4A, 0x92, 0xF7, 0xE1].map .rxHandler

/-- The station accepts the frame. -/
theorem accepted_is_frame_small :
    ∃ f : Frame, f.bytes.map RxCall.rxHandler <:+ restartCalls ++ [.rxHandler 7] ∧
      (f.dest = stationNine.selfAddress ∨ f.dest = stationNine.broadcastAddress) ∧
      ∃ data : Mem, (Run.final call stationNine.construct
          (restartCalls ++ [.rxHandler 7])).getRxDataPtr =
          some (data, f.dest.toUInt16, f.src.toUInt16, f.data.length) ∧
        data.read 0 f.data.length = f.data :=
  accepted_is_frame stationNine restartCalls 7 (by decide) (by decide +kernel)
    (by decide +kernel) (by decide +kernel)

end DataIOLayer2

end KS3.DataIO
