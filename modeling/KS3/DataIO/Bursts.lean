import KS3.DataIO.Resync

/-!
# Bursts of errors

A burst changes one octet of a frame, or two octets next to each other, and leaves the two CRCs as
they are. The CRC of what it changes is then another one (`calcBlockCRC16i_ne`), so the receiver
sees it where it compares: at the last octet of the header, or of the frame.

* `feed_dataBurst`, `feed_headBurst`: how the receiver of frames takes a frame with a burst in the
  data, and in the header;
* `burst_rejected`: the code's receiver rejects both.
-/

namespace KS3.DataIO

open Comm

/-- Octet `k` is changed. -/
def Changed (bs bs' : List UInt8) (k : ℕ) : Prop := bs'.getD k 0 ≠ bs.getD k 0

/-- Octets are changed, at most two and these next to each other. -/
structure Burst (bs bs' : List UInt8) : Prop where
  length_eq : bs'.length = bs.length
  ne : bs' ≠ bs
  adjacent : ∃ i, ∀ k, Changed bs bs' k → k = i ∨ k = i + 1

/-- All changed octets lie from place `lo` on and before place `hi`. -/
def ChangedWithin (bs bs' : List UInt8) (lo hi : ℕ) : Prop :=
  ∀ k, Changed bs bs' k → lo ≤ k ∧ k < hi

instance (bs bs' : List UInt8) (k : ℕ) : Decidable (Changed bs bs' k) :=
  inferInstanceAs (Decidable (bs'.getD k 0 ≠ bs.getD k 0))

/-- Only octets of the string can be changed. -/
theorem forall_changed {bs bs' : List UInt8} (hlen : bs'.length = bs.length) {P : ℕ → Prop}
    (h : ∀ k < bs.length, Changed bs bs' k → P k) (k : ℕ) (hk : Changed bs bs' k) : P k := by
  refine h k ?_ hk
  by_contra hle
  refine hk ?_
  rw [List.getD_eq_default _ _ (by omega), List.getD_eq_default _ _ (by omega)]

theorem getElem_eq_of_not_changed {bs bs' : List UInt8} {k : ℕ} (h : ¬ Changed bs bs' k)
    (hk : k < bs.length) (hk' : k < bs'.length) : bs'[k] = bs[k] := by
  have heq := not_not.1 h
  rwa [List.getD_eq_getElem _ _ hk', List.getD_eq_getElem _ _ hk] at heq

section Pieces

variable {bs bs' : List UInt8} {lo hi : ℕ}

/-- What comes before a burst. -/
theorem ChangedWithin.take_eq (hin : ChangedWithin bs bs' lo hi) (hlen : bs'.length = bs.length) :
    bs'.take lo = bs.take lo := by
  apply List.ext_getElem (by simp [hlen])
  intro k hk' hk
  simp only [List.length_take] at hk hk'
  rw [List.getElem_take, List.getElem_take]
  refine getElem_eq_of_not_changed (fun h => ?_) _ _
  have := (hin k h).1
  omega

/-- What comes behind a burst. -/
theorem ChangedWithin.drop_eq (hin : ChangedWithin bs bs' lo hi) (hlen : bs'.length = bs.length) :
    bs'.drop hi = bs.drop hi := by
  apply List.ext_getElem (by simp [hlen])
  intro k hk' hk
  rw [List.getElem_drop, List.getElem_drop]
  refine getElem_eq_of_not_changed (fun h => ?_) _ _
  have := (hin _ h).2
  omega

/-- **The CRC** of a piece that has the burst in it is changed. -/
theorem Burst.crc_ne (h : Burst bs bs') {i n : ℕ} (hin : ChangedWithin bs bs' i (i + n))
    (crc : UInt16) :
    calcBlockCRC16i ((bs'.drop i).take n) crc ≠ calcBlockCRC16i ((bs.drop i).take n) crc := by
  obtain ⟨j, hj⟩ := h.adjacent
  have hpiece : ∀ (cs : List UInt8) (k : ℕ), k < n → ((cs.drop i).take n).getD k 0 =
      cs.getD (i + k) 0 := by
    intro cs k hk
    rw [List.getD_eq_getElem?_getD, List.getD_eq_getElem?_getD, List.getElem?_take_of_lt hk,
      List.getElem?_drop]
  refine calcBlockCRC16i_ne (by simp [h.length_eq]) (fun heq => h.ne ?_) (j - i)
    (fun k hk => ?_) crc
  · have hrest : (bs'.drop i).drop n = (bs.drop i).drop n := by
      rw [List.drop_drop, List.drop_drop]
      exact hin.drop_eq h.length_eq
    rw [← List.take_append_drop i bs', ← List.take_append_drop i bs, hin.take_eq h.length_eq,
      ← List.take_append_drop n (bs'.drop i), heq, hrest, List.take_append_drop]
  · rcases lt_or_ge k n with hkn | hkn
    · rw [hpiece _ _ hkn, hpiece _ _ hkn] at hk
      have := hj _ hk
      have := hin _ hk
      omega
    · refine absurd ?_ hk
      rw [List.getD_eq_default _ _ (by simp; omega), List.getD_eq_default _ _ (by simp; omega)]

end Pieces

/-! ## The receiver of frames -/

namespace Receiver

variable {st : Station} {f : Frame} {bs : List UInt8}

/-- A burst in the data is seen when the data is complete. -/
theorem endData_of_burst (h : Burst f.bytes bs)
    (hin : ChangedWithin f.bytes bs 10 (f.data.length + 10)) : endData bs = (-1, .wait) := by
  have hlen := h.length_eq.trans f.length_bytes
  have htake : bs.take 10 = f.bytes.take 10 := hin.take_eq h.length_eq
  have hword : (Mem.ofList bs).word 8 = (Mem.ofList f.bytes).word 8 := by
    have hcut := List.take_append_drop 10 bs
    have hcut' := List.take_append_drop 10 f.bytes
    rw [← hcut, ← hcut', htake, Mem.word, Mem.word]
    have hten : (f.bytes.take 10).length = 10 := by simp [Frame.length_bytes]
    simp only [ofList_append_left _ _ (show 8 < (f.bytes.take 10).length by omega),
      ofList_append_left _ _ (show 8 + 1 < (f.bytes.take 10).length by omega)]
  have hcrc : (Mem.ofList f.bytes).word 8 = f.dataCrc := ofBytes_lo_hi _
  have hne := h.crc_ne (i := 10) (n := f.data.length) (by rwa [Nat.add_comm]) 0xFFFF
  have hdata : (f.bytes.drop 10).take f.data.length = f.data := List.take_length
  rw [hdata, List.take_of_length_le (by rw [List.length_drop]; omega)] at hne
  rw [endData, hword, hcrc, Frame.dataCrc, if_neg (Ne.symm hne)]

/-- **A burst in the data**: the frame is collected and rejected at its last octet. -/
theorem feed_dataBurst (hdata : f.data ≠ []) (hmine : st.Mine f.dest) (h : Burst f.bytes bs)
    (hin : ChangedWithin f.bytes bs 10 (f.data.length + 10)) :
    Receiver.wait.feed st bs = (0 :: List.replicate (f.data.length + 8) 1 ++ [-1], .wait) := by
  have hlen := h.length_eq.trans f.length_bytes
  have hpos := List.length_pos_of_ne_nil hdata
  have hheader : bs.take 8 = f.header :=
    ChangedWithin.take_eq (fun k hk => ⟨by have := (hin k hk).1; omega, (hin k hk).2⟩) h.length_eq
  have hcut : f.header ++ bs.drop 8 = bs := by rw [← hheader, List.take_append_drop]
  have hsize : sizeField bs = f.data.length := by
    rw [← hcut, sizeField_append _ _ (by simp [Frame.header, Frame.head])]
    exact sizeField_frame (q := f.tail) rfl (by simp [Frame.header, Frame.head])
  have hrest : (Receiver.frame f.header).feed st (bs.drop 8) = _ :=
    feed_until_end (by omega) (by omega) hcut (by simp [Frame.header, Frame.head])
      (List.ne_nil_of_length_pos (by rw [List.length_drop]; omega))
  rw [endData_of_burst h hin, List.length_drop, hlen] at hrest
  rw [← hcut, feed_append, feed_header, if_pos hmine]
  simp only [if_pos hmine, hrest]
  have hcount : f.data.length + 10 - 8 - 1 = f.data.length + 1 := by omega
  rw [hcount]
  simp [List.replicate_succ]

/-- A header with a wrong CRC is rejected. -/
theorem endHeader_of_crc_ne {fr : List UInt8}
    (hne : (Mem.ofList fr).word 6 ≠ calcBlockCRC16i (fr.take 6) 0xFFFF) :
    ∃ rc : ℤ, (rc = -2 ∨ rc = -4) ∧ endHeader st fr = (rc, .wait) := by
  rw [endHeader, if_neg hne]
  split_ifs
  · exact ⟨-2, .inl rfl, rfl⟩
  · exact ⟨-4, .inr rfl, rfl⟩

/-- Seven octets behind a preamble are collected unseen, the eighth is checked. -/
theorem feed_eight (d s z₀ z₁ c₀ c₁ : UInt8) :
    Receiver.wait.feed st [layer2PreambleB0, layer2PreambleB1, d, s, z₀, z₁, c₀, c₁] =
      ([0, 1, 1, 1, 1, 1, 1,
          (endHeader st [layer2PreambleB0, layer2PreambleB1, d, s, z₀, z₁, c₀, c₁]).1],
        (endHeader st [layer2PreambleB0, layer2PreambleB1, d, s, z₀, z₁, c₀, c₁]).2) := rfl

/-- **A burst in the header**: the frame is rejected at the last octet of the header, for its size
or for its CRC. -/
theorem feed_headBurst (st : Station) (h : Burst f.bytes bs) (hin : ChangedWithin f.bytes bs 2 6) :
    ∃ rc : ℤ, (rc = -2 ∨ rc = -4) ∧
      Receiver.wait.feed st (bs.take 8) = ([0, 1, 1, 1, 1, 1, 1, rc], .wait) := by
  have hlen := h.length_eq.trans f.length_bytes
  have hpreamble : bs.take 2 = [layer2PreambleB0, layer2PreambleB1] := hin.take_eq h.length_eq
  have hrest : bs.drop 6 = loByte f.headCrc :: hiByte f.headCrc :: f.tail :=
    hin.drop_eq h.length_eq
  obtain ⟨d, s, z₀, z₁, hmid⟩ : ∃ d s z₀ z₁, (bs.drop 2).take 4 = [d, s, z₀, z₁] := by
    have hfour : ((bs.drop 2).take 4).length = 4 := by
      rw [List.length_take, List.length_drop]
      omega
    match (bs.drop 2).take 4, hfour with
    | [d, s, z₀, z₁], _ => exact ⟨d, s, z₀, z₁, rfl⟩
  have hhead : bs.take 6 = [layer2PreambleB0, layer2PreambleB1, d, s, z₀, z₁] := by
    rw [show 6 = 2 + 4 from rfl, List.take_add, hpreamble, hmid]
    rfl
  have hbs : bs = [layer2PreambleB0, layer2PreambleB1, d, s, z₀, z₁] ++
      loByte f.headCrc :: hiByte f.headCrc :: f.tail := by
    rw [← List.take_append_drop 6 bs, hhead, hrest]
  have hne : calcBlockCRC16i [layer2PreambleB0, layer2PreambleB1, d, s, z₀, z₁] 0xFFFF ≠
      f.headCrc := by
    have hcrc := h.crc_ne (i := 0) (n := 6)
      (fun k hk => ⟨Nat.zero_le _, (hin k hk).2⟩) 0xFFFF
    rw [List.drop_zero, List.drop_zero, hhead] at hcrc
    exact hcrc
  have hfeed : bs.take 8 = [layer2PreambleB0, layer2PreambleB1, d, s, z₀, z₁, loByte f.headCrc,
      hiByte f.headCrc] := by
    rw [hbs]
    rfl
  have hword : (Mem.ofList (bs.take 8)).word 6 = f.headCrc := by
    rw [hfeed]
    exact ofBytes_lo_hi _
  have hwrong : (Mem.ofList (bs.take 8)).word 6 ≠
      calcBlockCRC16i ((bs.take 8).take 6) 0xFFFF := by
    rw [hword, hfeed]
    exact Ne.symm hne
  obtain ⟨rc, hrc, hend⟩ : ∃ rc : ℤ, (rc = -2 ∨ rc = -4) ∧
      endHeader st (bs.take 8) = (rc, .wait) := endHeader_of_crc_ne hwrong
  rw [hfeed] at hend ⊢
  rw [feed_eight, hend]
  exact ⟨rc, hrc, rfl⟩

end Receiver

/-! ## The receiver of the code -/

namespace DataIOLayer2

variable {l : DataIOLayer2}

/-- A packet that is ready stays so. -/
theorem feed_ready (hready : l.state = .stPacketReady) (bs : List UInt8) :
    (l.feed bs).2.state = .stPacketReady := by
  induction bs generalizing l with
  | nil => exact hready
  | cons b bs ih =>
    have hnext : (l.rxHandler b).layer2.state = .stPacketReady := by
      rwa [rxHandler_stPacketReady b hready]
    exact ih hnext

/-- Where no packet is ready in the end, none was on the way. -/
theorem not_ready_before {as bs : List UInt8} (hle : as <+: bs)
    (h : (l.feed bs).2.state ≠ .stPacketReady) : (l.feed as).2.state ≠ .stPacketReady := by
  intro hready
  obtain ⟨rest, rfl⟩ := hle
  rw [feed_append] at h
  exact h (feed_ready hready rest)

/-- A packet that is ready after octets received from a waiting state on lies in these octets. -/
theorem dataSize_le_of_ready (hwait : l.state = .stWait) {bs : List UInt8}
    (hlt : bs.length < 2 ^ 16) (hready : (l.feed bs).2.state = .stPacketReady) :
    (l.feed bs).2.dataSize + 10 ≤ bs.length := by
  obtain ⟨-, htracks, -⟩ := tracks_feed (r := .wait) bs hwait
    (by simpa only [Receiver.load, Nat.zero_add] using hlt)
  have hheld : (Receiver.wait.feed l.station bs).2.Held (0 + bs.length) :=
    Receiver.held_feed l.station (r := .wait) trivial bs
  obtain ⟨fr, hfr⟩ := htracks.eq_ready hready
  rw [hfr] at htracks hheld
  obtain ⟨hle, hfield⟩ := hheld
  have hsize : (l.feed bs).2.dataSize = sizeField fr :=
    congrArg UInt16.toNat (Mem.word_of_read _ htracks.2 (by omega))
  omega

/-- A burst in the data: the last result is -1, and no packet gets ready on the way. -/
theorem feed_burst_data (hwait : l.state = .stWait) {f : Frame} (hdata : 1 ≤ f.data.length)
    (hmine : l.station.Mine f.dest) {bs : List UInt8} (hburst : Burst f.bytes bs)
    (hin : ChangedWithin f.bytes bs 10 (f.data.length + 10)) :
    (l.feed bs).1.getLast? = some (-1) ∧ (l.feed bs).2.state = .stWait ∧
      ∀ k, (l.feed (bs.take k)).2.state ≠ .stPacketReady := by
  have hle := f.size_le
  have hlen := hburst.length_eq.trans f.length_bytes
  simp only [maxLayer2DataSize] at hle
  obtain ⟨hcodes, htracks, -⟩ := tracks_feed (r := .wait) bs hwait
    (by simp only [Receiver.load, hlen]; omega)
  rw [Receiver.feed_dataBurst (List.ne_nil_of_length_pos hdata) hmine hburst hin]
    at hcodes htracks
  have hstate : (l.feed bs).2.state = .stWait := htracks
  refine ⟨by rw [hcodes, List.getLast?_concat], hstate, fun k => ?_⟩
  refine not_ready_before ( List.take_prefix k bs) ?_
  rw [hstate]
  exact TRxState.noConfusion

/-- A burst in the addresses or the size: the result at the last octet of the header is -2 or -4,
and the receiver waits again. -/
theorem feed_burst_head (hwait : l.state = .stWait) {f : Frame} {bs : List UInt8}
    (hburst : Burst f.bytes bs) (hin : ChangedWithin f.bytes bs 2 6) :
    ((l.feed bs).1[7]? = some (-2) ∨ (l.feed bs).1[7]? = some (-4)) ∧
      (l.feed (bs.take 8)).2.state = .stWait := by
  obtain ⟨rc, hrc, hfeed⟩ := Receiver.feed_headBurst l.station hburst hin
  obtain ⟨hcodes, htracks, -⟩ := tracks_feed (r := .wait) (bs.take 8) hwait
    (by simp only [Receiver.load, List.length_take]; omega)
  rw [hfeed] at hcodes htracks
  have hseven : (l.feed bs).1[7]? = some rc := by
    rw [← List.take_append_drop 8 bs, feed_append, hcodes]
    rfl
  refine ⟨?_, htracks⟩
  rw [hseven]
  exact hrc.imp (congrArg some) (congrArg some)

/-- When the receiver waits behind eight octets, a packet that gets ready lies behind them. -/
theorem dataSize_le_behind {bs : List UInt8} (hstate : (l.feed (bs.take 8)).2.state = .stWait)
    {k : ℕ} (hlt : k < 2 ^ 16) (hk : k ≤ bs.length)
    (hready : (l.feed (bs.take k)).2.state = .stPacketReady) :
    (l.feed (bs.take k)).2.dataSize + 10 + 8 ≤ k := by
  rcases lt_or_ge k 8 with hk₈ | hk₈
  · -- a packet ready before would still be ready at the end of the header
    have hcut : bs.take k <+: bs.take 8 := List.take_prefix_take_left hk₈.le
    refine absurd hready (not_ready_before hcut ?_)
    rw [hstate]
    exact TRxState.noConfusion
  · have hcut : bs.take k = bs.take 8 ++ (bs.drop 8).take (k - 8) := by
      rw [← List.take_add, Nat.add_sub_cancel' hk₈]
    have hlength : ((bs.drop 8).take (k - 8)).length = k - 8 := by
      rw [List.length_take, List.length_drop]
      omega
    rw [hcut, feed_append] at hready ⊢
    dsimp only at hready ⊢
    have hbehind := dataSize_le_of_ready hstate (by omega) hready
    omega

/-- **A frame with a burst of errors is rejected.** A burst in the data gives the result -1 at the
last octet, and no packet gets ready on the way. A burst in the addresses or the size gives -2 or
-4 at the last octet of the header; the receiver waits again, and a packet that gets ready later
lies in the octets behind that header. -/
theorem burst_rejected (l : DataIOLayer2) (hwait : l.state = .stWait) (f : Frame)
    (hdata : 1 ≤ f.data.length) (hmine : f.dest = l.selfAddress ∨ f.dest = l.broadcastAddress)
    (bs : List UInt8) (hburst : Burst f.bytes bs) :
    (ChangedWithin f.bytes bs 10 (f.data.length + 10) →
      (l.feed bs).1.getLast? = some (-1) ∧ (l.feed bs).2.state = .stWait ∧
        ∀ k, (l.feed (bs.take k)).2.state ≠ .stPacketReady) ∧
    (ChangedWithin f.bytes bs 2 6 →
      ((l.feed bs).1[7]? = some (-2) ∨ (l.feed bs).1[7]? = some (-4)) ∧
        (l.feed (bs.take 8)).2.state = .stWait ∧
        ∀ k ≤ bs.length, (l.feed (bs.take k)).2.state = .stPacketReady →
          (l.feed (bs.take k)).2.dataSize + 10 + 8 ≤ k) := by
  refine ⟨feed_burst_data hwait hdata hmine hburst, fun hin => ?_⟩
  have hle := f.size_le
  have hlen := hburst.length_eq.trans f.length_bytes
  simp only [maxLayer2DataSize] at hle
  obtain ⟨hseven, hstate⟩ := feed_burst_head hwait hburst hin
  exact ⟨hseven, hstate, fun k hk hready => dataSize_le_behind hstate (by omega) hk hready⟩

/-- The frame for the station 9 with its octet of data changed. -/
def dataBurstNine : List UInt8 := frameNine.bytes.take 10 ++ [8]

/-- The frame for the station 9 with both addresses changed. -/
def headBurstNine : List UInt8 := [0xAA, 0x55, 8, 2] ++ frameNine.bytes.drop 4

/-- Both are rejected. -/
theorem burst_rejected_nine :
    (stationNine.construct.feed dataBurstNine).1.getLast? = some (-1) ∧
      ((stationNine.construct.feed headBurstNine).1[7]? = some (-2) ∨
        (stationNine.construct.feed headBurstNine).1[7]? = some (-4)) := by
  have hlen : dataBurstNine.length = frameNine.bytes.length := rfl
  have hlen' : headBurstNine.length = frameNine.bytes.length := rfl
  have hburst : Burst frameNine.bytes dataBurstNine :=
    ⟨hlen, by decide +kernel, 10, forall_changed hlen (by decide +kernel)⟩
  have hburst' : Burst frameNine.bytes headBurstNine :=
    ⟨hlen', by decide +kernel, 2, forall_changed hlen' (by decide +kernel)⟩
  exact ⟨((burst_rejected stationNine.construct rfl frameNine (by decide) (.inl rfl) _ hburst).1
      (forall_changed hlen (by decide +kernel))).1,
    ((burst_rejected stationNine.construct rfl frameNine (by decide) (.inl rfl) _ hburst').2
      (forall_changed hlen' (by decide +kernel))).1⟩

end DataIOLayer2

end KS3.DataIO
