import KS3.DataIO.Layer2

/-!
# Frames and what receiving one means

`Frame` is a frame of the format and `Frame.bytes` the octets it is on the line. `Receiver` is
the receiver as a reader of the format would describe it: it waits for the preamble, collects the
octets of one frame as a list, checks the header when it is complete and the data when the frame
is. It has no buffer, no index and no CRC register; that the code's receiver behaves like it is
proved in `Reception.lean`, and everything about streams of frames is proved here.

* `Receiver.feed_frame`: a frame with data, addressed to the station, is accepted at its last
  octet;
* `Receiver.feed_foreign`: the header of a frame for somebody else sends the receiver back to
  waiting, and `Receiver.feed_quiet`: octets without a preamble among them leave it there;
* `Receiver.Sound`: what the receiver has collected is the recent input and is well formed.
-/

namespace KS3.DataIO

open Comm

/-- A frame: its addresses and its data, which fit the packet buffer. -/
structure Frame where
  dest : UInt8
  src : UInt8
  data : List UInt8
  size_le : data.length ≤ maxLayer2DataSize

namespace Frame

/-- The size field. -/
def size (f : Frame) : UInt16 := UInt16.ofNat f.data.length

/-- The octets of the header that its CRC covers. -/
def head (f : Frame) : List UInt8 :=
  [layer2PreambleB0, layer2PreambleB1, f.dest, f.src, loByte f.size, hiByte f.size]

/-- The CRC of the header. -/
def headCrc (f : Frame) : UInt16 := calcBlockCRC16i f.head 0xFFFF

/-- The CRC of the data. -/
def dataCrc (f : Frame) : UInt16 := calcBlockCRC16i f.data 0xFFFF

/-- The header with its CRC. -/
def header (f : Frame) : List UInt8 := f.head ++ [loByte f.headCrc, hiByte f.headCrc]

/-- What follows the header: the CRC of the data, and the data. -/
def tail (f : Frame) : List UInt8 := loByte f.dataCrc :: hiByte f.dataCrc :: f.data

/-- The octets of a frame on the line. -/
def bytes (f : Frame) : List UInt8 := f.header ++ f.tail

theorem toNat_size (f : Frame) : f.size.toNat = f.data.length := by
  have h := f.size_le
  simp only [maxLayer2DataSize] at h
  simp only [size, UInt16.toNat_ofNat']
  omega

theorem length_bytes (f : Frame) : f.bytes.length = f.data.length + 10 := rfl

end Frame

/-! ## The receiver -/

/-- The station a receiver belongs to. -/
structure Station where
  self : UInt8
  broadcast : UInt8
  lt : Bool

/-- Whether a destination is this station. -/
def Station.Mine (st : Station) (a : UInt8) : Prop := a = st.self ∨ a = st.broadcast

instance (st : Station) (a : UInt8) : Decidable (st.Mine a) :=
  inferInstanceAs (Decidable (a = st.self ∨ a = st.broadcast))

/-- The size field of a frame received so far. -/
def sizeField (fr : List UInt8) : ℕ := ((Mem.ofList fr).word 4).toNat

/-- The state of a receiver: waiting, after the first octet of a preamble, with a part of a frame
collected, with a whole frame. -/
inductive Receiver
  | wait
  | preamble2
  | frame (fr : List UInt8)
  | ready (fr : List UInt8)

namespace Receiver

/-- The checks at the end of a header. -/
def endHeader (st : Station) (fr : List UInt8) : ℤ × Receiver :=
  if maxLayer2DataSize < sizeField fr then
    (-2, .wait)
  else if (Mem.ofList fr).word 6 = calcBlockCRC16i (fr.take 6) 0xFFFF then
    if st.Mine (Mem.ofList fr 2) then (1, .frame fr) else (-3, .wait)
  else
    (-4, .wait)

/-- The check at the end of a frame. -/
def endData (fr : List UInt8) : ℤ × Receiver :=
  if (Mem.ofList fr).word 8 = calcBlockCRC16i (fr.drop 10) 0xFFFF then (2, .ready fr)
  else (-1, .wait)

/-- The receiver with one more octet collected. -/
def collect (st : Station) (fr : List UInt8) : ℤ × Receiver :=
  if fr.length = 8 then
    endHeader st fr
  else if 10 < fr.length ∧ fr.length = sizeField fr + 10 then
    endData fr
  else
    (1, .frame fr)

/-- One octet: the result code and the receiver after it. -/
def next (st : Station) : Receiver → UInt8 → ℤ × Receiver
  | .wait, b => (0, if b = layer2PreambleB0 then .preamble2 else .wait)
  | .preamble2, b =>
    if b = layer2PreambleB1 then
      (1, .frame [layer2PreambleB0, layer2PreambleB1])
    else
      (if st.lt ∧ b = dataIOLtPreambleB1 then 3 else 1, .wait)
  | .frame fr, b => collect st (fr ++ [b])
  | .ready fr, _ => (2, .ready fr)

/-- The result codes and the receiver after a string of octets. -/
def feed (st : Station) (r : Receiver) : List UInt8 → List ℤ × Receiver
  | [] => ([], r)
  | b :: bs => ((r.next st b).1 :: (feed st (r.next st b).2 bs).1, (feed st (r.next st b).2 bs).2)

variable {st : Station}

theorem feed_cons (r : Receiver) (b : UInt8) (bs : List UInt8) :
    r.feed st (b :: bs) =
      ((r.next st b).1 :: ((r.next st b).2.feed st bs).1, ((r.next st b).2.feed st bs).2) := rfl

theorem feed_append (r : Receiver) (as bs : List UInt8) :
    r.feed st (as ++ bs) =
      ((r.feed st as).1 ++ ((r.feed st as).2.feed st bs).1, ((r.feed st as).2.feed st bs).2) := by
  induction as generalizing r with
  | nil => rfl
  | cons a as ih => simp only [List.cons_append, feed, ih]

/-! ## Receiving a frame -/

/-- An octet that completes neither the header nor the frame is collected. -/
theorem collect_of_ne {fr : List UInt8} (h₈ : fr.length ≠ 8)
    (hn : ¬ (10 < fr.length ∧ fr.length = sizeField fr + 10)) :
    collect st fr = (1, .frame fr) := by
  rw [collect, if_neg h₈, if_neg hn]

theorem ofList_append_left (as bs : List UInt8) {k : ℕ} (h : k < as.length) :
    Mem.ofList (as ++ bs) k = Mem.ofList as k := by
  simp only [Mem.ofList, List.getD_eq_getElem?_getD, List.getElem?_append_left h]

theorem sizeField_append (as bs : List UInt8) (h : 6 ≤ as.length) :
    sizeField (as ++ bs) = sizeField as := by
  simp only [sizeField, Mem.word]
  rw [ofList_append_left _ _ (by omega), ofList_append_left _ _ (by omega)]

/-- The size field in a part of a frame that has it. -/
theorem sizeField_frame {f : Frame} {p q : List UInt8} (hpq : p ++ q = f.bytes)
    (hp : 6 ≤ p.length) : sizeField p = f.data.length := by
  rw [← sizeField_append p q hp, hpq, ← f.toNat_size]
  simp only [sizeField, Mem.word, Mem.ofList, Frame.bytes, Frame.header, Frame.head]
  simp

/-- The header of a frame passes its checks, up to the address. -/
theorem endHeader_frame (f : Frame) :
    endHeader st f.header =
      if st.Mine f.dest then (1, .frame f.header) else (-3, .wait) := by
  have hsz : sizeField f.header = f.data.length :=
    sizeField_frame (q := f.tail) rfl (by simp [Frame.header, Frame.head])
  have hle : ¬ maxLayer2DataSize < sizeField f.header := by
    rw [hsz]
    exact Nat.not_lt.2 f.size_le
  have hcrc : (Mem.ofList f.header).word 6 = calcBlockCRC16i (f.header.take 6) 0xFFFF := by
    change ofBytes (loByte f.headCrc) (hiByte f.headCrc) = f.headCrc
    exact ofBytes_lo_hi _
  rw [endHeader, if_neg hle, if_pos hcrc]
  rfl

/-- A whole frame passes the check of its data. -/
theorem endData_frame (f : Frame) : endData f.bytes = (2, .ready f.bytes) := by
  have hcrc : (Mem.ofList f.bytes).word 8 = calcBlockCRC16i (f.bytes.drop 10) 0xFFFF := by
    change ofBytes (loByte f.dataCrc) (hiByte f.dataCrc) = f.dataCrc
    exact ofBytes_lo_hi _
  rw [endData, if_pos hcrc]

/-- The header of a frame: collected if the frame is for this station, dropped otherwise. -/
theorem feed_header (f : Frame) :
    (Receiver.wait).feed st f.header =
      ([0, 1, 1, 1, 1, 1, 1] ++ [if st.Mine f.dest then 1 else -3],
        if st.Mine f.dest then .frame f.header else .wait) := by
  have hsplit : f.header = f.header.take 7 ++ [hiByte f.headCrc] := rfl
  -- seven octets are collected unseen, the eighth is checked
  have h₇ : (Receiver.wait).feed st (f.header.take 7) =
      ([0, 1, 1, 1, 1, 1, 1], .frame (f.header.take 7)) := rfl
  have h₈ : collect st (f.header.take 7 ++ [hiByte f.headCrc]) =
      if st.Mine f.dest then (1, .frame f.header) else (-3, .wait) := endHeader_frame f
  conv_lhs => rw [hsplit]
  rw [feed_append, h₇]
  simp only [feed, next, h₈]
  split <;> rfl

/-- The octets behind a header that has been passed are collected up to the last one that the
size field announces, where the data is checked. -/
theorem feed_until_end {bs p q : List UInt8} (hlong : 10 < bs.length)
    (hsize : bs.length = sizeField bs + 10) (hpq : p ++ q = bs) (hp : 8 ≤ p.length)
    (hq : q ≠ []) :
    (Receiver.frame p).feed st q =
      (List.replicate (q.length - 1) 1 ++ [(endData bs).1], (endData bs).2) := by
  induction q generalizing p with
  | nil => exact absurd rfl hq
  | cons b q ih =>
    have hpq' : (p ++ [b]) ++ q = bs := by rw [← hpq]; simp
    have hpb : (p ++ [b]).length = p.length + 1 := by simp
    have hsz : sizeField (p ++ [b]) = sizeField bs := by
      rw [← hpq', sizeField_append (p ++ [b]) q (by omega)]
    have hlen : p.length + 1 + q.length = bs.length := by
      rw [← hpq', List.length_append, hpb]
    rw [feed_cons, next]
    rcases q with _ | ⟨c, q⟩
    · -- the last octet of the frame
      rw [List.append_nil] at hpq'
      simp only [List.length_nil] at hlen
      rw [collect, if_neg (by omega), if_pos (by omega), hpq']
      rfl
    · simp only [List.length_cons] at hlen
      rw [collect_of_ne (by omega) (by omega), ih hpq' (by omega) (by simp)]
      rfl

/-- The rest of a frame with data. -/
theorem feed_rest {f : Frame} (hdata : f.data ≠ []) {p q : List UInt8} (hpq : p ++ q = f.bytes)
    (hp : 8 ≤ p.length) (hq : q ≠ []) :
    (Receiver.frame p).feed st q = (List.replicate (q.length - 1) 1 ++ [2], .ready f.bytes) := by
  have hpos := List.length_pos_of_ne_nil hdata
  have hlen := f.length_bytes
  have hsize : sizeField f.bytes = f.data.length :=
    sizeField_frame (q := []) (List.append_nil _) (by omega)
  rw [feed_until_end (by omega) (by omega) hpq hp hq, endData_frame]

/-- **A frame with data, addressed to the station, is accepted** at its last octet and not
before. -/
theorem feed_frame {f : Frame} (hdata : f.data ≠ []) (hmine : st.Mine f.dest) :
    (Receiver.wait).feed st f.bytes =
      (0 :: List.replicate (f.data.length + 8) 1 ++ [2], .ready f.bytes) := by
  have hrest : (Receiver.frame f.header).feed st f.tail = _ := feed_rest hdata rfl
    (by simp [Frame.header, Frame.head]) (by simp [Frame.tail])
  rw [Frame.bytes, feed_append, feed_header, if_pos hmine]
  simp only [hrest, if_pos hmine]
  simp [Frame.bytes, Frame.tail, Nat.add_assoc, List.replicate_succ]

/-! ## Octets of others -/

/-- No octet `0xAA` is followed by an octet `0x55`. -/
def NoPreamble (bs : List UInt8) : Prop :=
  bs.IsChain fun a b => ¬ (a = layer2PreambleB0 ∧ b = layer2PreambleB1)

instance (bs : List UInt8) : Decidable (NoPreamble bs) :=
  inferInstanceAs (Decidable (bs.IsChain fun a b =>
    ¬ (a = layer2PreambleB0 ∧ b = layer2PreambleB1)))

/-- The receiver hunting for a preamble in octets that hold none. The second part is about a
receiver that has just seen `0xAA`. -/
theorem feed_quiet_aux (hlt : st.lt = false) (bs : List UInt8) :
    (NoPreamble bs → bs.getLast? ≠ some layer2PreambleB0 →
      ∃ rcs, (Receiver.wait).feed st bs = (rcs, .wait) ∧ ∀ r ∈ rcs, r = 0 ∨ r = 1) ∧
    (NoPreamble (layer2PreambleB0 :: bs) → (layer2PreambleB0 :: bs).getLast? ≠
        some layer2PreambleB0 →
      ∃ rcs, (Receiver.preamble2).feed st bs = (rcs, .wait) ∧ ∀ r ∈ rcs, r = 0 ∨ r = 1) := by
  induction bs with
  | nil => exact ⟨fun _ _ => ⟨[], rfl, by simp⟩, fun _ h => absurd rfl h⟩
  | cons b bs ih =>
    have hlast : ∀ c : UInt8, (c :: b :: bs).getLast? = (b :: bs).getLast? := fun c => rfl
    have htail : (b :: bs).getLast? ≠ some layer2PreambleB0 →
        bs.getLast? ≠ some layer2PreambleB0 := by
      intro h
      rcases bs with _ | ⟨c, bs⟩
      · simp
      · exact h
    refine ⟨fun hn hl => ?_, fun hn hl => ?_⟩
    · rw [feed_cons, next]
      by_cases hb : b = layer2PreambleB0
      · subst hb
        obtain ⟨rcs, hrcs, hall⟩ := ih.2 hn hl
        rw [if_pos rfl, hrcs]
        exact ⟨_, rfl, by simpa using hall⟩
      · obtain ⟨rcs, hrcs, hall⟩ := ih.1 hn.tail (htail hl)
        rw [if_neg hb, hrcs]
        exact ⟨_, rfl, by simpa using hall⟩
    · have hb : b ≠ layer2PreambleB1 := fun h => (List.isChain_cons_cons.1 hn).1 ⟨rfl, h⟩
      obtain ⟨rcs, hrcs, hall⟩ := ih.1 (List.isChain_cons_cons.1 hn).2.tail
        (htail (by rwa [hlast] at hl))
      rw [feed_cons, next, if_neg hb, hrcs]
      exact ⟨_, rfl, by simpa [hlt] using hall⟩

/-- **Octets without a preamble leave the receiver waiting**, if the last of them is not the first
octet of one. -/
theorem feed_quiet (hlt : st.lt = false) {bs : List UInt8} (hn : NoPreamble bs)
    (hl : bs.getLast? ≠ some layer2PreambleB0) :
    ∃ rcs, (Receiver.wait).feed st bs = (rcs, .wait) ∧ ∀ r ∈ rcs, r = 0 ∨ r = 1 :=
  (feed_quiet_aux hlt bs).1 hn hl

/-- **A frame for somebody else** is passed over, if what follows its header holds no preamble and
does not end with the first octet of one. -/
theorem feed_foreign (hlt : st.lt = false) {f : Frame} (hforeign : ¬ st.Mine f.dest)
    (hn : NoPreamble f.tail) (hl : f.tail.getLast? ≠ some layer2PreambleB0) :
    ∃ rcs, (Receiver.wait).feed st f.bytes = (rcs, .wait) ∧ ∀ r ∈ rcs, r ≠ 2 ∧ r ≠ 3 := by
  obtain ⟨rcs, hrcs, hall⟩ := feed_quiet hlt hn hl
  have hheader : (Receiver.wait).feed st f.header = _ := feed_header f
  simp only [if_neg hforeign] at hheader
  rw [Frame.bytes, feed_append, hheader, hrcs]
  refine ⟨_, rfl, ?_⟩
  rw [List.forall_mem_append]
  refine ⟨by simp, fun r hr => ?_⟩
  rcases hall r hr with rfl | rfl <;> simp

/-! ## What has been collected -/

/-- The header of a collected frame has passed its checks. -/
structure HeaderOk (st : Station) (fr : List UInt8) : Prop where
  size_le : sizeField fr ≤ maxLayer2DataSize
  crc : (Mem.ofList fr).word 6 = calcBlockCRC16i (fr.take 6) 0xFFFF
  mine : st.Mine (Mem.ofList fr 2)

/-- What a receiver has collected after the octets `hist`. -/
def Sound (st : Station) (hist : List UInt8) : Receiver → Prop
  | .wait => True
  | .preamble2 => [layer2PreambleB0] <:+ hist
  | .frame fr => [layer2PreambleB0, layer2PreambleB1] <+: fr ∧ fr <:+ hist ∧
      (8 ≤ fr.length → HeaderOk st fr)
  | .ready _ => True

theorem HeaderOk.concat {fr : List UInt8} (h : HeaderOk st fr) (h₈ : 8 ≤ fr.length) (b : UInt8) :
    HeaderOk st (fr ++ [b]) where
  size_le := by
    rw [sizeField_append _ _ (by omega)]
    exact h.size_le
  crc := by
    rw [List.take_append_of_le_length (by omega), ← h.crc, Mem.word, Mem.word,
      ofList_append_left _ _ (by omega), ofList_append_left _ _ (by omega)]
  mine := by
    rw [ofList_append_left _ _ (by omega)]
    exact h.mine

theorem suffix_concat {as hist : List UInt8} (h : as <:+ hist) (b : UInt8) :
    as ++ [b] <:+ hist ++ [b] := by
  obtain ⟨pre, rfl⟩ := h
  exact ⟨pre, by simp⟩

/-- One octet keeps what has been collected sound. -/
theorem sound_next {hist : List UInt8} {r : Receiver} (h : Sound st hist r) (b : UInt8) :
    Sound st (hist ++ [b]) (r.next st b).2 := by
  cases r with
  | wait =>
    by_cases hb : b = layer2PreambleB0
    · subst hb
      exact List.suffix_append ..
    · simp only [next, if_neg hb, Sound]
  | preamble2 =>
    by_cases hb : b = layer2PreambleB1
    · subst hb
      exact ⟨List.prefix_rfl, suffix_concat h _, by simp⟩
    · simp only [next, if_neg hb, Sound]
  | frame fr =>
    obtain ⟨hpre, hsuf, hok⟩ := h
    have hpre' : [layer2PreambleB0, layer2PreambleB1] <+: fr ++ [b] :=
      hpre.trans (List.prefix_append ..)
    have hsuf' := suffix_concat hsuf b
    have hlen : (fr ++ [b]).length = fr.length + 1 := by simp
    simp only [next, collect, endHeader, endData]
    split_ifs with h₈ hsz hcrc hmine hend
    · trivial
    · exact ⟨hpre', hsuf', fun _ => ⟨Nat.le_of_not_lt hsz, hcrc, hmine⟩⟩
    · trivial
    · trivial
    · trivial
    · trivial
    · exact ⟨hpre', hsuf', fun h => (hok (by omega)).concat (by omega) b⟩
  | ready fr => trivial

/-- The first eight elements of a list that has them. -/
theorem exists_eq_cons_eight {as : List UInt8} (h : 8 ≤ as.length) :
    ∃ a b c d e f g i bs, as = a :: b :: c :: d :: e :: f :: g :: i :: bs := by
  rcases as with _ | ⟨a, _ | ⟨b, _ | ⟨c, _ | ⟨d, _ | ⟨e, _ | ⟨f, _ | ⟨g, _ | ⟨i, bs⟩⟩⟩⟩⟩⟩⟩⟩
  case cons.cons.cons.cons.cons.cons.cons.cons => exact ⟨a, b, c, d, e, f, g, i, bs, rfl⟩
  all_goals simp at h

/-- A complete collection that passed all checks is a frame. -/
theorem exists_frame {fr : List UInt8} (hpre : [layer2PreambleB0, layer2PreambleB1] <+: fr)
    (hok : HeaderOk st fr) (hlen : fr.length = sizeField fr + 10)
    (hcrc : (Mem.ofList fr).word 8 = calcBlockCRC16i (fr.drop 10) 0xFFFF) :
    ∃ f : Frame, f.bytes = fr ∧ st.Mine f.dest := by
  obtain ⟨rest, rfl⟩ := hpre
  have h₈ : 8 ≤ rest.length := by
    simp only [List.length_append, List.length_cons, List.length_nil] at hlen
    omega
  obtain ⟨dest, src, s₀, s₁, h₀, h₁, d₀, d₁, data, rfl⟩ := exists_eq_cons_eight h₈
  have hsize : sizeField (layer2PreambleB0 :: layer2PreambleB1 :: dest :: src :: s₀ :: s₁ :: h₀ ::
      h₁ :: d₀ :: d₁ :: data) = (ofBytes s₀ s₁).toNat := rfl
  simp only [List.cons_append, List.nil_append] at hok hlen hcrc ⊢
  have hdata : data.length = (ofBytes s₀ s₁).toNat := by
    rw [← hsize]
    simpa using hlen
  have hle : data.length ≤ maxLayer2DataSize := by
    rw [hdata, ← hsize]
    exact hok.size_le
  refine ⟨⟨dest, src, data, hle⟩, ?_, hok.mine⟩
  have hfield : UInt16.ofNat data.length = ofBytes s₀ s₁ := by
    rw [hdata, UInt16.ofNat_toNat]
  have hhead : ofBytes h₀ h₁ = calcBlockCRC16i
      [layer2PreambleB0, layer2PreambleB1, dest, src, s₀, s₁] 0xFFFF := hok.crc
  have htail : ofBytes d₀ d₁ = calcBlockCRC16i data 0xFFFF := hcrc
  simp only [Frame.bytes, Frame.header, Frame.head, Frame.headCrc, Frame.tail, Frame.dataCrc,
    Frame.size, hfield, loByte_ofBytes, hiByte_ofBytes, ← hhead, ← htail, List.cons_append,
    List.nil_append]

/-- **What becomes ready is a frame**, and it is the latest input. -/
theorem frame_of_ready {hist fr fr' : List UInt8} {b : UInt8} (h : Sound st hist (.frame fr))
    (h₈ : 8 ≤ fr.length) (hready : ((Receiver.frame fr).next st b).2 = .ready fr') :
    ∃ f : Frame, f.bytes = fr' ∧ st.Mine f.dest ∧ f.bytes <:+ hist ++ [b] := by
  obtain ⟨hpre, hsuf, hok⟩ := h
  have hlen : (fr ++ [b]).length = fr.length + 1 := by simp
  rw [next, collect, if_neg (by omega)] at hready
  simp only [endData] at hready
  split_ifs at hready with hend hcrc
  obtain ⟨f, hf, hmine⟩ := exists_frame (hpre.trans (List.prefix_append ..))
    ((hok h₈).concat h₈ b) hend.2 hcrc
  refine ⟨f, hf.trans (by simpa using hready), hmine, ?_⟩
  rw [hf]
  exact suffix_concat hsuf b

end Receiver

end KS3.DataIO
