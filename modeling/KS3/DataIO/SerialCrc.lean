import KS3.Foundations.ShiftRegister
import KS3.DataIO.Bounds

/-!
# The CRC as a shift register

What the table of `CRC16.C` is a table of: the register of sixteen bits with the taps `0x1021` that
takes in the octets of a block bit by bit, the most significant bit of each octet first, and each
bit at the low end (`serialBlock`). An entry is what the register holds after eight bits have left
it (`crc16Entry_eq`), so one look-up does the work of eight bits (`updateCRC16_eq_serialOctet`).

The receiver computes nothing else: it starts the check of a header from the value the two octets
of the preamble lead to (`layer2PreambleCRC16_eq`) and then takes in one octet at a time.

* `crc_is_serial`: the block CRC, the CRC taken octet by octet and the receiver's register are the
  value of the shift register.
-/

namespace KS3.DataIO

open Comm ShiftRegister

/-! ## The register, bit by bit -/

/-- The polynomial of the CRC, without its leading coefficient. -/
def crcPoly : UInt16 := 0x1021

/-- One bit: the register moves up, the bit enters at the low end, and the polynomial is added
when the bit that leaves is set. -/
def serialBit (crc : UInt16) (bit : Bool) : UInt16 :=
  let shifted := (crc <<< 1) ||| (if bit then 1 else 0)
  if crc &&& 0x8000 = 0 then shifted else shifted ^^^ crcPoly

/-- The bits of an octet, the most significant one first. -/
def octetBits (octet : UInt8) : List Bool :=
  [7, 6, 5, 4, 3, 2, 1, 0].map fun i => octet.toNat.testBit i

/-- The eight bits of an octet. -/
def serialOctet (crc : UInt16) (octet : UInt8) : UInt16 := (octetBits octet).foldl serialBit crc

/-- The octets of a block. -/
def serialBlock (data : List UInt8) (initCRC : UInt16) : UInt16 := data.foldl serialOctet initCRC

theorem toBitVec_serialBit (crc : UInt16) (bit : Bool) :
    (serialBit crc bit).toBitVec = shiftIn crcPoly.toBitVec crc.toBitVec bit := by
  have hshift : ((crc <<< 1) ||| (if bit then 1 else 0)).toBitVec =
      crc.toBitVec.shiftConcat bit := by
    apply BitVec.eq_of_toNat_eq
    cases bit
    · simp
    · have heven : crc.toNat <<< 1 % 2 ^ 16 = (crc.toNat % 2 ^ 15) <<< 1 := by
        simp only [Nat.shiftLeft_eq]
        omega
      have hor := Nat.shiftLeft_add_eq_or_of_lt (i := 1) Nat.one_lt_two (crc.toNat % 2 ^ 15)
      simp only [if_true, UInt16.toBitVec_or, UInt16.toBitVec_shiftLeft, BitVec.toNat_or,
        BitVec.toNat_shiftConcat, Bool.toNat_true]
      change crc.toNat <<< 1 % 2 ^ 16 ||| 1 = (crc.toNat <<< 1 + 1) % 2 ^ 16
      rw [heven, ← hor]
      simp only [Nat.shiftLeft_eq]
      omega
  have hmsb : crc &&& 0x8000 = 0 ↔ crc.toBitVec.msb = false := by
    rw [← UInt16.toBitVec_inj, UInt16.toBitVec_and]
    change crc.toBitVec &&& BitVec.twoPow 16 15 = 0#16 ↔ _
    rw [BitVec.and_twoPow, BitVec.msb_eq_getLsbD_last]
    cases crc.toBitVec.getLsbD 15 <;> decide
  unfold serialBit shiftIn
  cases h : crc.toBitVec.msb
  · rw [if_pos (hmsb.2 h), if_neg Bool.false_ne_true, hshift]
  · rw [if_neg fun h' => by simp [hmsb.1 h'] at h, if_pos rfl, UInt16.toBitVec_xor, hshift]

theorem toBitVec_serialOctet (crc : UInt16) (octet : UInt8) :
    (serialOctet crc octet).toBitVec =
      feed crcPoly.toBitVec crc.toBitVec (octetBits octet) := by
  exact (List.foldl_hom UInt16.toBitVec fun crc bit => (toBitVec_serialBit crc bit).symm).symm

theorem value_octetBits (octet : UInt8) : value (octetBits octet) = octet.toNat := by
  have hall : ∀ n < 256, value ([7, 6, 5, 4, 3, 2, 1, 0].map fun i => n.testBit i) = n := by
    decide +kernel
  exact hall _ octet.toNat_lt

/-! ## The table -/

/-- **An entry of the table** is what eight bits that leave the register put into it. -/
theorem crc16Entry_eq (octet : UInt8) :
    (crc16Entry octet).toBitVec =
      feed crcPoly.toBitVec (octet.toBitVec.setWidth 16 <<< 8) (List.replicate 8 false) := by
  have hall : ∀ n < 256, (crc16Table.getD n 0).toBitVec =
      feed crcPoly.toBitVec (BitVec.ofNat 16 n <<< 8) (List.replicate 8 false) := by
    decide +kernel
  have hoctet : octet.toBitVec.setWidth 16 = BitVec.ofNat 16 octet.toNat := by
    apply BitVec.eq_of_toNat_eq
    simp
  rw [hoctet]
  exact hall _ octet.toNat_lt

/-- **One look-up is eight bits of the shift register.** -/
theorem updateCRC16_eq_serialOctet (octet : UInt8) (crc : UInt16) :
    updateCRC16 octet crc = serialOctet crc octet := by
  have hhigh : high crc.toBitVec 8 = (hiByte crc).toBitVec.setWidth 16 <<< 8 := by
    rw [high, hiByte_eq]
    apply BitVec.eq_of_toNat_eq
    have hlt := crc.toNat_lt
    simp [Nat.shiftRight_eq_div_pow, Nat.shiftLeft_eq]
    omega
  have hoctet : octet.toUInt16.toBitVec = BitVec.ofNat 16 octet.toNat := by
    apply BitVec.eq_of_toNat_eq
    simp
  apply UInt16.toBitVec_inj.1
  rw [toBitVec_serialOctet, feed_eq _ _ _ (by simp [octetBits]), value_octetBits, updateCRC16_eq,
    UInt16.toBitVec_xor, UInt16.toBitVec_xor, crc16Entry_eq, hoctet]
  change _ = feed _ (high _ 8) (List.replicate 8 false) ^^^ _ ^^^ _
  rw [hhigh]
  rfl

theorem calcBlockCRC16i_eq_serialBlock (data : List UInt8) (initCRC : UInt16) :
    calcBlockCRC16i data initCRC = serialBlock data initCRC := by
  induction data generalizing initCRC with
  | nil => rfl
  | cons octet data ih =>
    rw [calcBlockCRC16i_cons, ih, updateCRC16_eq_serialOctet]
    rfl

/-! ## The receiver's register -/

/-- The constant the check of a header starts from is the CRC of the preamble. -/
theorem layer2PreambleCRC16_eq :
    layer2PreambleCRC16 = calcBlockCRC16i [layer2PreambleB0, layer2PreambleB1] 0xFFFF := by
  decide +kernel

namespace DataIOLayer2

variable {l : DataIOLayer2}

theorem feed_cons_snd (b : UInt8) (bs : List UInt8) :
    (l.feed (b :: bs)).2 = ((l.rxHandler b).layer2.feed bs).2 := rfl

/-- The octets of a header before its CRC, one at a time. -/
theorem feed_headerOctets (hs : List UInt8) (hstate : l.state = .stRxHeader)
    (hlen : l.index + hs.length ≤ 6) :
    (l.feed hs).2.rxCrc16 = calcBlockCRC16i hs l.rxCrc16 := by
  induction hs generalizing l with
  | nil => rfl
  | cons b hs ih =>
    rw [List.length_cons] at hlen
    have hindex : (l.rxHeaderByte b).index = l.index + 1 := Nat.mod_eq_of_lt (by omega)
    have hcrc : (l.rxHeaderByte b).rxCrc16 = updateCRC16 b l.rxCrc16 :=
      if_pos (show l.index < 6 by omega)
    have hstep : (l.rxHandler b).layer2 = l.rxHeaderByte b := by
      rw [rxHandler_stRxHeader b hstate, rxHeader, hindex,
        if_neg (by simp only [sizeofLR2Header]; omega)]
    rw [feed_cons_snd, hstep, ih (l := l.rxHeaderByte b) hstate (by omega), hcrc,
      calcBlockCRC16i_cons]

/-- The preamble and the octets of a header before its CRC. -/
theorem feed_preamble (hs : List UInt8) (hwait : l.state = .stWait) (hlen : hs.length ≤ 4) :
    (l.feed (layer2PreambleB0 :: layer2PreambleB1 :: hs)).2.rxCrc16 =
      calcBlockCRC16i hs layer2PreambleCRC16 := by
  have hfirst : (l.rxHandler layer2PreambleB0).layer2.state = .stPreamble2 := by
    rw [rxHandler_stWait _ hwait, rxWait, if_pos rfl]
  rw [feed_cons_snd, feed_cons_snd, rxHandler_stPreamble2 _ hfirst, rxPreamble2, if_pos rfl]
  exact feed_headerOctets hs rfl (by simpa using by omega)

/-- The octets of the data, one at a time, up to the end of the packet. -/
theorem feed_dataOctets (ds : List UInt8)
    (hstate : ∀ k < ds.length, (l.feed (ds.take k)).2.state = .stRxData) :
    (l.feed ds).2.rxCrc16 = calcBlockCRC16i ds l.rxCrc16 := by
  induction ds generalizing l with
  | nil => rfl
  | cons b ds ih =>
    have hnow : l.state = .stRxData := hstate 0 (Nat.succ_pos _)
    have hcrc : (l.rxHandler b).layer2.rxCrc16 = updateCRC16 b l.rxCrc16 := by
      rw [rxHandler_stRxData b hnow]
      simp only [rxData, endData]
      split_ifs <;> rfl
    rw [feed_cons_snd, ih fun k hk => hstate (k + 1) (Nat.succ_lt_succ hk), hcrc,
      calcBlockCRC16i_cons]

end DataIOLayer2

/-- **The table computes the shift register.** The CRC of a block is the value of the bit by bit
register, and so is the CRC taken one octet at a time. The receiver's register is that value too:
of the preamble and the header octets so far, and of the data octets so far until the packet
ends. -/
theorem crc_is_serial (data : List UInt8) (initCRC : UInt16) :
    calcBlockCRC16i data initCRC = serialBlock data initCRC ∧
      data.foldl (fun crc octet => updateCRC16 octet crc) initCRC = serialBlock data initCRC ∧
      data.foldl (fun crc octet => updateCRC16 octet crc) layer2PreambleCRC16 =
        serialBlock (layer2PreambleB0 :: layer2PreambleB1 :: data) 0xFFFF ∧
      (∀ l : DataIOLayer2, l.state = .stWait → data.length ≤ 4 →
        (l.feed (layer2PreambleB0 :: layer2PreambleB1 :: data)).2.rxCrc16 =
          serialBlock (layer2PreambleB0 :: layer2PreambleB1 :: data) 0xFFFF) ∧
      ∀ (l : DataIOLayer2) (b : UInt8), l.state = .stCRC1 →
        (∀ k < data.length, (l.feed (b :: data.take k)).2.state = .stRxData) →
        (l.feed (b :: data)).2.rxCrc16 = serialBlock data 0xFFFF := by
  have hpreamble : calcBlockCRC16i data layer2PreambleCRC16 =
      serialBlock (layer2PreambleB0 :: layer2PreambleB1 :: data) 0xFFFF := by
    rw [layer2PreambleCRC16_eq, ← calcBlockCRC16i_eq_serialBlock]
    rfl
  refine ⟨calcBlockCRC16i_eq_serialBlock data initCRC, calcBlockCRC16i_eq_serialBlock data initCRC,
    hpreamble, fun l hwait hlen => ?_, fun l b hstate hdata => ?_⟩
  · rw [DataIOLayer2.feed_preamble data hwait hlen, hpreamble]
  · have hcrc : (l.rxHandler b).layer2.rxCrc16 = 0xFFFF := by
      rw [DataIOLayer2.rxHandler_stCRC1 b hstate]
    rw [DataIOLayer2.feed_cons_snd, DataIOLayer2.feed_dataOctets data hdata, hcrc,
      calcBlockCRC16i_eq_serialBlock]

/-- The four octets of a header behind the preamble, and the two octets of a packet's data. -/
theorem crc_is_serial_packet :
    let receiver := DataIOLayer2.blank.construct
    let header : List UInt8 := [9, 1, 2, 0]
    let atData := { receiver with
      state := .stCRC1, index := 9, packet := Mem.ofList [0, 0, 0, 0, 2] }
    receiver.state = .stWait ∧
      (receiver.feed (0xAA :: 0x55 :: header)).2.rxCrc16 =
        serialBlock (0xAA :: 0x55 :: header) 0xFFFF ∧
      (atData.feed [0, 7, 8]).2.rxCrc16 = serialBlock [7, 8] 0xFFFF :=
  ⟨rfl, (crc_is_serial [9, 1, 2, 0] 0).2.2.2.1 _ rfl (by decide),
    (crc_is_serial [7, 8] 0).2.2.2.2 _ 0 rfl (by decide +kernel)⟩

end KS3.DataIO
