import KS3.Comm.Crc16
import KS3.Comm.TQueue

/-!
# DataIO_Lt: short messages

The second format on the local bus: a preamble, a checksum, an address and one word of command with
the size of the data in its two low bits, followed by 0, 4, 8 or 12 octets of data. Bit 7 of the
address asks the device to put off its answer. The bit fields of the command are laid out from the
low end, as the compiler of the device does it.

`DataIO_Lt_Rx` takes a packet in octet by octet and pushes its message to a queue. Its filter takes
bit 7 off before it compares with the own address, and leaves it on for the broadcast address,
although the comment on the address field has it for both. So a broadcast with that bit is dropped
at its address, and no message that is ever pushed has that address (`pushes_feed`).

* `packet_received_iff`: a packet for the device comes out of the receiver as it was built exactly
  when its address is not 254.
-/

namespace KS3.DataIO.Lt

open Comm

/-! ## Messages -/

/-- `LoPreambleB0`. -/
def loPreambleB0 : UInt8 := 0xAA

/-- `LoPreambleB1`. -/
def loPreambleB1 : UInt8 := 0x99

/-- `DataIOPreambleB1`. -/
def dataIOPreambleB1 : UInt8 := 0x55

/-- `MaxDataSize`. -/
def maxDataSize : ℕ := 12

/-- `HeaderSize`. -/
def headerSize : ℕ := 4

/-- `BroadcastAddress`. -/
def broadcastAddress : UInt8 := 126

/-- `DelayAnswerAddr`. -/
def delayAnswerAddr : UInt8 := 0x80

/-- `TAppMessage`. The command is its word `w`. -/
structure TAppMessage where
  cs : UInt8
  address : UInt8
  cmd : UInt16
  data : Mem

namespace TAppMessage

/-- The field `cmd.cmd.dSizeCode`. -/
def dSizeCode (m : TAppMessage) : UInt16 := m.cmd &&& 3

/-- `cmd.cmd.dSizeCode = code`. -/
def setDSizeCode (m : TAppMessage) (code : UInt16) : TAppMessage :=
  { m with cmd := (m.cmd &&& 0xFFFC) ||| (code &&& 3) }

/-- `cmd.cmd.parameter = param`. -/
def setParameter (m : TAppMessage) (param : UInt16) : TAppMessage :=
  { m with cmd := m.dSizeCode ||| (param <<< 2) }

/-- `cmd.b[0] = b`. -/
def setB0 (m : TAppMessage) (b : UInt8) : TAppMessage := { m with cmd := ofBytes b (hiByte m.cmd) }

/-- `cmd.b[1] = b`. -/
def setB1 (m : TAppMessage) (b : UInt8) : TAppMessage := { m with cmd := ofBytes (loByte m.cmd) b }

/-- `size2dsCode`. -/
def size2dsCode (size : UInt8) : UInt16 :=
  if size = 4 then 1 else if size = 8 then 2 else if size = 12 then 3 else 0

/-- `dataSize`. -/
def dataSize (m : TAppMessage) : ℕ := (m.dSizeCode &&& 3).toNat * 4

/-- `size`. -/
def size (m : TAppMessage) : ℕ := headerSize + m.dataSize

/-- What `calcCS` takes the CRC of. -/
def body (m : TAppMessage) : List UInt8 :=
  [m.address, loByte m.cmd, hiByte m.cmd] ++ m.data.read 0 m.dataSize

/-- `calcCS`. -/
def calcCS (m : TAppMessage) : UInt8 :=
  let crc := calcBlockCRC16i m.body 0xFFFF
  loByte crc ^^^ hiByte crc

/-- `set`, on a message with any contents; `dptr` is nothing for a null pointer. -/
def set (m : TAppMessage) (addr size : UInt8) (param : UInt16) (dptr : Option Mem) : TAppMessage :=
  let size := if size > 12 then 12 else size
  let m := { m with address := addr }
  let m := m.setDSizeCode (size2dsCode size)
  let m := m.setParameter param
  let m := { m with data := dptr.elim m.data fun d => m.data.write 0 (d.read 0 size.toNat) }
  { m with cs := m.calcCS }

end TAppMessage

/-- `TPacket`, without its preamble, which is a constant. -/
structure TPacket where
  msg : TAppMessage

namespace TPacket

/-- The constructor, on memory with any contents. -/
def init (memory : TAppMessage) (addr size : UInt8) (param : UInt16) (dptr : Option Mem) :
    TPacket := ⟨memory.set addr size param dptr⟩

/-- `size`. -/
def size (p : TPacket) : ℕ := 2 + p.msg.size

/-- The octets of a packet in memory. -/
def image (p : TPacket) : List UInt8 :=
  [loPreambleB0, loPreambleB1, p.msg.cs, p.msg.address, loByte p.msg.cmd, hiByte p.msg.cmd] ++
    p.msg.data.read 0 maxDataSize

/-- The octets of a packet on the line: the first `size()` of them. -/
def octets (p : TPacket) : List UInt8 := p.image.take p.size

end TPacket

/-! ## The receiver -/

/-- `TRxState`. -/
inductive TRxState
  | stWait
  | stPreamble2
  | stCS
  | stAddress
  | stCmd0
  | stCmd1
  | stRxData
  deriving DecidableEq

/-- The data members of `DataIO_Lt_Rx` that are used. -/
structure DataIOLtRx where
  rxQueue : TQueue TAppMessage
  rxMsg : TAppMessage
  state : TRxState
  index : ℕ
  dataSize : ℕ
  selfAddress : UInt8

namespace DataIOLtRx

/-- `startRx`. -/
def startRx (rx : DataIOLtRx) : DataIOLtRx := { rx with index := 0, state := .stWait }

/-- The address filter. -/
def Accepts (self b : UInt8) : Prop :=
  b &&& ~~~delayAnswerAddr = self ∨ b = broadcastAddress ∨ self = 0

instance (self b : UInt8) : Decidable (Accepts self b) := inferInstanceAs (Decidable (_ ∨ _ ∨ _))

/-- The end of a message: its checksum is compared, and a message that is right is pushed. -/
def endMessage (rx : DataIOLtRx) : ℤ × DataIOLtRx :=
  if rx.rxMsg.calcCS = rx.rxMsg.cs then
    (2, { rx with rxQueue := rx.rxQueue.push rx.rxMsg }.startRx)
  else
    (1, rx.startRx)

/-- The case `stCmd1` of `rxHandler`. The size is one of 0, 4, 8 and 12, so the branch for a
negative one is not there. -/
def rxCmd1 (rx : DataIOLtRx) (b : UInt8) : ℤ × DataIOLtRx :=
  let rxMsg := rx.rxMsg.setB1 b
  let rx := { rx with rxMsg := rxMsg, dataSize := rxMsg.dataSize }
  if rx.dataSize = 0 then rx.endMessage else (1, { rx with index := 0, state := .stRxData })

/-- The case `stRxData` of `rxHandler`. -/
def rxData (rx : DataIOLtRx) (b : UInt8) : ℤ × DataIOLtRx :=
  let rx := { rx with
    rxMsg := { rx.rxMsg with data := rx.rxMsg.data.store rx.index b }
    index := (rx.index + 1) % 2 ^ 16 }
  if rx.index = rx.dataSize then rx.endMessage else (1, rx)

/-- `rxHandler`: one received octet. -/
def rxHandler (rx : DataIOLtRx) (b : UInt8) : ℤ × DataIOLtRx :=
  match rx.state with
  | .stWait => (0, if b = loPreambleB0 then { rx with state := .stPreamble2 } else rx)
  | .stPreamble2 =>
    if b = loPreambleB1 then (1, { rx with state := .stCS })
    else (if b = dataIOPreambleB1 then 3 else 1, rx.startRx)
  | .stCS => (1, { rx with rxMsg := { rx.rxMsg with cs := b }, state := .stAddress })
  | .stAddress =>
    if Accepts rx.selfAddress b then
      (1, { rx with rxMsg := { rx.rxMsg with address := b }, state := .stCmd0 })
    else
      (1, rx.startRx)
  | .stCmd0 => (1, { rx with rxMsg := rx.rxMsg.setB0 b, state := .stCmd1 })
  | .stCmd1 => rx.rxCmd1 b
  | .stRxData => rx.rxData b

/-- The result codes and the receiver after a string of octets. -/
def feed (rx : DataIOLtRx) : List UInt8 → List ℤ × DataIOLtRx
  | [] => ([], rx)
  | b :: bs =>
    let out := rx.rxHandler b
    let rest := out.2.feed bs
    (out.1 :: rest.1, rest.2)

theorem feed_append (rx : DataIOLtRx) (as bs : List UInt8) :
    rx.feed (as ++ bs) =
      ((rx.feed as).1 ++ ((rx.feed as).2.feed bs).1, ((rx.feed as).2.feed bs).2) := by
  induction as generalizing rx with
  | nil => rfl
  | cons a as ih => simp only [List.cons_append, feed, ih]

end DataIOLtRx

/-! ## What a packet is built of -/

namespace TAppMessage

variable (m : TAppMessage)

theorem toNat_and_three (w : UInt16) : (w &&& 3).toNat = w.toNat % 4 := by
  rw [UInt16.toNat_and]
  exact Nat.and_two_pow_sub_one_eq_mod w.toNat 2

theorem dataSize_eq : m.dataSize = m.cmd.toNat % 4 * 4 := by
  rw [dataSize, toNat_and_three, dSizeCode, toNat_and_three]
  omega

theorem dataSize_le : m.dataSize ≤ maxDataSize := by
  rw [dataSize_eq, maxDataSize]
  omega

theorem dSizeCode_setDSizeCode (code : UInt16) : (m.setDSizeCode code).dSizeCode = code &&& 3 := by
  have hclear : (m.cmd &&& 0xFFFC).toNat % 2 ^ 2 = 0 := by
    rw [UInt16.toNat_and, Nat.and_mod_two_pow]
    exact Nat.and_zero _
  apply UInt16.toNat_inj.1
  rw [dSizeCode, setDSizeCode, toNat_and_three, toNat_and_three, UInt16.toNat_or,
    show 4 = 2 ^ 2 from rfl, Nat.or_mod_two_pow, hclear, Nat.zero_or, toNat_and_three]
  omega

theorem dSizeCode_setParameter (param : UInt16) :
    (m.setParameter param).dSizeCode = m.dSizeCode := by
  have hshift : (param <<< 2).toNat % 2 ^ 2 = 0 := by
    rw [UInt16.toNat_shiftLeft, Nat.shiftLeft_eq]
    change param.toNat * 2 ^ 2 % 2 ^ 16 % 2 ^ 2 = 0
    omega
  apply UInt16.toNat_inj.1
  rw [dSizeCode, setParameter, toNat_and_three, UInt16.toNat_or, show 4 = 2 ^ 2 from rfl,
    Nat.or_mod_two_pow, hshift, Nat.or_zero, dSizeCode, toNat_and_three]
  omega

/-- The size of the data comes back from its code. -/
theorem dataSize_set (addr : UInt8) {size : UInt8} (hsize : size ∈ [0, 4, 8, 12]) (param : UInt16)
    (dptr : Option Mem) : (m.set addr size param dptr).dataSize = size.toNat := by
  have hcode : (m.set addr size param dptr).dSizeCode =
      size2dsCode (if size > 12 then 12 else size) &&& 3 := by
    exact (dSizeCode_setParameter _ _).trans (dSizeCode_setDSizeCode _ _)
  rw [dataSize, hcode]
  fin_cases hsize <;> rfl

theorem cs_set (addr size : UInt8) (param : UInt16) (dptr : Option Mem) :
    (m.set addr size param dptr).calcCS = (m.set addr size param dptr).cs := rfl

end TAppMessage

theorem TPacket.size_eq (p : TPacket) : p.size = 6 + p.msg.dataSize := by
  rw [TPacket.size, TAppMessage.size, headerSize]
  omega

theorem TPacket.octets_eq (p : TPacket) :
    p.octets =
      [loPreambleB0, loPreambleB1, p.msg.cs, p.msg.address, loByte p.msg.cmd, hiByte p.msg.cmd] ++
        p.msg.data.read 0 p.msg.dataSize := by
  rw [TPacket.octets, TPacket.image, p.size_eq, ← Mem.take_read _ p.msg.dataSize_le 0]
  simp only [List.cons_append, List.nil_append, Nat.add_comm 6, List.take_succ_cons]

namespace DataIOLtRx

/-! ## A packet for the device -/

/-- **The header** of a packet whose address passes the filter. -/
theorem feed_header (rx : DataIOLtRx) (m : TAppMessage) (h : Accepts rx.selfAddress m.address) :
    rx.startRx.feed [loPreambleB0, loPreambleB1, m.cs, m.address, loByte m.cmd] =
      ([0, 1, 1, 1, 1], { rx with
        index := 0
        state := .stCmd1
        rxMsg := { m with cmd := ofBytes (loByte m.cmd) (hiByte rx.rxMsg.cmd)
                          data := rx.rxMsg.data } }) := by
  simp only [feed, rxHandler, startRx, if_true, h]
  rfl

/-- The octets of the data, one at a time. -/
theorem feed_data (rx : DataIOLtRx) (ds : List UInt8) (hstate : rx.state = .stRxData)
    (hlen : rx.index + ds.length = rx.dataSize) (hne : ds ≠ []) (hlt : rx.dataSize < 2 ^ 16) :
    let done := { rx with
      rxMsg := { rx.rxMsg with data := rx.rxMsg.data.write rx.index ds }
      index := rx.dataSize }
    rx.feed ds = (List.replicate (ds.length - 1) 1 ++ [done.endMessage.1], done.endMessage.2) := by
  intro done
  induction ds generalizing rx with
  | nil => exact absurd rfl hne
  | cons b ds ih =>
    rw [List.length_cons] at hlen
    have hindex : (rx.index + 1) % 2 ^ 16 = rx.index + 1 := Nat.mod_eq_of_lt (by omega)
    have hstep : rx.rxHandler b = rx.rxData b := by rw [rxHandler, hstate]
    rcases ds with _ | ⟨b', ds⟩
    · have hlast : rx.index + 1 = rx.dataSize := hlen
      rw [feed, feed, hstep, rxData, hindex, hlast, if_pos rfl, Mem.store_eq_write]
      rfl
    · have hmore : rx.index + 1 ≠ rx.dataSize := by
        rw [List.length_cons] at hlen
        omega
      have hdata : rx.rxMsg.data.write rx.index (b :: b' :: ds) =
          (rx.rxMsg.data.store rx.index b).write (rx.index + 1) (b' :: ds) := by
        rw [Mem.store_eq_write]
        exact (rx.rxMsg.data.write_append rx.index [b] (b' :: ds)).symm
      let next : DataIOLtRx := { rx with
        rxMsg := { rx.rxMsg with data := rx.rxMsg.data.store rx.index b }
        index := rx.index + 1 }
      have hnext : next.index + (b' :: ds).length = next.dataSize := by
        dsimp only [next]
        omega
      have hrest := ih next hstate hnext (by simp) hlt
      rw [feed, hstep, rxData, hindex, if_neg hmore, hrest]
      simp only [done, hdata]
      rfl

/-- The message a packet leaves in the receiver: the data are in place of those before. -/
def received (rx : DataIOLtRx) (m : TAppMessage) : TAppMessage :=
  { m with data := rx.rxMsg.data.write 0 (m.data.read 0 m.dataSize) }

theorem read_received (rx : DataIOLtRx) (m : TAppMessage) :
    (rx.received m).data.read 0 m.dataSize = m.data.read 0 m.dataSize := by
  have hread := rx.rxMsg.data.read_write 0 (m.data.read 0 m.dataSize)
  rwa [Mem.length_read] at hread

/-- The checksum does not depend on what is behind the data. -/
theorem calcCS_received (rx : DataIOLtRx) (m : TAppMessage) :
    (rx.received m).calcCS = m.calcCS := by
  have hbody : (rx.received m).body = m.body := congrArg (_ :: _ :: _ :: ·) (rx.read_received m)
  rw [TAppMessage.calcCS, hbody, ← TAppMessage.calcCS]

/-- The end of a message with the right checksum. -/
theorem endMessage_received {rx rx' : DataIOLtRx} {m : TAppMessage} (hcs : m.calcCS = m.cs)
    (hmsg : rx'.rxMsg = rx.received m) :
    rx'.endMessage = (2, { rx' with rxQueue := rx'.rxQueue.push (rx.received m) }.startRx) := by
  have hright : (rx.received m).calcCS = (rx.received m).cs := (rx.calcCS_received m).trans hcs
  rw [endMessage, hmsg, if_pos hright]

/-- **A packet whose address passes the filter**: the last octet completes it, and its message is
pushed. -/
theorem feed_octets (rx : DataIOLtRx) (p : TPacket) (h : Accepts rx.selfAddress p.msg.address)
    (hcs : p.msg.calcCS = p.msg.cs) :
    ∃ rcs, (∀ rc ∈ rcs, rc ≠ 2) ∧ (rx.startRx.feed p.octets).1 = rcs ++ [2] ∧
      (rx.startRx.feed p.octets).2.rxQueue = rx.rxQueue.push (rx.received p.msg) := by
  obtain ⟨m⟩ := p
  have hsplit : (TPacket.mk m).octets =
      [loPreambleB0, loPreambleB1, m.cs, m.address, loByte m.cmd] ++
        hiByte m.cmd :: m.data.read 0 m.dataSize := TPacket.octets_eq _
  rw [hsplit, feed_append, feed_header rx m h]
  -- the command is complete with its second octet
  have hcmd : ofBytes (loByte (ofBytes (loByte m.cmd) (hiByte rx.rxMsg.cmd))) (hiByte m.cmd) =
      m.cmd := by
    rw [loByte_ofBytes, ofBytes_lo_hi]
  have hsize : TAppMessage.dataSize { m with data := rx.rxMsg.data } = m.dataSize := rfl
  simp only [feed, rxHandler, rxCmd1, TAppMessage.setB1, hcmd, hsize]
  by_cases hnone : m.dataSize = 0
  · have hmsg : { m with data := rx.rxMsg.data } = rx.received m := by
      rw [received, hnone, Mem.read_zero, Mem.write_nil]
    rw [if_pos hnone, endMessage_received hcs hmsg, hnone]
    exact ⟨[0, 1, 1, 1, 1], by decide, rfl, rfl⟩
  · rw [if_neg hnone]
    have hle := m.dataSize_le
    have hfed := feed_data { rx with
        rxMsg := { m with data := rx.rxMsg.data }, state := .stRxData, index := 0
        dataSize := m.dataSize } (m.data.read 0 m.dataSize) rfl (by simp)
      (by simpa [← List.length_eq_zero_iff] using hnone)
      (by rw [maxDataSize] at hle; dsimp only; omega)
    rw [hfed, endMessage_received hcs rfl]
    refine ⟨[0, 1, 1, 1, 1] ++ 1 :: List.replicate (m.dataSize - 1) 1, ?_, ?_, rfl⟩
    · simp [List.mem_replicate]
    · simp

/-! ## What is pushed -/

/-- While a message is taken in, its address has passed the filter. -/
def Filtered (rx : DataIOLtRx) : Prop :=
  rx.state = .stCmd0 ∨ rx.state = .stCmd1 ∨ rx.state = .stRxData →
    Accepts rx.selfAddress rx.rxMsg.address

/-- What an octet keeps: the own address, the filter, and that only messages that have passed it are
pushed. -/
structure Pushes (rx rx' : DataIOLtRx) : Prop where
  self : rx'.selfAddress = rx.selfAddress
  filtered : rx'.Filtered
  queue : ∃ msgs, rx'.rxQueue.toList = rx.rxQueue.toList ++ msgs ∧
    ∀ msg ∈ msgs, Accepts rx.selfAddress msg.address

theorem Pushes.trans {rx₁ rx₂ rx₃ : DataIOLtRx} (h : Pushes rx₁ rx₂) (h' : Pushes rx₂ rx₃) :
    Pushes rx₁ rx₃ := by
  obtain ⟨msgs, hqueue, hmsgs⟩ := h.queue
  obtain ⟨msgs', hqueue', hmsgs'⟩ := h'.queue
  refine ⟨h'.self.trans h.self, h'.filtered, msgs ++ msgs', ?_, ?_⟩
  · rw [hqueue', hqueue, List.append_assoc]
  · rw [h.self] at hmsgs'
    exact List.forall_mem_append.2 ⟨hmsgs, hmsgs'⟩

/-- A step that does not touch the queue. -/
theorem pushes_of_queue {rx rx' : DataIOLtRx} (hself : rx'.selfAddress = rx.selfAddress)
    (hfiltered : rx'.Filtered) (hqueue : rx'.rxQueue = rx.rxQueue) : Pushes rx rx' :=
  ⟨hself, hfiltered, [], by rw [hqueue, List.append_nil], by simp⟩

theorem filtered_startRx (rx : DataIOLtRx) : rx.startRx.Filtered := by
  rintro (h | h | h) <;> cases h

/-- The end of a message pushes what has passed the filter. -/
theorem pushes_endMessage {rx rx' : DataIOLtRx} (hself : rx'.selfAddress = rx.selfAddress)
    (hqueue : rx'.rxQueue = rx.rxQueue) (haccepts : Accepts rx.selfAddress rx'.rxMsg.address) :
    Pushes rx rx'.endMessage.2 := by
  rw [endMessage]
  split_ifs
  · have hlist := rx'.rxQueue.toList_push rx'.rxMsg
    refine ⟨hself, filtered_startRx _, ?_⟩
    rw [← hqueue]
    split_ifs at hlist
    · exact ⟨[], by rw [List.append_nil]; exact hlist, by simp⟩
    · exact ⟨[rx'.rxMsg], hlist, by simpa using haccepts⟩
  · exact pushes_of_queue hself (filtered_startRx _) hqueue

/-- **What an octet can push.** -/
theorem pushes_rxHandler {rx : DataIOLtRx} (h : rx.Filtered) (b : UInt8) :
    Pushes rx (rx.rxHandler b).2 := by
  rw [rxHandler]
  cases hs : rx.state with
  | stWait =>
    dsimp only
    split_ifs
    · exact pushes_of_queue rfl (by rintro (h | h | h) <;> cases h) rfl
    · exact pushes_of_queue rfl h rfl
  | stPreamble2 =>
    dsimp only
    split_ifs
    · exact pushes_of_queue rfl (by rintro (h | h | h) <;> cases h) rfl
    all_goals exact pushes_of_queue rfl (filtered_startRx _) rfl
  | stCS => exact pushes_of_queue rfl (by rintro (h | h | h) <;> cases h) rfl
  | stAddress =>
    dsimp only
    split_ifs with haccepts
    · exact pushes_of_queue rfl (fun _ => haccepts) rfl
    · exact pushes_of_queue rfl (filtered_startRx _) rfl
  | stCmd0 =>
    exact pushes_of_queue rfl (fun _ => h (.inl hs)) rfl
  | stCmd1 =>
    have haccepts := h (.inr (.inl hs))
    dsimp only
    rw [rxCmd1]
    split_ifs
    · exact pushes_endMessage rfl rfl haccepts
    · exact pushes_of_queue rfl (fun _ => haccepts) rfl
  | stRxData =>
    have haccepts := h (.inr (.inr hs))
    dsimp only
    rw [rxData]
    split_ifs
    · exact pushes_endMessage rfl rfl haccepts
    · exact pushes_of_queue rfl (fun _ => haccepts) rfl

/-- **What a string of octets can push**, from a receiver that has been started. -/
theorem pushes_feed {rx : DataIOLtRx} (h : rx.Filtered) (bs : List UInt8) :
    Pushes rx (rx.feed bs).2 := by
  induction bs generalizing rx with
  | nil => exact pushes_of_queue rfl h rfl
  | cons b bs ih =>
    have hstep := pushes_rxHandler h b
    exact hstep.trans (ih hstep.filtered)

/-! ## Packets that come through -/

/-- A packet with `n` octets of data comes out of a receiver as it was built: its last octet
completes it and no earlier one does, and if there is room in the queue one message is pushed that
is the one of the packet. -/
structure Received (rx : DataIOLtRx) (p : TPacket) (n : ℕ) : Prop where
  length : p.octets.length = p.size ∧ p.size = 6 + n
  complete : ∃ rcs, (∀ rc ∈ rcs, rc ≠ 2) ∧ (rx.startRx.feed p.octets).1 = rcs ++ [2]
  pushed : ¬ rx.rxQueue.isFull → ∃ msg : TAppMessage,
    (rx.startRx.feed p.octets).2.rxQueue.toList = rx.rxQueue.toList ++ [msg] ∧
    msg.cs = p.msg.cs ∧ msg.address = p.msg.address ∧ msg.cmd = p.msg.cmd ∧
    msg.data.read 0 n = p.msg.data.read 0 n

section Address

variable {self addr : UInt8}

theorem toNat_and_not_delay (b : UInt8) : (b &&& ~~~delayAnswerAddr).toNat = b.toNat % 128 := by
  rw [UInt8.toNat_and]
  exact Nat.and_two_pow_sub_one_eq_mod b.toNat 7

/-- The addresses of a device, with and without bit 7, that pass the filter. -/
theorem accepts_iff (hself : 1 ≤ self ∧ self ≤ 125)
    (haddr : addr &&& 0x7F = self ∨ addr &&& 0x7F = broadcastAddress) :
    Accepts self addr ↔ addr ≠ 254 := by
  have hlow := toNat_and_not_delay addr
  have hmask : addr &&& ~~~delayAnswerAddr = addr &&& 0x7F := rfl
  have h₁ := UInt8.le_iff_toNat_le.1 hself.1
  have h₁₂₅ := UInt8.le_iff_toNat_le.1 hself.2
  change 1 ≤ self.toNat at h₁
  change self.toNat ≤ 125 at h₁₂₅
  rw [Accepts, hmask, ne_eq]
  rw [hmask] at hlow
  constructor
  · rintro (h | h | h) rfl
    · rw [← h] at h₁₂₅
      exact absurd h₁₂₅ (by decide)
    · exact absurd h (by decide)
    · rw [h] at h₁
      exact absurd h₁ (by decide)
  · intro hne
    refine haddr.imp_right fun hbroadcast => .inl ?_
    rw [hbroadcast] at hlow
    change 126 = addr.toNat % 128 at hlow
    have hlt := addr.toNat_lt
    have hnat : addr.toNat ≠ 254 := fun h => hne (UInt8.toNat_inj.1 h)
    apply UInt8.toNat_inj.1
    change addr.toNat = 126
    omega

end Address

/-- **Packets of `DataIO_Lt`.** For every own address from 1 to 125 and every address that is the
own one or the broadcast address in its low seven bits, a packet built with any size of data the
code can express, any parameter and any data comes out of the receiver as it was built when the
address is not 254; and with room in the queue only then. -/
theorem packet_received_iff (rx : DataIOLtRx) (hself : 1 ≤ rx.selfAddress ∧ rx.selfAddress ≤ 125)
    (addr : UInt8)
    (haddr : addr &&& 0x7F = rx.selfAddress ∨ addr &&& 0x7F = broadcastAddress)
    (size : UInt8) (hsize : size ∈ [0, 4, 8, 12]) (param : UInt16) (dptr : Option Mem)
    (memory : TAppMessage) :
    (addr ≠ 254 → rx.Received (.init memory addr size param dptr) size.toNat) ∧
      (¬ rx.rxQueue.isFull →
        (rx.Received (.init memory addr size param dptr) size.toNat ↔ addr ≠ 254)) := by
  have hdata : (TPacket.init memory addr size param dptr).msg.dataSize = size.toNat :=
    memory.dataSize_set addr hsize param dptr
  have hright : addr ≠ 254 → rx.Received (.init memory addr size param dptr) size.toNat := by
    intro hne
    obtain ⟨rcs, hrcs, hfed, hqueue⟩ := rx.feed_octets (.init memory addr size param dptr)
      ((accepts_iff hself haddr).2 hne) (memory.cs_set addr size param dptr)
    refine ⟨⟨?_, ?_⟩, ⟨rcs, hrcs, hfed⟩, fun hroom => ?_⟩
    · rw [TPacket.octets_eq, TPacket.size_eq, List.length_append, Mem.length_read]
      rfl
    · rw [TPacket.size_eq, hdata]
    · have hlist := congrArg TQueue.toList hqueue
      rw [TQueue.toList_push, if_neg hroom] at hlist
      refine ⟨_, hlist, rfl, rfl, rfl, ?_⟩
      rw [← hdata]
      exact rx.read_received _
  refine ⟨hright, fun hroom => ⟨fun h => ?_, hright⟩⟩
  obtain ⟨msg, hlist, -, haddress, -⟩ := h.pushed hroom
  obtain ⟨msgs, hqueue, haccepts⟩ :=
    (pushes_feed (filtered_startRx rx) (TPacket.init memory addr size param dptr).octets).queue
  have hmsgs : [msg] = msgs := List.append_cancel_left (hlist.symm.trans hqueue)
  have haccept := haccepts msg (by rw [← hmsgs]; exact List.mem_singleton_self msg)
  rw [haddress] at haccept
  exact (accepts_iff hself haddr).1 haccept

/-- A message in memory that has not been set. -/
def unset : TAppMessage := ⟨0, 0, 0, fun _ => 0⟩

/-- The receiver of device 1, with room in its queue. -/
def deviceOne : DataIOLtRx := ⟨TQueue.init (fun _ => unset) 4 (by decide), unset, .stWait, 0, 0, 1⟩

/-- A broadcast with bit 7 of the address and without data is not received. -/
theorem packet_dropped :
    (deviceOne.startRx.feed (TPacket.init unset 254 0 5 none).octets).1 = [0, 1, 1, 1, 0, 0] ∧
      ¬ deviceOne.Received (.init unset 254 0 5 none) 0 := by
  have hfed : (deviceOne.startRx.feed (TPacket.init unset 254 0 5 none).octets).1 =
      [0, 1, 1, 1, 0, 0] := by
    decide +kernel
  refine ⟨hfed, fun h => ?_⟩
  obtain ⟨rcs, -, hrcs⟩ := h.complete
  have hlast := congrArg List.getLast? (hfed.symm.trans hrcs)
  rw [List.getLast?_concat] at hlast
  exact absurd hlast (by decide)

/-- A message for device 1 with bit 7 of the address and four octets of data. -/
theorem packet_received_own :
    (1 ≤ deviceOne.selfAddress ∧ deviceOne.selfAddress ≤ 125) ∧
      deviceOne.Received (.init unset 0x81 4 5 (some (Mem.ofList [1, 2, 3, 4]))) 4 :=
  ⟨by decide, (packet_received_iff deviceOne (by decide) 0x81 (by decide) 4 (by decide) 5
    (some (Mem.ofList [1, 2, 3, 4])) unset).1 (by decide)⟩

end DataIOLtRx

end KS3.DataIO.Lt
