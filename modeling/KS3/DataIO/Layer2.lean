import KS3.Comm.Crc16
import KS3.Foundations.Run

/-!
# Layer 2: framing

The class `DataIOLayer2`: the packet buffer, the byte-driven receiver `rxHandler` with its seven
states, and `finishTxPacket`, which completes the header of an outgoing packet. The packet union
is memory from its first octet on, so the header fields are words of that memory:

    0 preamble   2 destAddress   3 srcAddress   4 dataSize   6 crc16   8 data crc16   10 data

An outcome of `rxHandler` carries the index its one store goes to besides the result code. The
index is a 16-bit counter that no branch compares with the size of the buffer, and memory does
not end at the buffer, so a store past the end is visible as such.
-/

namespace KS3.DataIO

open Comm

/-! ## Constants -/

/-- `MaxLayer2DataSize`. -/
def maxLayer2DataSize : ℕ := 244

/-- `sizeof(LR2_HEADER)`. -/
def sizeofLR2Header : ℕ := 8

/-- `sizeof(LR2_PACKET)`, the length of `LR2_PACKET.bytes`. -/
def sizeofLR2Packet : ℕ := sizeofLR2Header + maxLayer2DataSize + 2

/-- `Layer2PreambleB0`. -/
def layer2PreambleB0 : UInt8 := 0xAA

/-- `Layer2PreambleB1`. -/
def layer2PreambleB1 : UInt8 := 0x55

/-- `Layer2PreambleCRC16`. -/
def layer2PreambleCRC16 : UInt16 := 0xB75A

/-- `DataIOLtPreambleB1`. -/
def dataIOLtPreambleB1 : UInt8 := 0x99

/-- `TErrors`, the kinds of protocol errors that are counted. -/
inductive TErrors
  | errorRxDataCRC
  | errorRxHeaderCRC
  | errorRxTimeout
  | errorLossRxPacket
  | errorTxFrame
  | errorUnknownMsgId
  deriving DecidableEq

/-- `TRxState`, the states of the receiver. -/
inductive TRxState
  | stWait
  | stPreamble2
  | stRxHeader
  | stCRC0
  | stCRC1
  | stRxData
  | stPacketReady
  deriving DecidableEq

/-! ## The receiver -/

/-- The data members of `DataIOLayer2`. -/
structure DataIOLayer2 where
  errors : TErrors → UInt16
  packet : Mem
  state : TRxState
  rxCrc16 : UInt16
  index : ℕ
  selfAddress : UInt8
  broadcastAddress : UInt8
  enableDataIOLt : Bool

/-- The outcome of one call of `rxHandler`: its result code, the receiver after it and the index
of the store `packet.bytes[index] = b` it executed, if any. -/
structure RxOut where
  rc : ℤ
  layer2 : DataIOLayer2
  store : Option ℕ

namespace DataIOLayer2

/-- `packet.Packet.header.destAddress`. -/
def destAddress (l : DataIOLayer2) : UInt8 := l.packet 2

/-- `packet.Packet.header.srcAddress`. -/
def srcAddress (l : DataIOLayer2) : UInt8 := l.packet 3

/-- `packet.Packet.header.dataSize`. -/
def dataSize (l : DataIOLayer2) : ℕ := (l.packet.word 4).toNat

/-- `packet.Packet.header.crc16`. -/
def headerCrc16 (l : DataIOLayer2) : UInt16 := l.packet.word 6

/-- `packet.Packet.crc16`. -/
def crc16 (l : DataIOLayer2) : UInt16 := l.packet.word 8

/-- `startRx`. -/
def startRx (l : DataIOLayer2) : DataIOLayer2 := { l with index := 0, state := .stWait }

/-- `setPreambleRecieved`. -/
def setPreambleRecieved (l : DataIOLayer2) : DataIOLayer2 :=
  { l with index := 2, rxCrc16 := layer2PreambleCRC16, state := .stRxHeader }

/-- `configure`; the addresses are kept in eight bits. -/
def configure (l : DataIOLayer2) (aselfAddress abroadcastAddress : UInt16) : DataIOLayer2 :=
  { l with selfAddress := aselfAddress.toUInt8, broadcastAddress := abroadcastAddress.toUInt8 }

/-- `clearErrors`. -/
def clearErrors (l : DataIOLayer2) : DataIOLayer2 := { l with errors := fun _ => 0 }

/-- The constructor, on memory with unknown contents: it sets neither the packet, nor the CRC
register, nor the addresses. -/
def construct (l : DataIOLayer2) : DataIOLayer2 :=
  ({ l with enableDataIOLt := false }.startRx).clearErrors

/-- `errors[i]++`. -/
def countError (l : DataIOLayer2) (i : TErrors) : DataIOLayer2 :=
  { l with errors := Function.update l.errors i (l.errors i + 1) }

/-- `packet.bytes[index++] = b`. -/
def push (l : DataIOLayer2) (b : UInt8) : DataIOLayer2 :=
  { l with packet := l.packet.store l.index b, index := (l.index + 1) % 2 ^ 16 }

/-- The case `stRxData` of `rxHandler`, up to the test for the end of the packet. -/
def rxDataByte (l : DataIOLayer2) (b : UInt8) : DataIOLayer2 :=
  { l.push b with rxCrc16 := updateCRC16 b l.rxCrc16 }

/-- The end of a packet: the result and the receiver after the check of the data CRC. -/
def endData (l : DataIOLayer2) : ℤ × DataIOLayer2 :=
  if l.crc16 = l.rxCrc16 then
    (2, { l with state := .stPacketReady })
  else
    (-1, (l.countError .errorRxDataCRC).startRx)

/-- The case `stRxData` of `rxHandler`. -/
def rxData (l : DataIOLayer2) (b : UInt8) : ℤ × DataIOLayer2 :=
  if (l.rxDataByte b).index = (l.rxDataByte b).dataSize + sizeofLR2Header + 2 then
    (l.rxDataByte b).endData
  else
    (1, l.rxDataByte b)

/-- The case `stWait` of `rxHandler`. -/
def rxWait (l : DataIOLayer2) (b : UInt8) : RxOut :=
  if b = layer2PreambleB0 then
    ⟨0, { l with packet := l.packet.store 0 b, state := .stPreamble2 }, some 0⟩
  else
    ⟨0, l, none⟩

/-- The case `stPreamble2` of `rxHandler`. -/
def rxPreamble2 (l : DataIOLayer2) (b : UInt8) : RxOut :=
  if b = layer2PreambleB1 then
    ⟨1, { l with
      packet := l.packet.store 1 b
      index := 2
      rxCrc16 := layer2PreambleCRC16
      state := .stRxHeader }, some 1⟩
  else
    ⟨if l.enableDataIOLt ∧ b = dataIOLtPreambleB1 then 3 else 1, l.startRx, none⟩

/-- The case `stRxHeader` of `rxHandler`, up to the test for the end of the header. The two octets
of the header CRC do not enter the register. -/
def rxHeaderByte (l : DataIOLayer2) (b : UInt8) : DataIOLayer2 :=
  { l.push b with
    rxCrc16 := if l.index < sizeofLR2Header - 2 then updateCRC16 b l.rxCrc16 else l.rxCrc16 }

/-- The end of a header: the result and the receiver after its checks. -/
def endHeader (l : DataIOLayer2) : ℤ × DataIOLayer2 :=
  if l.dataSize > maxLayer2DataSize then
    (-2, l.startRx)
  else if l.rxCrc16 = l.headerCrc16 then
    if l.destAddress = l.selfAddress ∨ l.destAddress = l.broadcastAddress then
      (1, { l with state := .stCRC0 })
    else
      (-3, l.startRx)
  else
    (-4, (l.countError .errorRxHeaderCRC).startRx)

/-- The case `stRxHeader` of `rxHandler`. -/
def rxHeader (l : DataIOLayer2) (b : UInt8) : ℤ × DataIOLayer2 :=
  if (l.rxHeaderByte b).index = sizeofLR2Header then
    (l.rxHeaderByte b).endHeader
  else
    (1, l.rxHeaderByte b)

/-- `rxHandler`: one received octet. The `default` branch of the source's `switch`, with result
`-99`, is for values of `state` outside the enumeration. -/
def rxHandler (l : DataIOLayer2) (b : UInt8) : RxOut :=
  match l.state with
  | .stPacketReady => ⟨2, l, none⟩
  | .stRxData => ⟨(l.rxData b).1, (l.rxData b).2, some l.index⟩
  | .stWait => l.rxWait b
  | .stPreamble2 => l.rxPreamble2 b
  | .stRxHeader => ⟨(l.rxHeader b).1, (l.rxHeader b).2, some l.index⟩
  | .stCRC0 => ⟨1, { l.push b with state := .stCRC1 }, some l.index⟩
  | .stCRC1 => ⟨1, { l.push b with state := .stRxData, rxCrc16 := 0xFFFF }, some l.index⟩

section Equations

variable {l : DataIOLayer2} (b : UInt8)

theorem rxHandler_stPacketReady (hs : l.state = .stPacketReady) :
    l.rxHandler b = ⟨2, l, none⟩ := by
  simp only [rxHandler, hs]

theorem rxHandler_stRxData (hs : l.state = .stRxData) :
    l.rxHandler b = ⟨(l.rxData b).1, (l.rxData b).2, some l.index⟩ := by
  simp only [rxHandler, hs]

theorem rxHandler_stWait (hs : l.state = .stWait) : l.rxHandler b = l.rxWait b := by
  simp only [rxHandler, hs]

theorem rxHandler_stPreamble2 (hs : l.state = .stPreamble2) :
    l.rxHandler b = l.rxPreamble2 b := by
  simp only [rxHandler, hs]

theorem rxHandler_stRxHeader (hs : l.state = .stRxHeader) :
    l.rxHandler b = ⟨(l.rxHeader b).1, (l.rxHeader b).2, some l.index⟩ := by
  simp only [rxHandler, hs]

theorem rxHandler_stCRC0 (hs : l.state = .stCRC0) :
    l.rxHandler b = ⟨1, { l.push b with state := .stCRC1 }, some l.index⟩ := by
  simp only [rxHandler, hs]

theorem rxHandler_stCRC1 (hs : l.state = .stCRC1) :
    l.rxHandler b =
      ⟨1, { l.push b with state := .stRxData, rxCrc16 := 0xFFFF }, some l.index⟩ := by
  simp only [rxHandler, hs]

end Equations

/-- `getRxDataPtr`: the data block, the destination, the source and the size of a received
packet; nothing before a packet is ready. -/
def getRxDataPtr (l : DataIOLayer2) : Option (Mem × UInt16 × UInt16 × ℕ) :=
  if l.state = .stPacketReady then
    some (l.packet.shift 10, l.destAddress.toUInt16, l.srcAddress.toUInt16, l.dataSize)
  else
    none

/-! ## The transmitter -/

/-- `finishTxPacket`: complete the header of a packet whose data and `dataSize` are filled in. The
two CRCs are taken of the octets already written. -/
def finishTxPacket (l : DataIOLayer2) (destAddress : UInt8) (p2 : Mem) : Mem :=
  let p2 := p2.write 0 [layer2PreambleB0, layer2PreambleB1]
  let p2 := p2.store 3 l.selfAddress
  let p2 := p2.store 2 destAddress
  let headerCrc := calcBlockCRC16i (p2.read 0 (sizeofLR2Header - 2)) 0xFFFF
  let p2 := p2.write 6 [loByte headerCrc, hiByte headerCrc]
  let dataCrc := calcBlockCRC16i (p2.read 10 (p2.word 4).toNat) 0xFFFF
  p2.write 8 [loByte dataCrc, hiByte dataCrc]

/-! ## Runs of the receiver -/

/-- The calls a receiver is driven by. -/
inductive RxCall
  | rxHandler (b : UInt8)
  | startRx
  | setPreambleRecieved
  | configure (aselfAddress abroadcastAddress : UInt16)

/-- One call. -/
def call (l : DataIOLayer2) : RxCall → DataIOLayer2
  | .rxHandler b => (l.rxHandler b).layer2
  | .startRx => l.startRx
  | .setPreambleRecieved => l.setPreambleRecieved
  | .configure a b => l.configure a b

/-- The index a call stores to in `packet.bytes`. -/
def callStore (l : DataIOLayer2) : RxCall → Option ℕ
  | .rxHandler b => (l.rxHandler b).store
  | _ => none

/-- The call's store, if it makes one, is inside `packet.bytes`. -/
def InBounds (l : DataIOLayer2) (c : RxCall) : Prop := ∀ i ∈ l.callStore c, i < sizeofLR2Packet

instance (l : DataIOLayer2) (c : RxCall) : Decidable (l.InBounds c) :=
  inferInstanceAs (Decidable (∀ i ∈ l.callStore c, i < sizeofLR2Packet))

/-- The result codes and the receiver after a string of octets. -/
def feed (l : DataIOLayer2) : List UInt8 → List ℤ × DataIOLayer2
  | [] => ([], l)
  | b :: bs =>
    let out := l.rxHandler b
    let rest := out.layer2.feed bs
    (out.rc :: rest.1, rest.2)

end DataIOLayer2

end KS3.DataIO
