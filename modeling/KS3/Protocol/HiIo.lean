import KS3.Protocol.TProtocolInst
import KS3.Protocol.TProtocol

/-!
# The upper link

The instance `protocolInst_HiIO` serves two links with one transmit packet: the serial line, whose
frames come through `processInputData`, and datagrams, which come through `processInputAppData`.
Either call first switches the limit of the packet and the link the replies take. The messages are
handled by `P_SlaveMsgHandlers_HiIO::RxMessageHandler`, which answers a write or a read of a
parameter with its value.

The store of the parameters and the handlers of other messages are parameters of the model. Beside
the code's own data, `Session` notes for each frame or datagram the messages it brought and the
packets that were passed down while it was processed.
-/

namespace KS3.Protocol

open DataIO

/-! ## Values of 32 bits -/

/-- A 32-bit value read as two 16-bit ones, the low one first. -/
def ofWords (lo hi : UInt16) : UInt32 := UInt32.ofNat (lo.toNat + 2 ^ 16 * hi.toNat)

/-- The low half of a 32-bit value. -/
def loWord (v : UInt32) : UInt16 := UInt16.ofNat (v.toNat % 2 ^ 16)

/-- The high half of a 32-bit value. -/
def hiWord (v : UInt32) : UInt16 := UInt16.ofNat (v.toNat / 2 ^ 16)

/-- The octets of a 16-bit value. -/
def wordBytes (w : UInt16) : List UInt8 := [loByte w, hiByte w]

/-- The octets of a 32-bit value. -/
def longBytes (v : UInt32) : List UInt8 := wordBytes (loWord v) ++ wordBytes (hiWord v)

@[simp] theorem length_longBytes (v : UInt32) : (longBytes v).length = 4 := rfl

theorem length_flatMap_longBytes (vs : List UInt32) :
    (vs.flatMap longBytes).length = 4 * vs.length := by
  induction vs with
  | nil => rfl
  | cons v vs ih =>
    rw [List.flatMap_cons, List.length_append, ih, length_longBytes, List.length_cons]
    omega

theorem loWord_ofWords (lo hi : UInt16) : loWord (ofWords lo hi) = lo := by
  have hlo := lo.toNat_lt
  have hhi := hi.toNat_lt
  apply UInt16.toNat_inj.1
  simp only [loWord, ofWords, UInt32.toNat_ofNat', UInt16.toNat_ofNat']
  omega

theorem hiWord_ofWords (lo hi : UInt16) : hiWord (ofWords lo hi) = hi := by
  have hlo := lo.toNat_lt
  have hhi := hi.toNat_lt
  apply UInt16.toNat_inj.1
  simp only [hiWord, ofWords, UInt32.toNat_ofNat', UInt16.toNat_ofNat']
  omega

/-- Four octets are those of a value. -/
theorem longBytes_ofWords (m : Mem) (i : ℕ) :
    longBytes (ofWords (m.word i) (m.word (i + 2))) = m.read i 4 := by
  rw [longBytes, loWord_ofWords, hiWord_ofWords]
  simp only [wordBytes, Mem.word, loByte_ofBytes, hiByte_ofBytes]
  rfl

theorem toUInt32_loWord {v : UInt32} (h : v.toNat < 2 ^ 16) : (loWord v).toUInt32 = v := by
  apply UInt32.toNat_inj.1
  rw [UInt16.toNat_toUInt32, loWord, UInt16.toNat_ofNat']
  omega

theorem toUInt32_loWord_eq_and (v : UInt32) : (loWord v).toUInt32 = v &&& 0xFFFF := by
  apply UInt32.toNat_inj.1
  have hmask : (0xFFFF : UInt32).toNat = 2 ^ 16 - 1 := rfl
  rw [UInt16.toNat_toUInt32, loWord, UInt16.toNat_ofNat', UInt32.toNat_and, hmask,
    Nat.and_two_pow_sub_one_eq_mod]
  omega

theorem toUInt32_hiWord (v : UInt32) : (hiWord v).toUInt32 = v >>> 16 := by
  have hlt := v.toNat_lt
  apply UInt32.toNat_inj.1
  have hshift : (16 : UInt32).toNat % 32 = 16 := rfl
  rw [UInt16.toNat_toUInt32, hiWord, UInt16.toNat_ofNat', UInt32.toNat_shiftRight, hshift,
    Nat.shiftRight_eq_div_pow]
  omega

theorem toUInt32_toUInt8 {v : UInt32} (h : v.toNat < 2 ^ 8) : v.toUInt8.toUInt32 = v := by
  apply UInt32.toNat_inj.1
  rw [UInt8.toNat_toUInt32, UInt32.toNat_toUInt8]
  omega

theorem ofWords_loWord_hiWord (v : UInt32) : ofWords (loWord v) (hiWord v) = v := by
  have hlt := v.toNat_lt
  apply UInt32.toNat_inj.1
  simp only [ofWords, loWord, hiWord, UInt32.toNat_ofNat', UInt16.toNat_ofNat']
  omega

/-! ## Messages -/

/-- `PROTOCOL_BROADCAST_ADDRESS`. -/
def protocolBroadcastAddress : UInt16 := 0xFF

/-- `ResultOk`, `ResultBadParameter` or `ResultOperationError`, for the result of an access to a
parameter. -/
def resultCode (result : ℤ) : UInt16 :=
  if result = 0 then 0 else if result = -1 then 0xFFFF else 0xFFFD

/-- The octets of a `TMsgParameterValue`. The last field is not initialized in the source. -/
def valueMessage (sequenceNumber : UInt8) (parameterNumber : UInt16) (parameterValue : UInt32)
    (result reserved : UInt16) : List UInt8 :=
  [msgParameterValue, sequenceNumber] ++ wordBytes parameterNumber ++
    wordBytes (loWord parameterValue) ++ wordBytes (hiWord parameterValue) ++ wordBytes result ++
    wordBytes reserved

/-! ## What the device provides -/

/-- What the upper link is connected to: what lies below it, the parameters (`Parameters.write` and
`Parameters.read` with the value the latter leaves), what happens to be in the field that is not
initialized, and the handlers of the other messages. -/
structure Device (τ : Type*) extends Lower τ where
  writeParameter : UInt16 → UInt32 → τ → ℤ × τ
  readParameter : UInt16 → τ → ℤ × UInt32 × τ
  reserved : τ → UInt16
  handleOther : Mem → UInt16 → UInt16 → TProtocolInstance τ → TProtocolInstance τ

/-! ## The handler of messages -/

namespace SlaveMsgHandlers

variable {τ : Type*} (dev : Device τ)

/-- A reply is added to the packet. -/
def addReply (p : TProtocolInstance τ) (reply : List UInt8) : TProtocolInstance τ :=
  (p.addMessage dev.toLower (Mem.ofList reply) fun _ => 0).2

/-- `handleMsgPWrite`. -/
def handleMsgPWrite (msg : Mem) (destAddress : UInt16) (p : TProtocolInstance τ) :
    TProtocolInstance τ :=
  let v := ofWords (msg.word 4) (msg.word 6)
  let (result, lower) := dev.writeParameter (msg.word 2) v p.lower
  let p := { p with lower := lower }
  if destAddress ≠ protocolBroadcastAddress ∧ msg 1 ≠ 0xFF then
    addReply dev p (valueMessage (msg 1) (msg.word 2) v (resultCode result) (dev.reserved p.lower))
  else
    p

/-- `handleMsgPRead`. -/
def handleMsgPRead (msg : Mem) (p : TProtocolInstance τ) : TProtocolInstance τ :=
  let (result, v, lower) := dev.readParameter (msg.word 2) p.lower
  let p := { p with lower := lower }
  addReply dev p (valueMessage (msg 1) (msg.word 2) v (resultCode result) (dev.reserved p.lower))

/-- `RxMessageHandler`. -/
def rxMessageHandler (msg : Mem) (destAddress srcAddress : UInt16) (p : TProtocolInstance τ) :
    TProtocolInstance τ :=
  if msg 0 = msgParameterWrite then handleMsgPWrite dev msg destAddress p
  else if msg 0 = msgParameterRead then handleMsgPRead dev msg p
  else dev.handleOther msg destAddress srcAddress p

end SlaveMsgHandlers

/-! ## Exchanges -/

/-- A message that was delivered, with the addresses of its frame or datagram. -/
structure Request where
  message : List UInt8
  dest : UInt16
  src : UInt16

/-- A frame or datagram: the link it came from, its source, the messages it brought and the packets
passed down while it was processed. -/
structure Exchange where
  link : LinkId
  src : UInt16
  requests : List Request
  packets : List Packet

/-- The instance, with the messages of the frame or datagram being processed, the number of packets
passed down before it, and the exchanges so far. -/
structure Session (τ : Type*) where
  inst : TProtocolInstance τ
  requests : List Request
  before : ℕ
  exchanges : List Exchange

/-- `packetHandlersHiIO` and `rxMsgHandler_HiIO`, called for what came from the given link, which
they do not depend on. The source address is assigned to the `TProtocol` before they are called. -/
def hiIoHandlers {τ : Type*} (dev : Device τ) (origin : LinkId) : Handlers (Session τ) where
  onBeginRxPacketProcess s :=
    { s with inst := s.inst.startTxPacket, requests := [], before := s.inst.packets.length }
  processRxMessage msg dest src s :=
    { s with
      inst := SlaveMsgHandlers.rxMessageHandler dev msg dest src { s.inst with srcAddress := src }
      requests := s.requests ++ [⟨messageBytes msg, dest, src⟩] }
  onEndRxPacketProcess src s :=
    let inst := { s.inst with srcAddress := src }.sendPending dev.toLower
    { s with
      inst := inst
      exchanges := s.exchanges ++ [⟨origin, src, s.requests, inst.packets.drop s.before⟩] }

/-! ## The calls -/

/-- `kProtocolDataIO` and `kProtocolApp`. -/
inductive ProtocolType
  | kProtocolDataIo
  | kProtocolApp
  deriving DecidableEq

/-- `MAX_TX_APP_SIZE_DATAIO`. -/
def maxTxAppSizeDataIO : UInt16 := 244

/-- `MAX_TX_APP_SIZE_DATAIO_APP`. -/
def maxTxAppSizeDataIOApp : UInt16 := 1472

/-- The upper link: `hi_io::protocolType`, the receiver and the instance. -/
structure HiIo (τ : Type*) where
  protocolType : ProtocolType
  rx : TProtocol
  session : Session τ

namespace HiIo

variable {τ : Type*} (dev : Device τ)

/-- The limit a type of protocol has. -/
def limit : ProtocolType → UInt16
  | .kProtocolDataIo => maxTxAppSizeDataIO
  | .kProtocolApp => maxTxAppSizeDataIOApp

/-- The link a type of protocol has. -/
def link : ProtocolType → LinkId
  | .kProtocolDataIo => .linkId0
  | .kProtocolApp => .linkId1

/-- The instance when `processInputData` or `processInputAppData` has switched the limit and the
link. -/
def switch (t : ProtocolType) (protocolType : ProtocolType) (p : TProtocolInstance τ) :
    TProtocolInstance τ :=
  let p := if protocolType ≠ t then p.setPayload (limit t) else p
  { p with linkID := link t }

/-- `Protocol::processInputData`, for the upper link. -/
def processInputData (s : HiIo τ) (now : UInt32) (bytes : List UInt8) : Option (HiIo τ) :=
  let inst := switch .kProtocolDataIo s.protocolType s.session.inst
  match s.rx.processInputData (hiIoHandlers dev .linkId0) now bytes false
      { s.session with inst := inst } with
  | none => none
  | some out => some ⟨.kProtocolDataIo, out.protocol, out.handled⟩

/-- `Protocol::processInputAppData`. -/
def processInputAppData (s : HiIo τ) (buffer : Mem) (n dest src : UInt16) : Option (HiIo τ) :=
  let inst := switch .kProtocolApp s.protocolType s.session.inst
  match s.rx.processInputAppData (hiIoHandlers dev .linkId1) buffer n dest src
      { s.session with inst := inst } with
  | none => none
  | some (_, rx, session) => some ⟨.kProtocolApp, rx, session⟩

end HiIo

end KS3.Protocol
