import KS3.Buffers.Container
import KS3.Foundations.Run

/-!
# `data_buffers`: storing blocks and serving them

The functions of `data_buffers.cpp` on the container, `extMsgAppTypeHandler`, which handles the
requests and acknowledges of the upper level, and runs of all of them.

Calls into the protocol (`Protocol::addMessage`, `Protocol::sendPacket`) are outputs here. A run
carries besides the container which blocks are stored and not yet acknowledged, each with the
buffer it was written to: a block is added by a `writeBuffer` with a positive result, and it is
removed by an acknowledge of its packet number or by a reset. The code does not have this list.
-/

namespace KS3.Buffers

/-! ## Constants and records -/

/-- `kDataId`, that is `MsgApp_DataInt32x3`. -/
def kDataId : UInt16 := 0x6B

/-- `kDataSampleSize`. -/
def kDataSampleSize : ℕ := 12

/-- `MsgApp_RequestData`. -/
def msgAppRequestData : UInt16 := 0x10

/-- `MsgApp_DataAcknowledge`. -/
def msgAppDataAcknowledge : UInt16 := 0x11

/-- `MsgApp_DataAbsence`. -/
def msgAppDataAbsence : UInt16 := 0x12

/-- `kIsFullBuffer`. -/
def kIsFullBuffer : ℤ := 2

/-- `kNoData`. -/
def kNoData : ℤ := 0

/-- `kNoBuffers`. -/
def kNoBuffers : ℤ := -1

/-- `kIncorrectSize`. -/
def kIncorrectSize : ℤ := -2

/-- `kIncorrectId`. -/
def kIncorrectId : ℤ := -3

/-- `TMsgAppTypeHeader`, for messages that are put together field by field. -/
structure TMsgAppTypeHeader where
  id : UInt8
  sequenceNumber : UInt8
  type : UInt16
  dataSize : UInt16
  deriving DecidableEq

/-- A call into the protocol; the second argument of `addMessage` may be null. -/
inductive ProtocolCall
  | addMessage (msg : TMsgAppTypeHeader) (data : Option TDataBuffer)
  | sendPacket (destAddress : UInt16)

/-! ## The functions -/

/-- `memcpy(b, buffer, getServiceInfoSize() + dataSize)`. -/
def TDataBuffer.copy (b buffer : TDataBuffer) (dataSize : ℕ) : TDataBuffer where
  packet := buffer.packet
  size := buffer.size
  sync := buffer.sync
  data := b.data.write 0 (buffer.data.read 0 dataSize)

/-- The octets of samples a block says it has. -/
def TDataBuffer.dataSize (b : TDataBuffer) : ℕ := b.size.toNat * kDataSampleSize

namespace TDataBuffersContainer

/-- `writeBuffer`. -/
def writeBuffer (c : TDataBuffersContainer) (buffer : TDataBuffer) (dataId : UInt32) :
    ℤ × TDataBuffersContainer :=
  if dataId ≠ kDataId.toUInt32 then
    (kIncorrectId, c)
  else
    match c.lockFreeBuffer with
    | (none, c) => (kNoBuffers, c)
    | (some n, c) =>
      if buffer.dataSize ≤ kMaxDataSize then
        (serviceInfoSize + buffer.dataSize, c.setBuffer n
          { c.buffers n with buffer := (c.buffers n).buffer.copy buffer buffer.dataSize })
      else
        (kIncorrectSize, c)

/-- `getDataReadyInfo`. -/
def getDataReadyInfo (c : TDataBuffersContainer) : ℤ :=
  if c.nFull > 0 then kIsFullBuffer else kNoData

/-- `addMsgData`. -/
def addMsgData (seqNumber : UInt8) (buffer : TDataBuffer) : ProtocolCall :=
  .addMessage ⟨0x80, seqNumber, kDataId, UInt16.ofNat (serviceInfoSize + buffer.dataSize)⟩
    (some buffer)

/-- `handleMsgRequestData`. -/
def handleMsgRequestData (c : TDataBuffersContainer) (sequenceNumber : UInt8) :
    List ProtocolCall × TDataBuffersContainer :=
  match c.getFullBufferSortBySync with
  | (some n, c) => ([addMsgData sequenceNumber (c.buffers n).buffer], c)
  | (none, c) => ([], c)

/-- `handleMsgDataAcknowledge`. -/
def handleMsgDataAcknowledge (c : TDataBuffersContainer) (packetNumber : UInt16) :
    TDataBuffersContainer :=
  (c.releaseBufferByPacketNumber packetNumber).2

/-- `extMsgAppTypeHandler`, for a message in memory: its sequence number is octet 1, its type is
the word at 2, and the packet number of an acknowledge the word at 6. -/
def extMsgAppTypeHandler (c : TDataBuffersContainer) (msg : Mem) (srcAddress : UInt16) :
    List ProtocolCall × TDataBuffersContainer :=
  if msg.word 2 = msgAppRequestData then
    if c.getDataReadyInfo = kNoData then
      ([.addMessage ⟨0x80, msg 1, msgAppDataAbsence, 0⟩ none, .sendPacket srcAddress], c)
    else
      c.handleMsgRequestData (msg 1)
  else if msg.word 2 = msgAppDataAcknowledge then
    ([], c.handleMsgDataAcknowledge (msg.word 6))
  else
    ([], c)

end TDataBuffersContainer

/-! ## Runs -/

/-- The operations of a run. -/
inductive Op
  | writeBuffer (buffer : TDataBuffer) (dataId : UInt32)
  | message (msg : Mem) (srcAddress : UInt16)
  | reset

/-- A container with the blocks that are stored and not yet acknowledged, each with the index of
its buffer. -/
structure Store where
  container : TDataBuffersContainer
  stored : List (ℕ × TDataBuffer)

namespace Store

/-- The store before the first operation. -/
def init (memory : ℕ → TDataBuffer) : Store := ⟨.init memory, []⟩

/-- Whether a message acknowledges a block. -/
def Acks (msg : Mem) (block : TDataBuffer) : Prop :=
  msg.word 2 = msgAppDataAcknowledge ∧ block.packet = msg.word 6

instance (msg : Mem) (block : TDataBuffer) : Decidable (Acks msg block) :=
  inferInstanceAs (Decidable (msg.word 2 = msgAppDataAcknowledge ∧ block.packet = msg.word 6))

/-- One operation. -/
def step (s : Store) : Op → Store
  | .writeBuffer buffer dataId =>
    { container := (s.container.writeBuffer buffer dataId).2
      stored :=
        if (s.container.writeBuffer buffer dataId).1 > 0 then
          s.stored ++ [(s.container.lockFreeBuffer.1.getD 0, buffer)]
        else
          s.stored }
  | .message msg srcAddress =>
    { container := (s.container.extMsgAppTypeHandler msg srcAddress).2
      stored := s.stored.filter fun e => ¬ Acks msg e.2 }
  | .reset => ⟨s.container.reset, []⟩

/-- The operation calls `lockFreeBuffer`. -/
def Locks : Op → Prop
  | .writeBuffer _ dataId => dataId = kDataId.toUInt32
  | _ => False

instance (op : Op) : Decidable (Locks op) :=
  match op with
  | .writeBuffer _ dataId => inferInstanceAs (Decidable (dataId = kDataId.toUInt32))
  | .message _ _ => inferInstanceAs (Decidable False)
  | .reset => inferInstanceAs (Decidable False)

/-! ## Operations for examples -/

/-- A block with one sample of zeros. -/
def block (packet : UInt16) : TDataBuffer := ⟨packet, 1, 0, fun _ => 0⟩

/-- The operation that stores it. -/
def write (packet : UInt16) : Op := .writeBuffer (block packet) kDataId.toUInt32

/-- The operation that acknowledges it. -/
def acknowledge (packet : UInt16) : Op :=
  .message (Mem.ofList [0x80, 0xFF, 0x11, 0, 2, 0, loByte packet, hiByte packet]) 1

/-- A store whose memory holds zeros. -/
def blank : Store := init fun _ => ⟨0, 0, 0, fun _ => 0⟩

end Store

end KS3.Buffers
