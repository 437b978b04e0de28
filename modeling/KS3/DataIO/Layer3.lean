import KS3.DataIO.Layer2

/-!
# Layer 3: messages

The class `DataIOLayer3`: its transmitting half packs messages one behind the other into the data
block of a packet, its receiving half hands out the messages of a data block one by one. A message
is one of four records of fixed size or a header with a data block of the size the header says:

    0x10 MsgParameterWrite   8 octets      0x12 MsgParameterValue   12 octets
    0x11 MsgParameterRead    4 octets      0x13 MsgReadBlock         6 octets
    0x80 MsgAppType          6 octets, the last two of them the size of the data behind

All sizes and indices are 16-bit values of the source, so that sums of them are taken
modulo `2 ^ 16`. The members of the two halves are disjoint, and they are two structures here.

`forMessages` is the loop `while(getMessagePtr(..) == 0) processRxMessage(..)`. It is given a
number of rounds; `none` is the outcome when they do not suffice.
-/

namespace KS3.DataIO

/-! ## Message sizes -/

/-- `MsgParameterWrite`. -/
def msgParameterWrite : UInt8 := 0x10

/-- `MsgParameterRead`. -/
def msgParameterRead : UInt8 := 0x11

/-- `MsgParameterValue`. -/
def msgParameterValue : UInt8 := 0x12

/-- `MsgReadBlock`. -/
def msgReadBlock : UInt8 := 0x13

/-- `MsgAppType`. -/
def msgAppType : UInt8 := 0x80

/-- `sizeof(TMsgAppTypeHeader)`. -/
def sizeofTMsgAppTypeHeader : ℕ := 6

/-- The size of the record with the given id: `sizeof(TMsgParameterWrite)` and the like. -/
def recordSize (id : UInt8) : Option ℕ :=
  if id = msgParameterWrite then some 8
  else if id = msgParameterRead then some 4
  else if id = msgParameterValue then some 12
  else if id = msgReadBlock then some 6
  else none

/-- The field `dataSize` of a `TMsgAppTypeHeader`. -/
def appDataSize (msg : Mem) : ℕ := (msg.word 4).toNat

/-- The `switch` on the message id in `addMessage` and `getMessagePtr`: the variable `size`, or
nothing in the `default` branch. -/
def messageSize (msg : Mem) : Option ℕ :=
  if msg 0 = msgAppType then some ((sizeofTMsgAppTypeHeader + appDataSize msg) % 2 ^ 16)
  else recordSize (msg 0)

/-- The octets of a message. -/
def messageBytes (msg : Mem) : List UInt8 := msg.read 0 ((messageSize msg).getD 0)

/-! ## Transmission -/

/-- The members of `DataIOLayer3` that transmission uses. -/
structure Layer3Tx where
  txPacket : Mem
  txIndex : ℕ
  maxTxAppSize : ℕ

/-- The outcome of `addMessage`: its result, the state after it and the blocks of
`txPacket->Packet.data` its calls of `memcpy` write, each by its first index and its length. -/
structure AddOut where
  rc : ℤ
  tx : Layer3Tx
  copies : List (ℕ × ℕ)

namespace Layer3Tx

/-- `setTxAppSize`. -/
def setTxAppSize (t : Layer3Tx) (sz : UInt16) : Layer3Tx := { t with maxTxAppSize := sz.toNat }

/-- `getTxBufferFree`. -/
def getTxBufferFree (t : Layer3Tx) : ℕ := (t.maxTxAppSize + 2 ^ 16 - t.txIndex) % 2 ^ 16

/-- `startTxPacket`. -/
def startTxPacket (t : Layer3Tx) (buffer : Mem) : Layer3Tx :=
  { t with txIndex := 0, txPacket := buffer }

/-- `memcpy(txPacket->Packet.data + txIndex, ..)` and the advance of `txIndex`. -/
def append (t : Layer3Tx) (bs : List UInt8) : Layer3Tx :=
  { t with txPacket := t.txPacket.write (10 + t.txIndex) bs
           txIndex := (t.txIndex + bs.length) % 2 ^ 16 }

/-- The case `MsgAppType` of `addMessage`. -/
def addAppMessage (t : Layer3Tx) (msg data : Mem) : AddOut :=
  if (sizeofTMsgAppTypeHeader + appDataSize msg) % 2 ^ 16 > t.getTxBufferFree then
    ⟨-1, t, []⟩
  else
    let t₁ := t.append (msg.read 0 sizeofTMsgAppTypeHeader)
    if appDataSize msg ≠ 0 then
      ⟨0, t₁.append (data.read 0 (appDataSize msg)),
        [(t.txIndex, sizeofTMsgAppTypeHeader), (t₁.txIndex, appDataSize msg)]⟩
    else
      ⟨0, t₁, [(t.txIndex, sizeofTMsgAppTypeHeader)]⟩

/-- `addMessage`. -/
def addMessage (t : Layer3Tx) (msg data : Mem) : AddOut :=
  if msg 0 = msgAppType then
    t.addAppMessage msg data
  else
    match recordSize (msg 0) with
    | none => ⟨-2, t, []⟩
    | some size =>
      if size > t.getTxBufferFree then ⟨-1, t, []⟩
      else ⟨0, t.append (msg.read 0 size), [(t.txIndex, size)]⟩

/-- `finishTxPacket`: the length of the packet, and the state after it. -/
def finishTxPacket (t : Layer3Tx) (lr2 : DataIOLayer2) (destAddress : UInt8) : ℕ × Layer3Tx :=
  if t.txIndex ≠ 0 then
    let sized := t.txPacket.write 4
      [loByte (UInt16.ofNat t.txIndex), hiByte (UInt16.ofNat t.txIndex)]
    let packet := lr2.finishTxPacket destAddress sized
    ((sizeofLR2Header + 2 + (packet.word 4).toNat) % 2 ^ 16,
      { t with txPacket := packet, txIndex := 0 })
  else
    (0, t)

/-- `addMessage` for one message after the other: the results and the state after them. A message
is given by the two pointers `addMessage` takes. -/
def addMessages (t : Layer3Tx) : List (Mem × Mem) → List ℤ × Layer3Tx
  | [] => ([], t)
  | (msg, data) :: msgs =>
    let out := t.addMessage msg data
    let rest := out.tx.addMessages msgs
    (out.rc :: rest.1, rest.2)

end Layer3Tx

/-! ## Reception -/

/-- The members of `DataIOLayer3` that reception uses. -/
structure Layer3Rx where
  rxDataPtr : Mem
  rxIndex : ℕ
  rxSize : ℕ

namespace Layer3Rx

/-- `rxDataSize`. -/
def rxDataSize (r : Layer3Rx) : ℕ := if r.rxSize > r.rxIndex then r.rxSize - r.rxIndex else 0

/-- `setRxAppData`. -/
def setRxAppData (buffer : Mem) (n : UInt16) : Layer3Rx := ⟨buffer, 0, n.toNat⟩

/-- `readPacket`: the state after it and, if a packet is ready, the two addresses it stores. -/
def readPacket (r : Layer3Rx) (lr2 : DataIOLayer2) : Layer3Rx × Option (UInt16 × UInt16) :=
  match lr2.getRxDataPtr with
  | some (data, destAddress, srcAddress, size) => (⟨data, 0, size⟩, some (destAddress, srcAddress))
  | none => ({ r with rxIndex := 0, rxSize := 0 }, none)

/-- `getMessagePtr`: the message and the state after it, or the negative result. -/
def getMessagePtr (r : Layer3Rx) : Except ℤ (Mem × Layer3Rx) :=
  if r.rxDataSize = 0 then
    .error (-1)
  else
    match messageSize (r.rxDataPtr.shift r.rxIndex) with
    | none => .error (-2)
    | some size =>
      if size > r.rxDataSize then .error (-3)
      else .ok (r.rxDataPtr.shift r.rxIndex, { r with rxIndex := (r.rxIndex + size) % 2 ^ 16 })

variable {σ : Type*}

/-- The loop over the messages of a data block, for a handler with state `σ`: the result of the
last `getMessagePtr`, and the states after it. -/
def forMessages (processRxMessage : Mem → σ → σ) : ℕ → Layer3Rx → σ → Option (ℤ × Layer3Rx × σ)
  | 0, _, _ => none
  | fuel + 1, r, s =>
    match r.getMessagePtr with
    | .error rc => some (rc, r, s)
    | .ok (msg, r') => forMessages processRxMessage fuel r' (processRxMessage msg s)

/-- The handler that keeps the octets of every message. -/
def keepBytes (msg : Mem) (msgs : List (List UInt8)) : List (List UInt8) :=
  msgs ++ [messageBytes msg]

end Layer3Rx

end KS3.DataIO
