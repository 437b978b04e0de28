import KS3.Comm.TQueue
import KS3.DataIO.Layer3

/-!
# Requests to the slaves

Everything the device sends to its slaves goes through a queue of requests, `txQueueLoc`, from
which `TMasterTx` makes packets. A request that finds the queue full is dropped: `push` returns
nothing, and `addTxMsgApp` returns true all the same. It also returns true for a link it does not
know, and for a type that does not fit into the sixteen bits the request has for it.

* `addTxMsgApp_truthful_iff`: the result of `addTxMsgApp` says whether the message is in the queue
  exactly when the size is too large, or none of these is the case.
-/

namespace KS3.Protocol

open Comm DataIO

/-- `TTxRequest`. -/
structure TTxRequest where
  type : UInt16
  address : UInt16
  parameter0 : UInt32
  parameter1 : UInt32
  flags : UInt32
  deriving DecidableEq

/-- `TTxRequest::FRqAnswer`. -/
def fRqAnswer : UInt32 := 1

/-- `TTxRequest::FBreakPacket`. -/
def fBreakPacket : UInt32 := 2

/-- `LINK_ID_LOCAL`. -/
def linkIdLocal : UInt8 := 1

/-- `TX_RQ_N_LOC`, the size of the queue. -/
def txRqNLoc : ℕ := 16

theorem txRqNLoc_pos : 0 < txRqNLoc := by decide

/-- `addTxMsgApp`, with the queue `txQueueLoc`; no other link has a queue in this device. -/
def addTxMsgApp (q : TQueue TTxRequest) (a : UInt16) (t sz data f : UInt32) (id : UInt8) :
    Bool × TQueue TTxRequest :=
  if sz ≤ 4 then
    let txRq : TTxRequest := ⟨msgAppType.toUInt16, a, (t <<< 16) ||| sz, data, f⟩
    (true, if id = linkIdLocal then q.push txRq else q)
  else
    (false, q)

/-- `addTxMsgWrite`. -/
def addTxMsgWrite (q : TQueue TTxRequest) (a : UInt16) (p0 p1 f : UInt32) (id : UInt8) :
    TQueue TTxRequest :=
  if id = linkIdLocal then q.push ⟨msgParameterWrite.toUInt16, a, p0, p1, f⟩ else q

/-- `addTxMsgRead`. -/
def addTxMsgRead (q : TQueue TTxRequest) (a : UInt16) (p0 f : UInt32) (id : UInt8) :
    TQueue TTxRequest :=
  if id = linkIdLocal then q.push ⟨msgParameterRead.toUInt16, a, p0, 0, f⟩ else q

/-- `addTxMsgReadBlock`. -/
def addTxMsgReadBlock (q : TQueue TTxRequest) (a base size : UInt16) (f : UInt32) (id : UInt8) :
    TQueue TTxRequest :=
  if id = linkIdLocal then
    q.push ⟨msgReadBlock.toUInt16, a, base.toUInt32, size.toUInt32, f⟩
  else q

/-- `flushTxBuffer`. -/
def flushTxBuffer (q : TQueue TTxRequest) (id : UInt8) : TQueue TTxRequest :=
  if id = linkIdLocal then q.clear else q

/-- The application message a request stands for, as `TMasterTx::addMessage` takes it out. -/
def TTxRequest.appType (rq : TTxRequest) : UInt32 := rq.parameter0 >>> 16

/-- The size of its data, as `TMasterTx::addMessage` takes it out. -/
def TTxRequest.appSize (rq : TTxRequest) : UInt32 := rq.parameter0 &&& 0xFFFF

/-! ## The result of `addTxMsgApp` -/

section Packing

variable (t : UInt32) {sz : UInt32} (hsz : sz ≤ 4)

theorem toNat_shiftLeft_sixteen : (t <<< 16).toNat = t.toNat % 2 ^ 16 * 2 ^ 16 := by
  rw [UInt32.toNat_shiftLeft, Nat.shiftLeft_eq]
  change t.toNat * 2 ^ 16 % 2 ^ 32 = _
  omega

include hsz

/-- The type comes out of `parameter0` without its high bits. -/
theorem packed_type : ((t <<< 16) ||| sz) >>> 16 = t ↔ t < 0x10000 := by
  have hle : sz.toNat ≤ 4 := UInt32.le_iff_toNat_le.1 hsz
  have hadd := Nat.shiftLeft_add_eq_or_of_lt (show sz.toNat < 2 ^ 16 by omega) (t.toNat % 2 ^ 16)
  have hlt := t.toNat_lt
  rw [← UInt32.toNat_inj, UInt32.lt_iff_toNat_lt, UInt32.toNat_shiftRight, UInt32.toNat_or,
    toNat_shiftLeft_sixteen, ← Nat.shiftLeft_eq, ← hadd]
  change ((t.toNat % 2 ^ 16) <<< 16 + sz.toNat) >>> 16 = t.toNat ↔ t.toNat < 0x10000
  rw [Nat.shiftLeft_eq, Nat.shiftRight_eq_div_pow]
  omega

theorem packed_size : ((t <<< 16) ||| sz) &&& 0xFFFF = sz := by
  have hle : sz.toNat ≤ 4 := UInt32.le_iff_toNat_le.1 hsz
  have hmask : (0xFFFF : UInt32).toNat = 2 ^ 16 - 1 := rfl
  rw [← UInt32.toNat_inj, UInt32.toNat_and, hmask, Nat.and_two_pow_sub_one_eq_mod,
    UInt32.toNat_or, Nat.or_mod_two_pow, toNat_shiftLeft_sixteen, Nat.mul_mod_left, Nat.zero_or]
  omega

end Packing

section Truthful

variable (q : TQueue TTxRequest) (a : UInt16) (t sz data f : UInt32) (id : UInt8)

/-- A request encodes the message `addTxMsgApp` is given. -/
structure TTxRequest.Encodes (rq : TTxRequest) (a : UInt16) (t sz data f : UInt32) : Prop where
  type : rq.type = msgAppType.toUInt16
  address : rq.address = a
  appType : rq.appType = t
  appSize : rq.appSize = sz
  data : rq.parameter1 = data
  flags : rq.flags = f

/-- The result of `addTxMsgApp` is true exactly when the message has been put at the end of the
queue, and when it is false the queue is as before. -/
def Truthful : Prop :=
  ((addTxMsgApp q a t sz data f id).1 = true ↔
    ∃ rq : TTxRequest, rq.Encodes a t sz data f ∧
      (addTxMsgApp q a t sz data f id).2.toList = q.toList ++ [rq]) ∧
  ((addTxMsgApp q a t sz data f id).1 = false → (addTxMsgApp q a t sz data f id).2 = q)

/-- A queue that is as before has no new request. -/
theorem toList_ne_concat (rq : TTxRequest) : q.toList ≠ q.toList ++ [rq] := by
  intro h
  have hlen := congrArg List.length h
  rw [List.length_append, List.length_singleton] at hlen
  omega

/-- The queue after a message whose size is accepted. -/
theorem toList_addTxMsgApp (hsz : sz ≤ 4) :
    (addTxMsgApp q a t sz data f id).2.toList =
      if id = linkIdLocal ∧ ¬ q.isFull then
        q.toList ++ [⟨msgAppType.toUInt16, a, (t <<< 16) ||| sz, data, f⟩]
      else q.toList := by
  rw [addTxMsgApp, if_pos hsz]
  by_cases hid : id = linkIdLocal
  · simp only [hid, if_true, TQueue.toList_push, true_and]
    split_ifs <;> rfl
  · simp only [hid, if_false, false_and]

/-- **The result of `addTxMsgApp` is truthful** exactly when the size is refused, or the message is
for the local link, there is room for it and its type fits into sixteen bits. -/
theorem addTxMsgApp_truthful_iff :
    Truthful q a t sz data f id ↔
      4 < sz ∨ (id = linkIdLocal ∧ ¬ q.isFull ∧ t < 0x10000) := by
  unfold Truthful
  by_cases hsz : sz ≤ 4
  · have hrc : (addTxMsgApp q a t sz data f id).1 = true := by
      rw [addTxMsgApp, if_pos hsz]
    rw [hrc, toList_addTxMsgApp q a t sz data f id hsz]
    refine ⟨fun h => .inr ?_, fun h => ?_⟩
    · obtain ⟨rq, henc, hlist⟩ := h.1.1 rfl
      split_ifs at hlist with hroom
      · have hrq := List.singleton_inj.1 (List.append_cancel_left hlist)
        have htype := henc.appType
        rw [← hrq] at htype
        exact ⟨hroom.1, hroom.2, (packed_type t hsz).1 htype⟩
      · exact absurd hlist (toList_ne_concat q rq)
    · obtain ⟨hid, hfull, ht⟩ := h.resolve_left (UInt32.not_lt.2 hsz)
      rw [if_pos ⟨hid, hfull⟩]
      refine ⟨⟨fun _ => ⟨_, ?_, rfl⟩, fun _ => rfl⟩, fun h => (Bool.false_ne_true h.symm).elim⟩
      exact ⟨rfl, rfl, (packed_type t hsz).2 ht, packed_size t hsz, rfl, rfl⟩
  · have hout : addTxMsgApp q a t sz data f id = (false, q) := by
      rw [addTxMsgApp, if_neg hsz]
    rw [hout]
    refine iff_of_true ⟨⟨fun h => (Bool.false_ne_true h).elim, fun h => ?_⟩, fun _ => rfl⟩
      (.inl (UInt32.not_le.1 hsz))
    obtain ⟨rq, -, hlist⟩ := h
    exact absurd hlist (toList_ne_concat q rq)

end Truthful

/-- The queue with as many requests as it has room for. -/
def fullQueue : TQueue TTxRequest :=
  (List.replicate 16 (⟨0, 0, 0, 0, 0⟩ : TTxRequest)).foldl TQueue.push
    (TQueue.init (fun _ => ⟨0, 0, 0, 0, 0⟩) txRqNLoc txRqNLoc_pos)

/-- A message that finds the queue full is lost, and the result is true. -/
theorem addTxMsgApp_lost :
    (addTxMsgApp fullQueue 5 7 2 0x1234 0 linkIdLocal).1 = true ∧
      (addTxMsgApp fullQueue 5 7 2 0x1234 0 linkIdLocal).2.toList = fullQueue.toList ∧
      ¬ Truthful fullQueue 5 7 2 0x1234 0 linkIdLocal := by
  have hlist : (addTxMsgApp fullQueue 5 7 2 0x1234 0 linkIdLocal).2.toList = fullQueue.toList := by
    decide +kernel
  refine ⟨rfl, hlist, fun h => ?_⟩
  obtain ⟨rq, -, hconcat⟩ := h.1.1 rfl
  rw [hlist] at hconcat
  exact toList_ne_concat _ rq hconcat

end KS3.Protocol
