import KS3.Buffers.Storage

/-!
# Serving stored blocks

A request of the upper level is answered through `getDataReadyInfo`, which looks at the count of
full buffers, `nFull`. The only function that raises this count is `unlockBuffer`, and
`writeBuffer` does not call it: `lockFreeBuffer` marks a buffer full by itself. So the count is
zero in every state of every run (`nFull_step`), and every request is answered with
`MsgApp_DataAbsence`.

`serving_iff`: along a run, all requests are answered as they should be exactly when no block is
stored and unacknowledged at any of them.
-/

namespace KS3.Buffers.Store

open TDataBuffersContainer

variable {s : Store}

/-- The operation is a `MsgApp_RequestData`. -/
def Requests : Op → Prop
  | .message msg _ => msg.word 2 = msgAppRequestData
  | _ => False

/-- The calls into the protocol an operation makes. -/
def replies (s : Store) : Op → List ProtocolCall
  | .message msg srcAddress => (s.container.extMsgAppTypeHandler msg srcAddress).1
  | _ => []

/-- A `MsgApp_DataAbsence` is put in the reply. -/
def AnswersAbsence (calls : List ProtocolCall) : Prop :=
  ∃ msg data, .addMessage msg data ∈ calls ∧ msg.type = msgAppDataAbsence

/-- A message with one of the stored blocks is put in the reply. -/
def AnswersBlock (calls : List ProtocolCall) (stored : List (ℕ × TDataBuffer)) : Prop :=
  ∃ msg b, .addMessage msg (some b) ∈ calls ∧ msg.type = kDataId ∧
    msg.dataSize = UInt16.ofNat (serviceInfoSize + b.dataSize) ∧ ∃ e ∈ stored, b.Same e.2

/-- The answer to a request: the absence of data exactly if no block is stored and unacknowledged,
and such a block otherwise. -/
def Answered (s : Store) (op : Op) : Prop :=
  (AnswersAbsence (s.replies op) ↔ s.stored = []) ∧
    (s.stored ≠ [] → AnswersBlock (s.replies op) s.stored)

/-- No operation raises the count of full buffers. -/
theorem nFull_step (h : s.container.nFull = 0) (op : Op) (hi : s.container.iFree < kMaxSize) :
    (s.step op).container.nFull = 0 := by
  cases op with
  | writeBuffer buffer dataId =>
    by_cases hid : dataId = kDataId.toUInt32
    · subst hid
      simp only [step, writeBuffer_eq hi]
      split_ifs <;> exact h
    · rw [step_of_ne hid]
      exact h
  | message msg src =>
    simp only [step]
    obtain ⟨-, n, -, heq⟩ | ⟨-, k, heq⟩ := s.container.extMsgAppTypeHandler_cases msg src
    · rw [heq]
      by_cases hfree : s.container.IsFree n
      · rw [releaseBuffer_of_free hfree]
        exact h
      · rw [releaseBuffer_of_full hfree]
        exact h
    · rw [heq]
      exact h
  | reset => rfl

/-- With the count at zero a request is answered with the absence of data. -/
theorem replies_request (h : s.container.nFull = 0) {msg : Mem} {src : UInt16}
    (hreq : msg.word 2 = msgAppRequestData) :
    s.replies (.message msg src) =
      [.addMessage ⟨0x80, msg 1, msgAppDataAbsence, 0⟩ none, .sendPacket src] := by
  have hinfo : s.container.getDataReadyInfo = kNoData := by
    rw [getDataReadyInfo, h]
    rfl
  rw [replies, extMsgAppTypeHandler, if_pos hreq, if_pos hinfo]

theorem answered_iff (h : s.container.nFull = 0) {op : Op} (hreq : Requests op) :
    s.Answered op ↔ s.stored = [] := by
  cases op with
  | writeBuffer buffer dataId => exact hreq.elim
  | reset => exact hreq.elim
  | message msg src =>
    have habsence : AnswersAbsence (s.replies (.message msg src)) := by
      rw [replies_request h hreq]
      exact ⟨_, _, List.mem_cons_self, rfl⟩
    constructor
    · exact fun hanswer => hanswer.1.1 habsence
    · exact fun hnil => ⟨iff_of_true habsence hnil, fun hne => absurd hnil hne⟩

/-- **Serving stored blocks.** Along a run from any initial memory, every request is answered with
`MsgApp_DataAbsence` exactly if no block is stored and unacknowledged, and with such a block
otherwise, exactly when at no request of the run a block is stored and unacknowledged. -/
theorem serving_iff (memory : ℕ → TDataBuffer) (ops : List Op) :
    (∀ m ∈ Run.steps step (init memory) ops, Requests m.2 → m.1.Answered m.2) ↔
      ∀ m ∈ Run.steps step (init memory) ops, Requests m.2 → m.1.stored = [] := by
  have hinv : ∀ m ∈ Run.steps step (init memory) ops,
      m.1.container.iFree < kMaxSize ∧ m.1.container.nFull = 0 :=
    Run.always_steps
      (I := fun s : Store => s.container.iFree < kMaxSize ∧ s.container.nFull = 0)
      (fun s op hs => ⟨iFree_step hs.1 op, nFull_step hs.2 op hs.1⟩)
      ⟨(by decide : 0 < kMaxSize), rfl⟩ ops
  exact forall₂_congr fun m hm => forall_congr' fun hreq => answered_iff (hinv m hm).2 hreq

/-- A request. -/
def request : Op := .message (Mem.ofList [0x80, 1, 0x10, 0, 0, 0]) 1

/-- A block is stored, and the request behind it is answered with the absence of data. -/
theorem not_serving_stored :
    ¬ ∀ m ∈ Run.steps step blank [write 1, request], Requests m.2 → m.1.Answered m.2 := by
  intro h
  have hmem := Run.mem_steps_append_cons step blank [write 1] request []
  have hstored := (h _ hmem rfl).1.1 ⟨_, _, List.mem_cons_self, rfl⟩
  revert hstored
  decide +kernel

end KS3.Buffers.Store
