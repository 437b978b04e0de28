import KS3.Protocol.TProtocol
import KS3.DataIO.Grammar

/-!
# The messages of a datagram

`processInputAppData` runs the loop over the messages of a datagram and counts them
(`processInputAppData_of_loop`). `processInputAppData_parses`: the messages it passes to
`processRxMessage` are the longest sequence of messages the datagram begins with, and their number
is the result.
-/

namespace KS3.Protocol

open DataIO PrefixCode

/-- The handler of messages with the counter of `processInputAppData`. -/
def counting {σ : Type*} (h : Handlers σ) (dest src : UInt16) (msg : Mem) (x : σ × ℤ) : σ × ℤ :=
  (h.processRxMessage msg dest src x.1, x.2 + 1)

theorem processInputAppData_of_loop {σ : Type*} {h : Handlers σ} (p : TProtocol) {buffer : Mem}
    {n : UInt16} {s s' : σ} {rc count : ℤ} {layer3 : Layer3Rx}
    {dest src : UInt16} (hloop : Layer3Rx.forMessages (counting h dest src) (n.toNat - 0 + 1)
      ⟨buffer, 0, n.toNat⟩ (h.onBeginRxPacketProcess s, 0) = some (rc, layer3, s', count)) :
    p.processInputAppData h buffer n dest src s =
      some (count, { p with layer3 := layer3, srcAddress := src },
        h.onEndRxPacketProcess src s') := by
  have hloop' : Layer3Rx.forMessages
      (fun msg (x : σ × ℤ) => (h.processRxMessage msg dest src x.1, x.2 + 1)) (n.toNat - 0 + 1)
      ⟨buffer, 0, n.toNat⟩ (h.onBeginRxPacketProcess s, 0) = some (rc, layer3, s', count) := hloop
  simp only [TProtocol.processInputAppData, Layer3Rx.setRxAppData, Layer3Rx.rxDataSize_mk, hloop']

/-- The loop of `processInputAppData` handles the messages and counts them. -/
theorem foldl_counting {σ : Type*} (h : Handlers σ) (buffer : Mem) (dest src : UInt16)
    (is : List ℕ) (s : σ) (count : ℤ) :
    is.foldl (fun x i => counting h dest src (buffer.shift i) x) (s, count) =
      (is.foldl (fun s i => h.processRxMessage (buffer.shift i) dest src s) s,
        count + is.length) := by
  induction is generalizing s count with
  | nil => simp
  | cons i is ih =>
    rw [List.foldl_cons, List.foldl_cons, counting, ih, List.length_cons, Nat.cast_succ,
      add_assoc, add_comm 1]

/-- **The messages of a datagram.** For every datagram in which no header the parser comes to is
cut off or has a size that wraps, the messages passed to `processRxMessage`, in order and each by
the place where it begins, are the longest sequence of messages the datagram begins with. What is
left is nothing, an unknown id or a message that does not fit. The result is the number of
messages, which is small enough for its type. -/
theorem processInputAppData_parses {σ : Type*} (h : Handlers σ) (p : TProtocol) (buffer : Mem)
    (n dest src : UInt16) (s : σ) (hok : Layer3Rx.HeadersOk buffer n.toNat) :
    ∃ msgs rest, MaximalParse IsMessage (buffer.read 0 n.toNat) msgs rest ∧ Stops rest ∧
      msgs.length < 32768 ∧
      p.processInputAppData h buffer n dest src s =
        some ((msgs.length : ℤ),
          { p with layer3 := ⟨buffer, msgs.flatten.length, n.toNat⟩, srcAddress := src },
          h.onEndRxPacketProcess src
            ((Layer3Rx.offsets 0 msgs).foldl
              (fun s i => h.processRxMessage (buffer.shift i) dest src s)
              (h.onBeginRxPacketProcess s))) := by
  have hn := n.toNat_lt
  obtain ⟨rc, msgs, rest, hparses, hstops, hloop⟩ := Layer3Rx.forMessages_parses
    (counting h dest src) hn hok .start (Nat.zero_le _) (h.onBeginRxPacketProcess s, 0)
    (Nat.lt_succ_self (n.toNat - 0))
  rw [Nat.sub_zero] at hparses
  have hcount : msgs.length < 32768 := by
    have hfour := length_le_flatten_of_words hparses.words
    have hlength := congrArg List.length hparses.flatten_append
    rw [List.length_append, Mem.length_read] at hlength
    omega
  refine ⟨msgs, rest, hparses.maximal_of_stuck isMessage_free hstops.stuck, hstops, hcount, ?_⟩
  rw [foldl_counting, Nat.zero_add, zero_add, Layer3Rx.length_offsets] at hloop
  exact processInputAppData_of_loop p hloop

/-- A datagram of a `MsgParameterRead`, an application message with one octet of data, and an
unknown id. -/
def threeParts : List UInt8 := [0x11, 1, 5, 0, 0x80, 2, 0x10, 0, 1, 0, 7, 0x99]

/-- Its two messages are passed on. -/
theorem processInputAppData_parses_three :
    ∃ msgs rest, MaximalParse IsMessage threeParts msgs rest ∧ Stops rest ∧ msgs.length = 2 := by
  have hheaders : ∀ i < 12, Mem.ofList threeParts i = msgAppType →
      i + 6 ≤ 12 ∧ appDataSize ((Mem.ofList threeParts).shift i) < 0xFFFA := by decide +kernel
  obtain ⟨msgs, rest, hmax, hstops, -, hout⟩ := processInputAppData_parses recorder
    ⟨Layer3Rx.readyRead, ⟨fun _ => 0, 0, 0⟩, 0, 0, 0⟩ (Mem.ofList threeParts) 12 1 2 []
    fun i _ hlt => hheaders i hlt
  have hcount : ((⟨Layer3Rx.readyRead, ⟨fun _ => 0, 0, 0⟩, 0, 0, 0⟩ : TProtocol).processInputAppData
      recorder (Mem.ofList threeParts) 12 1 2 []).map Prod.fst = some 2 := by decide +kernel
  rw [hout] at hcount
  exact ⟨msgs, rest, hmax, hstops, Int.ofNat_inj.1 (Option.some.inj hcount)⟩

end KS3.Protocol
